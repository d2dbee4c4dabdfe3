import Otui.Anchor.Edge
import Otui.Widget

/-!
# Inferring anchors

A widget that stands somewhere inside the content box of its parent can be anchored so that it
stands there again. Each axis is decided by itself: near the middle the widget is centred, elsewhere
it hangs on the edge of the content box that is closer. What remains is a margin, in whole pixels.
-/

namespace Otui

/-- The anchor on one axis. -/
structure AxisFit where
  /-- The place of the parent, and of the widget, that the anchor ties together. -/
  spot : Spot
  /-- The margin, with the side that it is on. -/
  margin : Option (Spot × Int)
  deriving DecidableEq

/-- The anchors of a widget: one on each axis. -/
structure Fit where
  /-- The anchor from left to right. -/
  horizontal : AxisFit
  /-- The anchor from top to bottom. -/
  vertical : AxisFit
  deriving DecidableEq

namespace Fit

/-- The anchored edges, the one from left to right first. -/
def edges (f : Fit) : List Edge :=
  [⟨.horizontal, f.horizontal.spot⟩, ⟨.vertical, f.vertical.spot⟩]

/-- The margin of an axis by its edge. -/
def axisMargin (axis : Axis) (f : AxisFit) : List (Edge × Int) :=
  (f.margin.map fun m => (⟨axis, m.1⟩, m.2)).toList

/-- The margins by their edges, the one from left to right first. -/
def margins (f : Fit) : List (Edge × Int) :=
  axisMargin .horizontal f.horizontal ++ axisMargin .vertical f.vertical

/-- The anchors as properties. -/
def directives (f : Fit) : List (String × String) :=
  f.edges.map fun e => ("anchors." ++ e.name, "parent." ++ e.name)

end Fit

section

variable {α : Type} [Scalar α]

open Scalar

/-! ### One axis -/

/-- The extent of the content of a parent. -/
def contentExtent (size near far : α) : α := positivePart (size - near - far)

/-- A margin, unless it is nought. -/
def marginOf (side : Spot) (n : Int) : Option (Spot × Int) :=
  if n == 0 then none else some (side, n)

/-- The anchor of a widget whose middle is so far from that of its parent. -/
def centredFit (offset : α) : Except Number.Unroundable AxisFit :=
  if half < abs offset then do
    let n ← roundAway (abs offset)
    return ⟨.middle, some (if 0 < offset then .far else .near, n)⟩
  else .ok ⟨.middle, none⟩

/-- The anchor at an edge that is so far away. -/
def edgeFit (side : Spot) (distance : α) : Except Number.Unroundable AxisFit :=
  (roundAway distance).map fun n => ⟨side, marginOf side n⟩

/-- The anchor on one axis for a widget that starts at `position` inside the content. -/
def axisFit (threshold position size content : α) : Except Number.Unroundable AxisFit :=
  let offset := (position + half * size) - half * content
  let toNear := positivePart position
  let toFar := positivePart (content - position - size)
  if abs offset < threshold then centredFit offset
  else if toNear ≤ toFar then edgeFit .near toNear
  else edgeFit .far toFar

/-! ### Both axes -/

/-- The anchors for a placement; `none` when the parent has no content box to speak of. Measures
that are infinite or undefined count as nought. -/
def Placement.fit? (p : Placement α) (threshold : α) : Except Number.Unroundable (Option Fit) := do
  let z : α → α := finiteOrZero
  let contentWidth := contentExtent (z p.parentWidth) (z p.paddingLeft) (z p.paddingRight)
  let contentHeight := contentExtent (z p.parentHeight) (z p.paddingTop) (z p.paddingBottom)
  if z p.parentWidth ≤ 0 ∨ z p.parentHeight ≤ 0 ∨ isZero contentWidth ∨ isZero contentHeight then
    return none
  let horizontal ← axisFit threshold (z p.left - z p.paddingLeft) (z p.width) contentWidth
  let vertical ← axisFit threshold (z p.top - z p.paddingTop) (z p.height) contentHeight
  return some ⟨horizontal, vertical⟩

end

end Otui
