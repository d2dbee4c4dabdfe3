import Otui.Layout.Board
import Otui.Outcome

/-!
# Layout

Roots stand at an origin and have the size that they say, or a default. From there on down, the
children of a widget form a family that is placed inside it: `Widget.settled` gives every widget of
a tree its placement.
-/

namespace Otui

variable {α : Type} [Scalar α]

/-- The children of a widget of some size as a family. -/
def Family.ofChildren (p : Placement α) (padding : Sides α) (cs : List (Widget α)) :
    Family α cs.length :=
  let boxes := cs.map fun c => Box.ofElement c.label
  { box := fun i => boxes.get (i.cast (by simp [boxes]))
    content :=
      { left := padding.left
        top := padding.top
        width := Scalar.atLeastZero (p.width - padding.left - padding.right)
        height := Scalar.atLeastZero (p.height - padding.top - padding.bottom) } }

/-- The placement of a child that stands in a rectangle. -/
def Placement.ofRect (parent : Placement α) (padding : Sides α) (r : Rect α) : Placement α :=
  { left := r.left
    top := r.top
    width := r.width
    height := r.height
    parentWidth := parent.width
    parentHeight := parent.height
    paddingLeft := padding.left
    paddingTop := padding.top
    paddingRight := padding.right
    paddingBottom := padding.bottom }

/-- The placements of the children of a widget with its own placement. -/
def childPlacements (p : Placement α) (values : Ledger String) (cs : List (Widget α)) :
    Noted (List (Placement α)) :=
  let padding := padding values
  let family := Family.ofChildren p padding cs
  let board := family.settle
  ⟨(List.finRange cs.length).map fun i => .ofRect p padding (family.rect board i), board.notices⟩

namespace Widget

mutual

/-- The widget with its placement and those of all below it. -/
def settled (p : Placement α) : Widget α → Noted (Widget α)
  | .node e cs => do
    let places ← childPlacements p e.properties.values cs
    let cs ← settledAll places cs
    return .node { e with placement := some p } cs

/-- Widgets with their placements, in order, and those of all below them. -/
def settledAll : List (Placement α) → List (Widget α) → Noted (List (Widget α))
  | p :: ps, w :: ws => do
    let w ← settled p w
    let ws ← settledAll ps ws
    return w :: ws
  | _, ws => pure ws

end

end Widget

/-- The placement of a root widget. -/
def Config.rootPlacement (config : Config α) (origin : α × α) (e : Element α) :
    Except Fault (Placement α) := do
  let values := e.properties.values
  let width ← rootExtent (values.get? "width") config.defaultWidth
  let height ← rootExtent (values.get? "height") config.defaultHeight
  return ⟨origin.1, origin.2, width, height, 0, 0, 0, 0, 0, 0⟩

/-- Places root widgets at an origin, and all below them. -/
def layout (config : Config α) (origin : α × α) : List (Widget α) → Outcome (List (Widget α))
  | [] => pure []
  | w :: ws => do
    let p ← Outcome.ofExcept (config.rootPlacement origin w.label)
    let w ← Outcome.ofNoted (w.settled p)
    let ws ← layout config origin ws
    return w :: ws

end Otui
