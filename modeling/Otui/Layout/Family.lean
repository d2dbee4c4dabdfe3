import Otui.Layout.Box
import Otui.Notice

/-!
# Families and what their members hang on

The children of a widget form a family. A member hangs on the parent or on a sibling: with its
middle, filling it, or with single edges. `Family.steps` says for a member what it hangs on, in
order, and which of its anchors are strange; this depends on the family alone and not on where
anything stands. `Family.Hooks` is the relation "hangs on a sibling".
-/

namespace Otui

/-- The children of a widget. -/
structure Family (α : Type) (n : Nat) where
  /-- The boxes of the children. -/
  box : Fin n → Box α
  /-- The content box of the parent. -/
  content : Rect α

/-- What a widget hangs on. -/
inductive Target (n : Nat) where
  /-- The content box of the parent. -/
  | parent
  /-- A sibling. -/
  | sibling (i : Fin n)
  deriving DecidableEq

/-- The way in which a widget hangs on something. -/
inductive Hold where
  /-- With its middle in the middle. -/
  | centre
  /-- Filling it. -/
  | fill
  /-- With one edge on an edge. -/
  | edge (own hooked : Edge)
  deriving DecidableEq

/-- A step of placing a widget. -/
inductive Step (n : Nat) where
  /-- Something strange is passed over. -/
  | remark (notice : Notice)
  /-- The widget hangs on something. -/
  | hang (hold : Hold) (target : Target n)
  deriving DecidableEq

variable {α : Type} {n : Nat}

/-! ### Holds -/

namespace Hold

variable [Scalar α]

/-- Where a widget starts on the axis of one of its edges when that edge is at `x`. -/
def start (b : Box α) (own : Edge) (x : α) : α :=
  let extent := b.frame.extent own.axis
  match own.spot with
  | .near => x + b.margins.near own.axis
  | .middle => x - Scalar.half * extent + b.margins.near own.axis - b.margins.far own.axis
  | .far => x - extent - b.margins.far own.axis

/-- The frame moved so that an edge of it hangs on an edge of a target. -/
def pull (b : Box α) (own hooked : Edge) (target frame : Rect α) : Rect α :=
  frame.startingAt (start b own (target.point hooked)) own.axis

/-- The frame of a widget that hangs on a target. -/
def apply (b : Box α) (target frame : Rect α) : Hold → Rect α
  | .centre =>
    let across := pull b ⟨.horizontal, .middle⟩ ⟨.horizontal, .middle⟩ target frame
    pull b ⟨.vertical, .middle⟩ ⟨.vertical, .middle⟩ target across
  | .fill =>
    { left := target.point .left + b.margins.left
      top := target.point .top + b.margins.top
      width := Scalar.atLeastZero (target.width - b.margins.left - b.margins.right)
      height := Scalar.atLeastZero (target.height - b.margins.top - b.margins.bottom) }
  | .edge own hooked => pull b own hooked target frame

end Hold

/-! ### Steps -/

namespace Box

/-- The spellings of the edge that stands for the middle of both axes, in lower case. -/
def centreSpellings : List String := ["centerin", "center-in"]

/-- Whether an anchored edge stands for the middle of both axes. -/
def isCentre (edge : String) : Bool := centreSpellings.contains (Text.lower edge)

/-- Whether an anchored edge stands for all sides. -/
def isFill (edge : String) : Bool := Text.lower edge == "fill"

/-- The value of the last anchor whose edge satisfies a test. -/
def lastAnchor? (b : Box α) (p : String → Bool) : Option String :=
  ((b.anchors.filter fun a => p a.1).getLast?).map (·.2)

/-- The anchors of single edges as written. -/
def edgeAnchors (b : Box α) : List (String × String) :=
  b.anchors.filter fun a => !isCentre a.1 && !isFill a.1

/-- The anchors of single edges that there are. -/
def edges (b : Box α) : List (Edge × String) :=
  b.edgeAnchors.filterMap fun a => (Edge.read? a.1).map fun e => (e, a.2)

/-- The notices for anchored edges that there are not. -/
def strangeEdges (b : Box α) : List Notice :=
  (b.edgeAnchors.filter fun a => (Edge.read? a.1).isNone).map fun a => .strangeOwnEdge a.1 b.label

end Box

namespace Family

/-- The first sibling of a member with an id. -/
def siblingNamed? (f : Family α n) (i : Fin n) (id : String) : Option (Fin n) :=
  (List.finRange n).find? fun j => j != i && (f.box j).id == some id

/-- The member before another. -/
def before? (i : Fin n) : Option (Fin n) :=
  if i.val = 0 then none else some ⟨i.val - 1, Nat.lt_of_le_of_lt (Nat.sub_le _ _) i.isLt⟩

/-- The member after another. -/
def after? (i : Fin n) : Option (Fin n) :=
  if h : i.val + 1 < n then some ⟨i.val + 1, h⟩ else none

/-- What a hook of a member names: the parent, the sibling before or after it, or a sibling by its
id, all without regard to case. -/
def target? (f : Family α n) (i : Fin n) (hook : String) : Option (Target n) :=
  let name := Text.lower hook
  if name == "parent" then some .parent
  else if name == "prev" then (before? i).map .sibling
  else if name == "next" then (after? i).map .sibling
  else (f.siblingNamed? i name).map .sibling

/-- The step for a hold on what a hook names. -/
def holdOn (f : Family α n) (i : Fin n) (hold : Hold) (hook : String) : Step n :=
  match f.target? i hook with
  | some target => .hang hold target
  | none => .remark (.unknownHook hook (f.box i).label)

/-- The step for the anchor of a single edge; an anchor to nothing has none. -/
def edgeStep? (f : Family α n) (i : Fin n) (own : Edge) (value : String) : Option (Step n) :=
  let value := Text.trim value
  if value == "none" then none
  else
    match Text.cut '.' value with
    | [hook, edge] =>
      match Edge.read? edge with
      | some hooked => some (f.holdOn i (.edge own hooked) hook)
      | none => some (.remark (.strangeHookedEdge edge (f.box i).label))
    | _ => some (.remark (.strangeAnchor value (f.box i).label))

/-- The steps for the anchors that count: the last one of the middle, else the last one of all
sides, else all single edges. -/
def anchorSteps (f : Family α n) (i : Fin n) : List (Step n) :=
  let b := f.box i
  match b.lastAnchor? Box.isCentre with
  | some value => [f.holdOn i .centre (Text.trim value)]
  | none =>
    match b.lastAnchor? Box.isFill with
    | some value => [f.holdOn i .fill (Text.trim value)]
    | none => b.edges.filterMap fun (own, value) => f.edgeStep? i own value

/-- The steps of placing a member. -/
def steps (f : Family α n) (i : Fin n) : List (Step n) :=
  (f.box i).strangeEdges.map .remark ++ f.anchorSteps i

/-- A member hangs on a sibling. -/
def Hooks (f : Family α n) (i j : Fin n) : Prop := ∃ hold, Step.hang hold (.sibling j) ∈ f.steps i

end Family

end Otui
