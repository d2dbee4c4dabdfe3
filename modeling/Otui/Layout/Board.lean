import Otui.Layout.Family

/-!
# Placing the members of a family

A member can be placed once the siblings that it hangs on are. So placing goes depth first along the
hooks: `Family.place` places the siblings that a member hangs on and then the member. A member that
is come back to on the way hangs on itself; this is reported, and what hangs on it takes it to be
where it has not been moved from yet.

The members that are not on the way are the second argument of `Family.place`. Each step to a
sibling takes one of them, so placing ends for any hooks.
-/

namespace Otui

/-- The members placed so far. -/
structure Board (α : Type) (n : Nat) where
  /-- The members with their places, in the order in which they were placed. -/
  placed : List (Fin n × Rect α) := []
  /-- The notices so far. -/
  notices : List Notice := []

variable {α : Type} {n : Nat}

namespace Board

/-- Whether a member is placed. -/
def has (b : Board α n) (i : Fin n) : Bool := (b.placed.lookup i).isSome

/-- The board with one more notice. -/
def remark (b : Board α n) (notice : Notice) : Board α n :=
  { b with notices := b.notices ++ [notice] }

/-- The board with one more member placed. -/
def put (b : Board α n) (i : Fin n) (r : Rect α) : Board α n :=
  { b with placed := b.placed ++ [(i, r)] }

end Board

namespace Family

variable [Scalar α]

/-- The place of a member: where it was placed, else at the corner. -/
def rect (f : Family α n) (b : Board α n) (i : Fin n) : Rect α :=
  (b.placed.lookup i).getD (f.box i).frame

/-- A frame that does not start before the corner. -/
def clamp (r : Rect α) : Rect α :=
  { r with left := Scalar.atLeastZero r.left, top := Scalar.atLeastZero r.top }

/-- Takes the steps of a box; `next` places a sibling first. -/
def follow (f : Family α n) (box : Box α) (next : Fin n → Board α n → Board α n) :
    List (Step n) → Rect α → Board α n → Rect α × Board α n
  | [], frame, b => (frame, b)
  | .remark notice :: rest, frame, b => f.follow box next rest frame (b.remark notice)
  | .hang hold .parent :: rest, frame, b =>
    f.follow box next rest (hold.apply box f.content frame) b
  | .hang hold (.sibling j) :: rest, frame, b =>
    let b := next j b
    f.follow box next rest (hold.apply box (f.rect b j) frame) b

/-- Places a member, after the siblings that it hangs on. -/
def place (f : Family α n) (free : List (Fin n)) (i : Fin n) (b : Board α n) : Board α n :=
  if b.has i then b
  else if i ∈ free then
    let (frame, b) :=
      f.follow (f.box i) (fun j b => f.place (free.erase i) j b) (f.steps i) (f.box i).frame b
    b.put i (clamp frame)
  else b.remark (.anchoredToItself (f.box i).label)
  termination_by free.length
  decreasing_by
    next h =>
      rw [List.length_erase_of_mem h]
      exact Nat.sub_lt (List.length_pos_of_mem h) Nat.one_pos

/-- Places all members in order. -/
def settle (f : Family α n) : Board α n :=
  (List.finRange n).foldl (fun b i => f.place (List.finRange n) i b) {}

end Family

end Otui
