import Mathlib.Data.List.Forall2
import Otui.Layout
import Otui.Proofs.AlikeForests

/-!
# What the places of widgets depend on

Placing reads the sizes, margins, paddings and anchors of widgets, and of their ids only which of
them the anchors name. Two families with the same boxes, in which every hook that counts names
the same members, are placed alike (`settle_placed`): their steps are the same up to what they remark,
each step gives the same frame, and so does placing a member, by recursion on the members that are
not on the way. Two forests with the same measures are then placed alike (`placements_layout`).
-/

namespace Otui

variable {α : Type} {n m : Nat}

/-! ### What widgets hang on -/

namespace Box

/-- The hooks of the anchors that count. -/
def hooks (b : Box α) : List String :=
  match b.lastAnchor? isCentre with
  | some value => [Text.trim value]
  | none =>
    match b.lastAnchor? isFill with
    | some value => [Text.trim value]
    | none => b.edges.filterMap fun a =>
      match Text.cut '.' (Text.trim a.2) with
      | [hook, _] => some hook
      | _ => none

/-- The hooks that stand for the parent and for the neighbours. -/
def relations : List String := ["parent", "prev", "next"]

/-- The hooks that are ids of siblings. -/
def namedHooks (b : Box α) : List String :=
  b.hooks.filter fun hook => !relations.contains (Text.lower hook)

/-- Boxes that differ in labels and ids only. -/
structure Same (b c : Box α) : Prop where
  /-- The widths are the same. -/
  width : b.width = c.width
  /-- The heights are the same. -/
  height : b.height = c.height
  /-- The margins are the same. -/
  margins : b.margins = c.margins
  /-- The anchors are the same. -/
  anchors : b.anchors = c.anchors

/-- Whether a hook is the id of a box, without regard to case. -/
def isNamed (b : Box α) (hook : String) : Bool := b.id == some (Text.lower hook)

end Box

namespace Box.Same

variable {b c : Box α}

theorem lastAnchor? (h : b.Same c) (p : String → Bool) : b.lastAnchor? p = c.lastAnchor? p := by
  rw [Box.lastAnchor?, Box.lastAnchor?, h.anchors]

theorem edgeAnchors (h : b.Same c) : b.edgeAnchors = c.edgeAnchors := by
  rw [Box.edgeAnchors, Box.edgeAnchors, h.anchors]

theorem edges (h : b.Same c) : b.edges = c.edges := by rw [Box.edges, Box.edges, h.edgeAnchors]

variable [Scalar α]

theorem frame (h : b.Same c) : b.frame = c.frame := by rw [Box.frame, Box.frame, h.width, h.height]

theorem start (h : b.Same c) (own : Edge) (x : α) : Hold.start b own x = Hold.start c own x := by
  rw [Hold.start, Hold.start, h.frame, h.margins]

theorem apply (h : b.Same c) (target frame : Rect α) (hold : Hold) :
    hold.apply b target frame = hold.apply c target frame := by
  cases hold with
  | centre => simp only [Hold.apply, Hold.pull, h.start]
  | fill => simp only [Hold.apply, h.margins]
  | edge own hooked => simp only [Hold.apply, Hold.pull, h.start]

end Box.Same

/-! ### Steps -/

/-- Steps that are the same, or both remarks. -/
inductive Step.Like : Step n → Step n → Prop where
  /-- Whatever is remarked, nothing moves. -/
  | remark (a b : Notice) : Like (.remark a) (.remark b)
  /-- The same hold on the same target. -/
  | hang (hold : Hold) (target : Target n) : Like (.hang hold target) (.hang hold target)

namespace Family

/-- Families with the same boxes in the same content box, whose hooks name the same members. -/
structure Like (f g : Family α n) : Prop where
  /-- The content boxes are the same. -/
  content : f.content = g.content
  /-- The boxes are the same up to labels and ids. -/
  box : ∀ i, (f.box i).Same (g.box i)
  /-- What is named by a hook in one family is named by it in the other. -/
  named : ∀ i, ∀ hook ∈ (f.box i).namedHooks, ∀ j,
    (f.box j).isNamed hook = (g.box j).isNamed hook

namespace Like

variable {f g : Family α n}

theorem target?_eq (h : f.Like g) {i : Fin n} {hook : String} (hh : hook ∈ (f.box i).hooks) :
    f.target? i hook = g.target? i hook := by
  unfold target?
  by_cases hr : Box.relations.contains (Text.lower hook) = true
  · simp only [Box.relations, List.contains_iff_mem, List.mem_cons, List.not_mem_nil, or_false] at hr
    rcases hr with hr | hr | hr <;> simp [hr]
  · have hnamed : hook ∈ (f.box i).namedHooks := List.mem_filter.2 ⟨hh, by simpa using hr⟩
    have hsibling : f.siblingNamed? i (Text.lower hook) = g.siblingNamed? i (Text.lower hook) := by
      unfold siblingNamed?
      congr 1
      funext j
      exact congrArg (j != i && ·) (h.named i hook hnamed j)
    simp only [hsibling]

theorem holdOn (h : f.Like g) {i : Fin n} {hook : String} (hh : hook ∈ (f.box i).hooks)
    (hold : Hold) : (f.holdOn i hold hook).Like (g.holdOn i hold hook) := by
  unfold Family.holdOn
  rw [h.target?_eq hh]
  cases g.target? i hook with
  | some target => exact .hang hold target
  | none => exact .remark _ _

/-- The step for an edge is there in both families or in neither, and alike. -/
theorem edgeStep? (h : f.Like g) {i : Fin n} (own : Edge) {value : String}
    (hh : ∀ hook edge, Text.cut '.' (Text.trim value) = [hook, edge] → hook ∈ (f.box i).hooks) :
    Option.Rel Step.Like (f.edgeStep? i own value) (g.edgeStep? i own value) := by
  simp only [Family.edgeStep?]
  split
  · exact .none
  · split
    · next hook edge hcut =>
      cases Edge.read? edge with
      | some hooked => exact .some (h.holdOn (hh hook edge hcut) _)
      | none => exact .some (.remark _ _)
    · exact .some (.remark _ _)

theorem anchorSteps (h : f.Like g) (i : Fin n) :
    List.Forall₂ Step.Like (f.anchorSteps i) (g.anchorSteps i) := by
  unfold Family.anchorSteps
  simp only [← (h.box i).lastAnchor?, ← (h.box i).edges]
  cases hcentre : (f.box i).lastAnchor? Box.isCentre with
  | some value => exact .cons (h.holdOn (by simp [Box.hooks, hcentre]) _) .nil
  | none =>
    cases hfill : (f.box i).lastAnchor? Box.isFill with
    | some value => exact .cons (h.holdOn (by simp [Box.hooks, hcentre, hfill]) _) .nil
    | none =>
      have hself : List.Forall₂ (fun a b => a ∈ (f.box i).edges ∧ a = b) (f.box i).edges
          (f.box i).edges := List.forall₂_same.2 fun a ha => ⟨ha, rfl⟩
      refine List.rel_filterMap ?_ hself
      rintro ⟨own, value⟩ b ⟨ha, rfl⟩
      refine h.edgeStep? own fun hook edge hcut => ?_
      simp only [Box.hooks, hcentre, hfill]
      exact List.mem_filterMap.2 ⟨(own, value), ha, by rw [hcut]⟩

theorem strangeEdges (h : f.Like g) (i : Fin n) :
    List.Forall₂ Step.Like ((f.box i).strangeEdges.map Step.remark : List (Step n))
      ((g.box i).strangeEdges.map Step.remark) := by
  rw [Box.strangeEdges, Box.strangeEdges, ← (h.box i).edgeAnchors, List.map_map, List.map_map,
    List.forall₂_map_left_iff, List.forall₂_map_right_iff, List.forall₂_same]
  exact fun a _ => .remark _ _

/-- The steps of a member are alike in both families. -/
theorem steps (h : f.Like g) (i : Fin n) : List.Forall₂ Step.Like (f.steps i) (g.steps i) :=
  List.rel_append (h.strangeEdges i) (h.anchorSteps i)

/-! ### Placing -/

variable [Scalar α]

theorem rect_eq (h : f.Like g) {b c : Board α n} (hbc : b.placed = c.placed) (i : Fin n) :
    f.rect b i = g.rect c i := by
  rw [rect, rect, hbc, (h.box i).frame]

/-- Alike steps of the same box give the same frame, when they place siblings alike. -/
theorem follow (h : f.Like g) {x y : Box α} (hxy : x.Same y)
    {next other : Fin n → Board α n → Board α n}
    (hnext : ∀ j b c, b.placed = c.placed → (next j b).placed = (other j c).placed)
    {ss ts : List (Step n)} (hst : List.Forall₂ Step.Like ss ts) (frame : Rect α)
    {b c : Board α n} (hbc : b.placed = c.placed) :
    (f.follow x next ss frame b).1 = (g.follow y other ts frame c).1
      ∧ (f.follow x next ss frame b).2.placed = (g.follow y other ts frame c).2.placed := by
  induction hst generalizing frame b c with
  | nil => exact ⟨rfl, hbc⟩
  | cons hs _ ih =>
    cases hs with
    | remark p q => exact ih frame hbc
    | hang hold target =>
      cases target with
      | parent =>
        simp only [Family.follow, hxy.apply, h.content]
        exact ih _ hbc
      | sibling j =>
        have hj := hnext j b c hbc
        simp only [Family.follow, hxy.apply, h.rect_eq hj]
        exact ih _ hj

/-- A member is placed alike in both families. The recursion is that of placing: each step to a
sibling takes a member off those that are not on the way. -/
theorem place (h : f.Like g) (free : List (Fin n)) (i : Fin n) {b c : Board α n}
    (hbc : b.placed = c.placed) : (f.place free i b).placed = (g.place free i c).placed := by
  have hhas : b.has i = c.has i := by rw [Board.has, Board.has, hbc]
  rw [Family.place, Family.place, hhas]
  split
  · exact hbc
  · split
    · next hfree =>
      have hless : (free.erase i).length < free.length := by
        rw [List.length_erase_of_mem hfree]
        exact Nat.sub_lt (List.length_pos_of_mem hfree) Nat.one_pos
      obtain ⟨hframe, hplaced⟩ := h.follow (h.box i)
        (fun j b c hjbc => h.place (free.erase i) j hjbc) (h.steps i) (f.box i).frame hbc
      rw [(h.box i).frame] at hframe hplaced ⊢
      simp only [Board.put, hframe, hplaced]
    · exact hbc
  termination_by free.length

/-- Families that are alike are placed alike. -/
theorem settle_placed (h : f.Like g) : f.settle.placed = g.settle.placed := by
  have hfold : ∀ (is : List (Fin n)) (b c : Board α n), b.placed = c.placed →
      (is.foldl (fun b i => f.place (List.finRange n) i b) b).placed
        = (is.foldl (fun b i => g.place (List.finRange n) i b) c).placed := by
    intro is
    induction is with
    | nil => exact fun _ _ hbc => hbc
    | cons i is ih => exact fun b c hbc => ih _ _ (h.place _ i hbc)
  exact hfold _ _ _ rfl

end Like

end Family

end Otui
