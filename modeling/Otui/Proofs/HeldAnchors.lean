import Mathlib.Data.Finite.Defs
import Mathlib.Logic.Relation
import Mathlib.Order.WellFounded
import Mathlib.Data.Fintype.EquivFin
import Otui.Layout.Board

/-!
# What the members of a family hang on

Of the anchors of a box only some count: the last one of the middle, else the last one of all sides,
else every anchor of a single edge that has the form `hook.edge` with edges that there are
(`Box.holds`). A member hangs on what the hooks of these name (`Family.held`), and the steps of placing
it are just these holds, in order, among remarks (`held_steps`).

`Family.stand` is where a member comes to stand when its siblings have given places. It reads the
places of the siblings that the member hangs on and no others, so when no member hangs on itself by
way of its siblings, at most one choice of places lets all members stand where their anchors say
(`Family.IsAcyclic.unique`).
-/

namespace Otui

variable {α : Type} {n : Nat}

/-! ### The anchors that count -/

/-- How an edge is anchored by a value of the form `hook.edge`, and the hook. -/
def edgeHold? (own : Edge) (value : String) : Option (Hold × String) :=
  match Text.cut '.' (Text.trim value) with
  | [hook, edge] => (Edge.read? edge).map fun hooked => (.edge own hooked, hook)
  | _ => none

/-- The ways in which a box is anchored, with the hooks, in order. -/
def Box.holds (b : Box α) : List (Hold × String) :=
  match b.lastAnchor? isCentre with
  | some value => [(.centre, Text.trim value)]
  | none =>
    match b.lastAnchor? isFill with
    | some value => [(.fill, Text.trim value)]
    | none => b.edges.filterMap fun a => edgeHold? a.1 a.2

/-- What a step hangs the member on, if it does. -/
def Step.held? : Step n → Option (Hold × Target n)
  | .remark _ => none
  | .hang hold target => some (hold, target)

theorem Step.held?_eq_some {s : Step n} {hold : Hold} {target : Target n} :
    s.held? = some (hold, target) ↔ s = .hang hold target := by
  cases s <;> simp [held?]

namespace Family

variable (f : Family α n)

/-- How a member hangs on what its hooks name, in order. -/
def held (i : Fin n) : List (Hold × Target n) :=
  (f.box i).holds.filterMap fun h => (f.target? i h.2).map fun target => (h.1, target)

theorem held?_holdOn (i : Fin n) (hold : Hold) (hook : String) :
    (f.holdOn i hold hook).held? = (f.target? i hook).map fun target => (hold, target) := by
  unfold holdOn
  cases f.target? i hook <;> rfl

/-- The step for an edge hangs the member on what the hook of a valid anchor names. -/
theorem held?_edgeStep? (i : Fin n) (own : Edge) (value : String) :
    (f.edgeStep? i own value).bind Step.held?
      = (edgeHold? own value).bind fun h => (f.target? i h.2).map fun target => (h.1, target) := by
  have hnone : Text.cut '.' "none" = ["none"] := by decide
  by_cases hvalue : Text.trim value = "none"
  · simp [edgeStep?, edgeHold?, hvalue, hnone]
  · simp only [edgeStep?, edgeHold?, beq_iff_eq, hvalue, if_false]
    rcases Text.cut '.' (Text.trim value) with _ | ⟨hook, _ | ⟨edge, _ | ⟨_, _⟩⟩⟩
    · simp [Step.held?]
    · simp [Step.held?]
    · cases hedge : Edge.read? edge with
      | some hooked => simpa [hedge] using f.held?_holdOn i (.edge own hooked) hook
      | none => simp [hedge, Step.held?]
    · simp [Step.held?]

/-- The steps of a member are its holds, among remarks. -/
theorem held_steps (i : Fin n) : (f.steps i).filterMap Step.held? = f.held i := by
  have hremarks : ((f.box i).strangeEdges.map Step.remark : List (Step n)).filterMap Step.held? = [] := by
    simp [List.filterMap_map, Function.comp_def, Step.held?]
  rw [steps, List.filterMap_append, hremarks, List.nil_append, held]
  simp only [anchorSteps, Box.holds]
  cases (f.box i).lastAnchor? Box.isCentre with
  | some value => simp only [List.filterMap_cons, List.filterMap_nil, held?_holdOn]
  | none =>
    cases (f.box i).lastAnchor? Box.isFill with
    | some value => simp only [List.filterMap_cons, List.filterMap_nil, held?_holdOn]
    | none =>
      simp only [List.filterMap_filterMap]
      exact List.filterMap_congr fun a _ => f.held?_edgeStep? i a.1 a.2

variable {f}

theorem mem_held_iff {i : Fin n} {hold : Hold} {target : Target n} :
    (hold, target) ∈ f.held i ↔ Step.hang hold target ∈ f.steps i := by
  rw [← held_steps, List.mem_filterMap]
  simp [Step.held?_eq_some]

/-- A member hangs on a sibling when one of its anchors that count names it. -/
theorem hooks_iff {i j : Fin n} :
    f.Hooks i j ↔ ∃ h ∈ (f.box i).holds, f.target? i h.2 = some (.sibling j) := by
  simp only [Hooks, ← mem_held_iff, held, List.mem_filterMap, Option.map_eq_some_iff, Prod.mk.injEq]
  constructor
  · rintro ⟨_, h, hh, _, htarget, rfl, rfl⟩
    exact ⟨h, hh, htarget⟩
  · rintro ⟨h, hh, htarget⟩
    exact ⟨h.1, h, hh, _, htarget, rfl, rfl⟩

/-- What members hang on depends on the boxes alone. -/
theorem hooks_of_box {g : Family α n} (h : f.box = g.box) : f.Hooks = g.Hooks := by
  have htarget : f.target? = g.target? := by
    funext i hook
    simp only [target?, siblingNamed?, h]
  funext i j
  simp only [hooks_iff, h, htarget]

/-- No step says that a member hangs on itself. -/
theorem not_anchoredToItself_of_mem_steps {i : Fin n} {notice : Notice}
    (h : Step.remark notice ∈ f.steps i) (label : String) : notice ≠ .anchoredToItself label := by
  have hhold : ∀ hold hook, Step.remark (.anchoredToItself label) ≠ f.holdOn i hold hook := by
    intro hold hook
    unfold holdOn
    cases f.target? i hook <;> simp
  have hedge : ∀ own value, f.edgeStep? i own value ≠ some (.remark (.anchoredToItself label)) := by
    intro own value
    simp only [edgeStep?]
    split
    · simp
    · split
      · cases Edge.read? _
        · simp
        · simpa using (hhold _ _).symm
      · simp
  rintro rfl
  rw [steps, List.mem_append] at h
  rcases h with h | h
  · simp [Box.strangeEdges] at h
  · simp only [anchorSteps] at h
    split at h
    · exact hhold _ _ (List.mem_singleton.1 h)
    · split at h
      · exact hhold _ _ (List.mem_singleton.1 h)
      · obtain ⟨a, -, ha⟩ := List.mem_filterMap.1 h
        exact hedge _ _ ha

/-- No member hangs on itself by way of its siblings. -/
def IsAcyclic (f : Family α n) : Prop := ∀ i, ¬ Relation.TransGen f.Hooks i i

/-- No member hangs on itself when hooks go down in some numbering. -/
theorem isAcyclic_of_rank (rank : Fin n → Nat) (h : ∀ i j, f.Hooks i j → rank j < rank i) :
    f.IsAcyclic := by
  have hchain : ∀ i j, Relation.TransGen f.Hooks i j → rank j < rank i := by
    intro i j hij
    induction hij with
    | single hij => exact h i _ hij
    | tail _ hjk ih => exact (h _ _ hjk).trans ih
  exact fun i hi => Nat.lt_irrefl _ (hchain i i hi)

/-! ### Where a member comes to stand -/

variable [Scalar α]

/-- The rectangle of a target, when the siblings have given places. -/
def targetRect (f : Family α n) (r : Fin n → Rect α) : Target n → Rect α
  | .parent => f.content
  | .sibling j => r j

/-- The frame of a box that is held on targets one after the other. -/
def frameOn (f : Family α n) (b : Box α) (r : Fin n → Rect α) (held : List (Hold × Target n))
    (frame : Rect α) : Rect α :=
  held.foldl (fun frame h => h.1.apply b (f.targetRect r h.2) frame) frame

/-- Where a member comes to stand when its siblings have given places. -/
def stand (f : Family α n) (r : Fin n → Rect α) (i : Fin n) : Rect α :=
  clamp (f.frameOn (f.box i) r (f.held i) (f.box i).frame)

theorem frameOn_congr {b : Box α} {r s : Fin n → Rect α} {held : List (Hold × Target n)}
    (h : ∀ hold j, (hold, Target.sibling j) ∈ held → r j = s j) (frame : Rect α) :
    f.frameOn b r held frame = f.frameOn b s held frame := by
  refine List.foldl_ext _ _ _ fun frame a ha => ?_
  obtain ⟨hold, target⟩ := a
  cases target with
  | parent => rfl
  | sibling j => simp only [targetRect, h hold j ha]

/-- A member stands by the places of the siblings that it hangs on. -/
theorem stand_congr {r s : Fin n → Rect α} {i : Fin n} (h : ∀ j, f.Hooks i j → r j = s j) :
    f.stand r i = f.stand s i := by
  unfold stand
  rw [frameOn_congr fun hold j hj => h j ⟨hold, mem_held_iff.1 hj⟩]

/-- At most one choice of places lets every member stand where its anchors say. -/
theorem IsAcyclic.unique (h : f.IsAcyclic) {r s : Fin n → Rect α} (hr : ∀ i, r i = f.stand r i)
    (hs : ∀ i, s i = f.stand s i) : r = s := by
  have : IsTrans (Fin n) fun j i => Relation.TransGen f.Hooks i j :=
    ⟨fun _ _ _ hba hcb => hcb.trans hba⟩
  have : Std.Irrefl fun j i => Relation.TransGen f.Hooks i j := ⟨h⟩
  have hwf := Finite.wellFounded_of_trans_of_irrefl fun j i => Relation.TransGen f.Hooks i j
  funext i
  induction i using hwf.induction with
  | h i ih =>
    calc r i = f.stand r i := hr i
      _ = f.stand s i := stand_congr fun j hj => ih j (.single hj)
      _ = s i := (hs i).symm

end Family

end Otui
