import Mathlib.Data.List.FinRange
import Otui.Layout
import Otui.Proofs.HeldAnchors

/-!
# Placing goes depth first along the hooks

Placing a member places members that are not on the way, each once, and says things; what was placed
and said before stays (`grows_place`). So every member of a family is written exactly once
(`count_members_settle`).

A member is said to hang on itself only when it does: the members on the way reach the one that is
being placed along the hooks (`quiet_place`). As long as nothing of the kind has been said, a member is
written after all siblings that it hangs on, at the place where they let it stand (`sound_place`).
When all members are written, the order of writing is then one along which all hooks go back, so that
nothing hangs on itself. Hence the notice comes up exactly when the hooks go round
(`written_once_and_rings_noticed`), and when they do not, all members stand by each other's places in
the end (`settle_stand`).
-/

namespace Otui

variable {α : Type} {n : Nat}

/-! ### Boards that grow -/

namespace Board

/-- The members in the order in which they were placed. -/
def members (b : Board α n) : List (Fin n) := b.placed.map Prod.fst

/-- Nothing has been found to hang on itself. -/
def IsQuiet (b : Board α n) : Prop := ∀ label, Notice.anchoredToItself label ∉ b.notices

/-- More has been placed: members of a list that were not placed before, each once; and more may have
been said. -/
structure Grows (free : List (Fin n)) (b c : Board α n) : Prop where
  /-- What is placed now and was not placed before. -/
  placed : ∃ new, c.placed = b.placed ++ new ∧ (new.map Prod.fst).Nodup
    ∧ ∀ i ∈ new.map Prod.fst, i ∈ free ∧ i ∉ b.members
  /-- What was said stays said. -/
  notices : b.notices <+: c.notices

variable {b c d : Board α n} {free : List (Fin n)} {i : Fin n}

theorem has_iff : b.has i = true ↔ i ∈ b.members := by
  rw [has, List.lookup_isSome_iff, members, List.mem_map]
  exact exists_congr fun p => and_congr_right fun _ => beq_iff_eq.trans eq_comm

@[simp] theorem members_put (r : Rect α) : (b.put i r).members = b.members ++ [i] := by
  simp [members, put]

theorem quiet_remark {notice : Notice} :
    (b.remark notice).IsQuiet ↔ b.IsQuiet ∧ ∀ label, notice ≠ .anchoredToItself label := by
  simp only [IsQuiet, remark, List.mem_append, List.mem_singleton, not_or, forall_and, ne_comm,
    ne_eq]

namespace Grows

theorem refl (free : List (Fin n)) (b : Board α n) : b.Grows free b :=
  ⟨⟨[], by simp⟩, List.prefix_rfl⟩

theorem members_eq (h : b.Grows free c) : ∃ new, c.members = b.members ++ new ∧ new.Nodup
    ∧ ∀ i ∈ new, i ∈ free ∧ i ∉ b.members := by
  obtain ⟨new, hplaced, hnew⟩ := h.placed
  exact ⟨new.map Prod.fst, by rw [members, hplaced, List.map_append, members], hnew⟩

theorem subset (h : b.Grows free c) : b.members ⊆ c.members := by
  obtain ⟨new, hnew, -⟩ := h.members_eq
  exact hnew ▸ List.subset_append_left _ _

theorem quiet (h : b.Grows free c) (hc : c.IsQuiet) : b.IsQuiet :=
  fun label hlabel => hc label (h.notices.subset hlabel)

theorem nodup (h : b.Grows free c) (hb : b.members.Nodup) : c.members.Nodup := by
  obtain ⟨new, hnew, hnodup, hfresh⟩ := h.members_eq
  rw [hnew]
  refine List.nodup_append.2 ⟨hb, hnodup, ?_⟩
  rintro i hi j hj rfl
  exact (hfresh i hj).2 hi

theorem not_mem (h : b.Grows free c) (hfree : i ∉ free) (hi : i ∉ b.members) : i ∉ c.members := by
  obtain ⟨new, hnew, -, hfresh⟩ := h.members_eq
  rw [hnew, List.mem_append, not_or]
  exact ⟨hi, fun hin => hfree (hfresh i hin).1⟩

theorem mono {wider : List (Fin n)} (h : b.Grows free c) (hsub : free ⊆ wider) :
    b.Grows wider c := by
  obtain ⟨new, hplaced, hnodup, hfresh⟩ := h.placed
  exact ⟨⟨new, hplaced, hnodup, fun i hi => ⟨hsub (hfresh i hi).1, (hfresh i hi).2⟩⟩, h.notices⟩

theorem trans (h : b.Grows free c) (h' : c.Grows free d) : b.Grows free d := by
  obtain ⟨new, hplaced, hnodup, hfresh⟩ := h.placed
  obtain ⟨new', hplaced', hnodup', hfresh'⟩ := h'.placed
  refine ⟨⟨new ++ new', by rw [hplaced', hplaced, List.append_assoc], ?_, ?_⟩,
    h.notices.trans h'.notices⟩
  · rw [List.map_append]
    refine List.nodup_append.2 ⟨hnodup, hnodup', ?_⟩
    rintro i hi j hj rfl
    refine (hfresh' i hj).2 ?_
    rw [members, hplaced, List.map_append]
    exact List.mem_append_right _ hi
  · intro i hi
    rw [List.map_append, List.mem_append] at hi
    rcases hi with hi | hi
    · exact hfresh i hi
    · exact ⟨(hfresh' i hi).1, fun hib => (hfresh' i hi).2 (h.subset hib)⟩

theorem remark (free : List (Fin n)) (b : Board α n) (notice : Notice) :
    b.Grows free (b.remark notice) :=
  ⟨⟨[], by simp [Board.remark]⟩, List.prefix_append _ _⟩

theorem put (hfree : i ∈ free) (hi : i ∉ b.members) (r : Rect α) : b.Grows free (b.put i r) :=
  ⟨⟨[(i, r)], rfl, by simp, by simpa using ⟨hfree, hi⟩⟩, List.prefix_rfl⟩

end Grows

end Board

namespace Family

variable [Scalar α] {f : Family α n} {b c : Board α n} {free : List (Fin n)}

/-- A member that is placed keeps its place. -/
theorem rect_of_grows (h : b.Grows free c) {i : Fin n} (hi : i ∈ b.members) :
    f.rect c i = f.rect b i := by
  obtain ⟨new, hplaced, -⟩ := h.placed
  obtain ⟨r, hr⟩ := Option.isSome_iff_exists.1 (Board.has_iff.2 hi)
  rw [rect, rect, hplaced, List.lookup_append, hr, Option.some_or]

/-! ### Taking steps -/

section

variable {P : Board α n → Prop} {box : Box α} {next : Fin n → Board α n → Board α n}
  {steps : List (Step n)} {frame last : Rect α}

/-- What remarks keep, and placing the siblings of the steps keeps, taking the steps keeps. -/
theorem follow_keeps (hfollow : f.follow box next steps frame b = (last, c))
    (hremark : ∀ notice, .remark notice ∈ steps → ∀ b, P b → P (b.remark notice))
    (hnext : ∀ hold j, .hang hold (.sibling j) ∈ steps → ∀ b, P b → P (next j b)) (hb : P b) :
    P c := by
  induction steps generalizing frame b with
  | nil =>
    obtain ⟨-, rfl⟩ := Prod.mk.inj hfollow
    exact hb
  | cons s steps ih =>
    have hremark' := fun notice h => hremark notice (List.mem_cons_of_mem s h)
    have hnext' := fun hold j h => hnext hold j (List.mem_cons_of_mem s h)
    match s with
    | .remark notice => exact ih hfollow hremark' hnext' (hremark notice List.mem_cons_self b hb)
    | .hang hold .parent => exact ih hfollow hremark' hnext' hb
    | .hang hold (.sibling j) =>
      exact ih hfollow hremark' hnext' (hnext hold j List.mem_cons_self b hb)

/-- Taking steps places more, when placing a sibling does. -/
theorem grows_follow (hfollow : f.follow box next steps frame b = (last, c))
    (hnext : ∀ j (b : Board α n), b.Grows free (next j b)) : b.Grows free c :=
  follow_keeps (P := b.Grows free) hfollow (fun notice _ c h => h.trans (.remark free c notice))
    (fun _ j _ c h => h.trans (hnext j c)) (.refl free b)

/-- As long as nothing is found to hang on itself, taking steps leaves all siblings of the steps
placed, and gives the frame that their places in the end give. -/
theorem follow_quiet (hfollow : f.follow box next steps frame b = (last, c))
    (hnext : ∀ j (b : Board α n), b.Grows free (next j b))
    (hplaced : ∀ j b, (next j b).IsQuiet → j ∈ (next j b).members) (hc : c.IsQuiet) :
    (∀ hold j, .hang hold (.sibling j) ∈ steps → j ∈ c.members)
      ∧ last = f.frameOn box (f.rect c) (steps.filterMap Step.held?) frame := by
  induction steps generalizing frame b with
  | nil =>
    obtain ⟨rfl, rfl⟩ := Prod.mk.inj hfollow
    simp [frameOn]
  | cons s steps ih =>
    match s with
    | .remark notice =>
      obtain ⟨hsiblings, hlast⟩ := ih hfollow
      simpa [Step.held?, List.filterMap_cons] using ⟨hsiblings, hlast⟩
    | .hang hold .parent =>
      obtain ⟨hsiblings, hlast⟩ := ih hfollow
      simpa [Step.held?, List.filterMap_cons, frameOn, targetRect] using ⟨hsiblings, hlast⟩
    | .hang hold (.sibling j) =>
      obtain ⟨hsiblings, hlast⟩ := ih hfollow
      -- The sibling is placed by its own step, and keeps its place in the steps after it.
      have hgrows : (next j b).Grows free c := grows_follow hfollow hnext
      have hj : j ∈ (next j b).members := hplaced j b (hgrows.quiet hc)
      refine ⟨?_, ?_⟩
      · simp only [List.mem_cons, Step.hang.injEq, Target.sibling.injEq]
        rintro hold' k (⟨-, rfl⟩ | hk)
        · exact hgrows.subset hj
        · exact hsiblings hold' k hk
      · rw [hlast, ← rect_of_grows hgrows hj]
        rfl

end

/-! ### Placing a member -/

theorem place_of_mem {i : Fin n} (hi : i ∈ b.members) : f.place free i b = b := by
  rw [place, if_pos (Board.has_iff.2 hi)]

theorem place_of_free {i : Fin n} (hi : i ∉ b.members) (hfree : i ∈ free) {last : Rect α}
    (h : f.follow (f.box i) (fun j b => f.place (free.erase i) j b) (f.steps i) (f.box i).frame b
      = (last, c)) : f.place free i b = c.put i (clamp last) := by
  rw [place, if_neg (mt Board.has_iff.1 hi), if_pos hfree, h]

theorem place_of_not_free {i : Fin n} (hi : i ∉ b.members) (hfree : i ∉ free) :
    f.place free i b = b.remark (.anchoredToItself (f.box i).label) := by
  rw [place, if_neg (mt Board.has_iff.1 hi), if_neg hfree]

/-- Placing a member places members that are free, each once. -/
theorem grows_place (f : Family α n) (free : List (Fin n)) (i : Fin n) (b : Board α n)
    (hnodup : free.Nodup) : b.Grows free (f.place free i b) := by
  induction free, i, b using place.induct f with
  | case1 free i b hi =>
    rw [place_of_mem (Board.has_iff.1 hi)]
    exact .refl free b
  | case2 free i b hi hfree last c hfollow ih =>
    rw [Board.has_iff] at hi
    rw [place_of_free hi hfree hfollow]
    have hc : b.Grows (free.erase i) c := grows_follow hfollow fun j b => ih j b (hnodup.erase i)
    have hi' : i ∉ c.members := hc.not_mem hnodup.not_mem_erase hi
    exact (hc.mono List.erase_subset).trans (.put hfree hi' _)
  | case3 free i b hi hfree =>
    rw [place_of_not_free (mt Board.has_iff.2 hi) hfree]
    exact .remark free b _

/-- Placing a member that is free leaves it placed. -/
theorem mem_place {i : Fin n} (hfree : i ∈ free) (b : Board α n) :
    i ∈ (f.place free i b).members := by
  by_cases hi : i ∈ b.members
  · rwa [place_of_mem hi]
  · rw [place_of_free hi hfree rfl, Board.members_put]
    exact List.mem_append_right _ (List.mem_singleton_self i)

theorem mem_place_of_quiet {i : Fin n} (h : (f.place free i b).IsQuiet) :
    i ∈ (f.place free i b).members := by
  by_cases hfree : i ∈ free
  · exact mem_place hfree b
  · by_cases hi : i ∈ b.members
    · rwa [place_of_mem hi]
    · rw [place_of_not_free hi hfree, Board.quiet_remark] at h
      exact absurd rfl (h.2 _)

/-! ### Only members that hang on themselves are said to -/

/-- When no member hangs on itself, and the members on the way all reach the one that is being placed
along the hooks, placing says of none that it does. -/
theorem quiet_place (hf : f.IsAcyclic) (free : List (Fin n)) (i : Fin n) (b : Board α n)
    (hway : ∀ j, j ∉ free → Relation.TransGen f.Hooks j i) (hb : b.IsQuiet) :
    (f.place free i b).IsQuiet := by
  induction free, i, b using place.induct f with
  | case1 free i b hi => rwa [place_of_mem (Board.has_iff.1 hi)]
  | case2 free i b hi hfree last c hfollow ih =>
    rw [place_of_free (mt Board.has_iff.2 hi) hfree hfollow]
    -- What is on the way to a sibling is the member itself, or on the way to the member.
    have hway' : ∀ j, f.Hooks i j → ∀ k, k ∉ free.erase i → Relation.TransGen f.Hooks k j := by
      intro j hj k hk
      by_cases hki : k = i
      · exact hki ▸ .single hj
      · exact (hway k fun h => hk ((List.mem_erase_of_ne hki).2 h)).tail hj
    have hc : c.IsQuiet := follow_keeps (P := Board.IsQuiet) hfollow
      (fun notice h b hb => Board.quiet_remark.2 ⟨hb, not_anchoredToItself_of_mem_steps h⟩)
      (fun hold j hj b hb => ih j b (hway' j ⟨hold, hj⟩) hb) hb
    exact hc
  | case3 free i b hi hfree => exact absurd (hway i hfree) (hf i)

/-! ### What is placed stands by what was placed before -/

/-- Every member that is placed stands where its siblings let it stand, and those that it hangs on
were placed before. -/
def IsSound (f : Family α n) (b : Board α n) : Prop :=
  ∀ before i r after, b.placed = before ++ (i, r) :: after →
    (∀ j, f.Hooks i j → j ∈ before.map Prod.fst) ∧ r = f.stand (f.rect b) i

theorem IsSound.remark (h : f.IsSound b) (notice : Notice) : f.IsSound (b.remark notice) := h

theorem IsSound.put (h : f.IsSound b) {i : Fin n} (hi : i ∉ b.members)
    (hooks : ∀ j, f.Hooks i j → j ∈ b.members) : f.IsSound (b.put i (f.stand (f.rect b) i)) := by
  have hgrows : b.Grows [i] (b.put i (f.stand (f.rect b) i)) := .put (List.mem_singleton_self i) hi _
  have hstand : ∀ k, (∀ j, f.Hooks k j → j ∈ b.members) →
      f.stand (f.rect (b.put i (f.stand (f.rect b) i))) k = f.stand (f.rect b) k :=
    fun k hk => stand_congr fun j hj => rect_of_grows hgrows (hk j hj)
  intro before k r after hplaced
  rcases List.eq_nil_or_concat after with rfl | ⟨after, last, rfl⟩
  · obtain ⟨rfl, hlast⟩ := List.append_inj' hplaced rfl
    obtain ⟨rfl, rfl⟩ := Prod.mk.inj (List.singleton_inj.1 hlast)
    exact ⟨hooks, (hstand i hooks).symm⟩
  · rw [List.concat_eq_append, ← List.cons_append, ← List.append_assoc] at hplaced
    have hbefore := (List.append_inj' hplaced rfl).1
    obtain ⟨hhooks, hr⟩ := h before k r after hbefore
    refine ⟨hhooks, ?_⟩
    rw [hr, hstand k fun j hj => ?_]
    rw [Board.members, hbefore, List.map_append]
    exact List.mem_append_left _ (hhooks j hj)

/-- As long as nothing is found to hang on itself, placing keeps a board sound. -/
theorem sound_place (free : List (Fin n)) (i : Fin n) (b : Board α n) (hnodup : free.Nodup)
    (hb : f.IsSound b) (hquiet : (f.place free i b).IsQuiet) : f.IsSound (f.place free i b) := by
  induction free, i, b using place.induct f with
  | case1 free i b hi => rwa [place_of_mem (Board.has_iff.1 hi)]
  | case2 free i b hi hfree last c hfollow ih =>
    rw [Board.has_iff] at hi
    rw [place_of_free hi hfree hfollow] at hquiet ⊢
    have hc : c.IsQuiet := hquiet
    have hnext : ∀ j (b : Board α n), b.Grows (free.erase i) (f.place (free.erase i) j b) :=
      fun j b => grows_place f _ j b (hnodup.erase i)
    have hgrows : b.Grows (free.erase i) c := grows_follow hfollow hnext
    have hi' : i ∉ c.members := hgrows.not_mem hnodup.not_mem_erase hi
    -- Each sibling keeps the board sound if nothing has been said by then.
    have hsound : c.IsQuiet → f.IsSound c :=
      follow_keeps (P := fun b => b.IsQuiet → f.IsSound b) hfollow
        (fun notice _ b hb hq => (hb (Board.quiet_remark.1 hq).1).remark notice)
        (fun hold j _ b hb hq => ih j b (hnodup.erase i) (hb ((hnext j b).quiet hq)) hq)
        fun _ => hb
    obtain ⟨hsiblings, hlast⟩ := follow_quiet hfollow hnext (fun j b => mem_place_of_quiet) hc
    have hstand : clamp last = f.stand (f.rect c) i := by rw [hlast, held_steps, stand]
    rw [hstand]
    exact (hsound hc).put hi' fun j ⟨hold, hj⟩ => hsiblings hold j hj
  | case3 free i b hi hfree =>
    rw [place_of_not_free (mt Board.has_iff.2 hi) hfree]
    exact hb.remark _

/-! ### Placing all members -/

/-- Placing members one after the other places each that is not placed, once. -/
theorem grows_settled (f : Family α n) (is : List (Fin n)) (b : Board α n) :
    b.Grows (List.finRange n) (is.foldl (fun b i => f.place (List.finRange n) i b) b)
      ∧ is ⊆ (is.foldl (fun b i => f.place (List.finRange n) i b) b).members := by
  induction is generalizing b with
  | nil => exact ⟨.refl _ b, List.nil_subset _⟩
  | cons i is ih =>
    obtain ⟨hgrows, hall⟩ := ih (f.place (List.finRange n) i b)
    refine ⟨(grows_place f _ i b (List.nodup_finRange n)).trans hgrows, ?_⟩
    exact List.cons_subset.2 ⟨hgrows.subset (mem_place (List.mem_finRange i) b), hall⟩

theorem mem_members_settle (f : Family α n) (i : Fin n) : i ∈ f.settle.members :=
  (f.grows_settled (List.finRange n) {}).2 (List.mem_finRange i)

theorem nodup_members_settle (f : Family α n) : f.settle.members.Nodup :=
  (f.grows_settled (List.finRange n) {}).1.nodup List.nodup_nil

/-- Every member is written exactly once. -/
theorem count_members_settle (f : Family α n) (i : Fin n) : f.settle.members.count i = 1 :=
  List.count_eq_one_of_mem f.nodup_members_settle (f.mem_members_settle i)

/-- What placing a member keeps, placing all members keeps. -/
theorem settle_keeps {P : Board α n → Prop} (h : P {})
    (hplace : ∀ i b, P b → P (f.place (List.finRange n) i b)) : P f.settle :=
  List.foldlRecOn (List.finRange n) _ h fun b hb i _ => hplace i b hb

theorem quiet_settle (hf : f.IsAcyclic) : f.settle.IsQuiet :=
  settle_keeps (P := Board.IsQuiet) (fun _ => List.not_mem_nil) fun i b hb =>
    quiet_place hf _ i b (fun j hj => absurd (List.mem_finRange j) hj) hb

theorem sound_settle (hf : f.settle.IsQuiet) : f.IsSound f.settle := by
  refine settle_keeps (P := fun b => b.IsQuiet → f.IsSound b) ?_ ?_ hf
  · intro _ before i r after h
    cases before <;> cases h
  · intro i b hb hquiet
    have hgrows := grows_place f _ i b (List.nodup_finRange n)
    exact sound_place _ i b (List.nodup_finRange n) (hb (hgrows.quiet hquiet)) hquiet

/-- The place of a member on a sound board, with those before it. -/
theorem IsSound.split (h : f.IsSound b) {i : Fin n} (hi : i ∈ b.members) :
    (∃ before after, b.members = before ++ i :: after ∧ ∀ j, f.Hooks i j → j ∈ before)
      ∧ f.rect b i = f.stand (f.rect b) i := by
  obtain ⟨r, hr⟩ := Option.isSome_iff_exists.1 (Board.has_iff.2 hi)
  obtain ⟨before, after, hplaced, -⟩ := List.lookup_eq_some_iff.1 hr
  obtain ⟨hooks, hstand⟩ := h before i r after hplaced
  refine ⟨⟨before.map Prod.fst, after.map Prod.fst, ?_, hooks⟩, ?_⟩
  · rw [Board.members, hplaced, List.map_append, List.map_cons]
  · rw [← hstand, rect, hr, Option.getD_some]

/-- When all members stand on a sound board, none hangs on itself: hooks go back in the order of
writing. -/
theorem IsSound.acyclic (h : f.IsSound b) (hall : ∀ i, i ∈ b.members) (hnodup : b.members.Nodup) :
    f.IsAcyclic := by
  refine isAcyclic_of_rank (fun i => b.members.idxOf i) fun i j hij => ?_
  obtain ⟨⟨before, after, hmembers, hooks⟩, -⟩ := h.split (hall i)
  rw [hmembers] at hnodup ⊢
  have hi : i ∉ before := fun hi => (List.nodup_append.1 hnodup).2.2 i hi i List.mem_cons_self rfl
  rw [List.idxOf_append_of_mem (hooks j hij), List.idxOf_append_of_notMem hi]
  exact Nat.lt_of_lt_of_le (List.idxOf_lt_length_of_mem (hooks j hij)) (Nat.le_add_right _ _)

theorem quiet_settle_iff (f : Family α n) : f.settle.IsQuiet ↔ f.IsAcyclic :=
  ⟨fun h => (sound_settle h).acyclic f.mem_members_settle f.nodup_members_settle, quiet_settle⟩

/-- When no member hangs on itself, all members stand by each other's places in the end. -/
theorem settle_stand (hf : f.IsAcyclic) (i : Fin n) :
    f.rect f.settle i = f.stand (f.rect f.settle) i :=
  ((sound_settle (quiet_settle hf)).split (f.mem_members_settle i)).2

end Family

/-- **Rings of hooks, and only these, are noticed**: placing the children of any widget writes the
rectangle of each child exactly once, and says of some child that it hangs on itself exactly when the
relation "one of the anchors that count names the sibling" goes round. -/
theorem written_once_and_rings_noticed [Scalar α] (p : Placement α) (values : Ledger String)
    (cs : List (Widget α)) :
    let f := Family.ofChildren p (padding values) cs
    (∀ i, f.settle.members.count i = 1)
      ∧ ((∃ label, Notice.anchoredToItself label ∈ (childPlacements p values cs).notices)
        ↔ ∃ i, Relation.TransGen
            (fun i j => ∃ h ∈ (f.box i).holds, f.target? i h.2 = some (.sibling j)) i i) := by
  intro f
  have hhooks : (fun i j => ∃ h ∈ (f.box i).holds, f.target? i h.2 = some (.sibling j)) = f.Hooks := by
    funext i j
    exact propext Family.hooks_iff.symm
  refine ⟨f.count_members_settle, ?_⟩
  rw [hhooks]
  simpa [Board.IsQuiet, Family.IsAcyclic, childPlacements] using not_congr f.quiet_settle_iff

end Otui
