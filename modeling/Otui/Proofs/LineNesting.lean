import Otui.Document.Outline
import Otui.Proofs.AlikeForests
import Mathlib.Data.List.TakeWhile

/-!
# Which line belongs to which opening

An opening reaches a line when it stands before the line, less deep, and every line between the two
is deeper than the opening. A line belongs to the last opening that reaches it: `parent?`. The lines
of a document form a forest in which each line hangs below the opening that it belongs to; `nest`
makes it the way an outline is made, and `nest_eq_linesOf` says that the lines right below an opening
are the lines that belong to it.
-/

namespace Otui

namespace Tree

variable {β : Type}

/-! ### Forests told by parents -/

/-- A forest below `above` in which the parent of each label is the label over it. -/
inductive Hangs (parent : β → Option β) : Option β → List (Tree β) → Prop where
  /-- No trees. -/
  | nil {above : Option β} : Hangs parent above []
  /-- A tree, all below it, and the other trees. -/
  | cons {above : Option β} {b : β} {bs ts : List (Tree β)} :
    parent b = above → Hangs parent (some b) bs → Hangs parent above ts →
    Hangs parent above (.node b bs :: ts)

namespace Hangs

variable {parent : β → Option β} {above : Option β} {ts : List (Tree β)}

/-- The parent of a label is the one above the forest or stands in the forest. -/
theorem parent_eq_or (h : Hangs parent above ts) :
    ∀ b ∈ forestLabels ts, parent b = above ∨ ∃ c ∈ forestLabels ts, parent b = some c := by
  induction h with
  | nil => simp
  | @cons above b bs ts hb _ _ ihb iht =>
    simp only [forestLabels_cons, List.mem_cons, List.mem_append]
    rintro c (rfl | hc | hc)
    · exact .inl hb
    · rcases ihb c hc with h | ⟨d, hd, h⟩
      · exact .inr ⟨b, .inl rfl, h⟩
      · exact .inr ⟨d, .inr (.inl hd), h⟩
    · exact (iht c hc).imp_right fun ⟨d, hd, h⟩ => ⟨d, .inr (.inr hd), h⟩

variable [DecidableEq β]

/-- No label has a parent that is neither above the forest nor in it. -/
theorem filter_eq_nil (h : Hangs parent above ts) {other : Option β} (hne : other ≠ above)
    (ho : ∀ c ∈ other, c ∉ forestLabels ts) :
    (forestLabels ts).filter (fun b => parent b = other) = [] := by
  rw [List.filter_eq_nil_iff]
  intro b hb
  rw [decide_eq_true_eq]
  intro hp
  rcases h.parent_eq_or b hb with he | ⟨c, hc, he⟩
  · exact hne (hp.symm.trans he)
  · exact ho c (hp.symm.trans he) hc

/-- The trees of a forest are the labels with the parent above it, in order. -/
theorem roots_eq (h : Hangs parent above ts) (hn : (forestLabels ts).Nodup)
    (ha : ∀ c ∈ above, c ∉ forestLabels ts) :
    ts.map label = (forestLabels ts).filter fun b => parent b = above := by
  induction h with
  | nil => rfl
  | @cons above b bs ts hb hbs hts ihb iht =>
    simp only [forestLabels_cons, List.mem_cons, List.mem_append, not_or, List.nodup_cons] at hn ha ⊢
    obtain ⟨⟨hnb, -⟩, hn⟩ := hn
    have hbelow : (forestLabels bs).filter (fun c => parent c = above) = [] :=
      hbs.filter_eq_nil (fun he => (ha b he).1 rfl) fun c hc => (ha c hc).2.1
    rw [List.map_cons, label_node, List.filter_cons_of_pos (by simpa using hb), List.filter_append,
      hbelow, List.nil_append, iht (List.nodup_append.1 hn).2.1 fun c hc => (ha c hc).2.2]

/-- The trees right below a label are the labels with this parent, in order. -/
theorem children_eq (h : Hangs parent above ts) (hn : (forestLabels ts).Nodup)
    (ha : ∀ c ∈ above, c ∉ forestLabels ts) {t : Tree β} (ht : t ∈ forestNodes ts) :
    t.children.map label = (forestLabels ts).filter fun b => parent b = some t.label := by
  induction h with
  | nil => cases ht
  | @cons above b bs ts hb hbs hts ihb iht =>
    simp only [forestLabels_cons, List.mem_cons, List.mem_append, not_or, List.nodup_cons,
      List.nodup_append] at hn ha ⊢
    obtain ⟨⟨hnb, hnt⟩, hnbs, hnts, hdisjoint⟩ := hn
    have htop : ∀ c, c = b ∨ c ∈ forestLabels bs ∨ c ∈ forestLabels ts → parent b ≠ some c := by
      intro c hc he
      have hout := ha c (hb.symm.trans he)
      rcases hc with hc | hc | hc
      · exact hout.1 hc
      · exact hout.2.1 hc
      · exact hout.2.2 hc
    have hrest : ∀ c, c = b ∨ c ∈ forestLabels bs → c ∉ forestLabels ts →
        (forestLabels ts).filter (fun d => parent d = some c) = [] := by
      intro c hc hcts
      refine hts.filter_eq_nil (fun he => htop c (hc.imp_right .inl) (hb.trans he.symm)) ?_
      rintro d hd
      cases hd
      exact hcts
    rw [mem_forestNodes_cons] at ht
    rcases ht with rfl | ht | ht
    · rw [label_node, children_node, List.filter_cons_of_neg (by simpa using htop b (.inl rfl)),
        List.filter_append, hrest b (.inl rfl) hnt, List.append_nil]
      exact hbs.roots_eq hnbs fun c hc => by cases hc; exact hnb
    · have hmem := label_mem_forestLabels ht
      have hcts : t.label ∉ forestLabels ts := fun hc => hdisjoint _ hmem _ hc rfl
      rw [List.filter_cons_of_neg (by simpa using htop _ (.inr (.inl hmem))), List.filter_append,
        hrest _ (.inr hmem) hcts, List.append_nil]
      exact ihb hnbs (fun c hc => by cases hc; exact hnb) ht
    · have hmem := label_mem_forestLabels ht
      have hbelow : (forestLabels bs).filter (fun d => parent d = some t.label) = [] := by
        refine hbs.filter_eq_nil (fun he => ?_) fun c hc hcb => ?_
        · cases he
          exact hnt hmem
        · cases hc
          exact hdisjoint _ hcb _ hmem rfl
      rw [List.filter_cons_of_neg (by simpa using htop _ (.inr (.inr hmem))), List.filter_append,
        hbelow, List.nil_append]
      exact iht hnts (fun c hc => (ha c hc).2.2) ht

end Hangs

end Tree

namespace Document

/-! ### Openings and their lines -/

/-- Whether a line opens a widget. -/
def Line.isWidget (l : Line) : Bool :=
  match l.content with
  | .opening _ none => true
  | _ => false

/-- Whether a line opens a template. -/
def Line.isTemplate (l : Line) : Bool :=
  match l.content with
  | .opening _ (some _) => true
  | _ => false

/-- Whether a line is an opening. -/
def Line.isOpening (l : Line) : Bool := l.isWidget || l.isTemplate

theorem Line.isTemplate_eq_false {l : Line} (h : l.isWidget = true) : l.isTemplate = false := by
  unfold isWidget at h
  split at h
  · next hc => simp [isTemplate, hc]
  · cases h

/-- An opening that stands before a line, less deep, and is less deep than every line between. -/
structure Reaches (ls : List Line) (o l : Line) : Prop where
  /-- The one line is an opening. -/
  opening : o.isOpening = true
  /-- It stands before the other. -/
  before : o.number < l.number
  /-- It is less deep than the other. -/
  above : o.level < l.level
  /-- It is less deep than every line between. -/
  between : ∀ k ∈ ls, o.number < k.number → k.number < l.number → o.level < k.level

instance (ls : List Line) (o l : Line) : Decidable (Reaches ls o l) :=
  decidable_of_iff
    (o.isOpening = true ∧ o.number < l.number ∧ o.level < l.level
      ∧ ∀ k ∈ ls, o.number < k.number → k.number < l.number → o.level < k.level)
    ⟨fun h => ⟨h.1, h.2.1, h.2.2.1, h.2.2.2⟩, fun h => ⟨h.1, h.2, h.3, h.4⟩⟩

/-- The last of some lines that reaches a line. -/
def lastReaching (ls os : List Line) (l : Line) : Option Line :=
  (os.filter fun o => Reaches ls o l).getLast?

/-- The opening that a line belongs to: the last one that reaches it. -/
def parent? (ls : List Line) (l : Line) : Option Line := lastReaching ls ls l

/-- The lines that belong to an opening, or to none. -/
def linesOf (ls : List Line) (above : Option Line) : List Line :=
  ls.filter fun l => parent? ls l = above

/-- Lines in the order of their numbers. -/
def AreNumbered (ls : List Line) : Prop := ls.Pairwise fun k l => k.number < l.number

theorem AreNumbered.nodup {ls : List Line} (h : AreNumbered ls) : ls.Nodup :=
  List.Pairwise.imp (fun hlt he => by rw [he] at hlt; exact Nat.lt_irrefl _ hlt) h

/-! ### The forest of lines -/

/-- The lines as a forest: the lines of its body stand below an opening. -/
def nest : List Line → List (Tree Line)
  | [] => []
  | l :: rest =>
    if l.isOpening then
      .node l (nest (rest.takeWhile (Line.isBelow l.level)))
        :: nest (rest.dropWhile (Line.isBelow l.level))
    else .node l [] :: nest rest
  termination_by ls => ls.length
  decreasing_by
    all_goals simp only [List.length_cons]
    · exact Nat.lt_succ_of_le (List.takeWhile_sublist _).length_le
    · exact Nat.lt_succ_of_le (List.dropWhile_sublist _).length_le
    · exact Nat.lt_succ_self _

/-- Depth first, the forest has the lines in their order. -/
theorem forestLabels_nest (ls : List Line) : Tree.forestLabels (nest ls) = ls := by
  fun_induction nest ls with
  | case1 => rfl
  | case2 l rest hl ih1 ih2 =>
    rw [Tree.forestLabels_cons, ih1, ih2, List.takeWhile_append_dropWhile]
  | case3 l rest hl ih => rw [Tree.forestLabels_cons, ih, Tree.forestLabels_nil, List.nil_append]

/-! ### Scopes -/

/-- A run of lines with one opening, or none, that all of them belong to unless they belong to one
of the run, and of which nothing after the run belongs to any. -/
structure IsScope (ls : List Line) (above : Option Line) (run : List Line) : Prop where
  /-- The lines are in order. -/
  numbered : AreNumbered ls
  /-- The run stands among the lines, and what is outside of it leaves it alone. -/
  split : ∃ before after, ls = before ++ run ++ after
    ∧ (∀ l ∈ run, lastReaching ls before l = above)
    ∧ ∀ l ∈ after, ∀ o ∈ run, ¬ Reaches ls o l

theorem lastReaching_append (ls os ps : List Line) (l : Line) :
    lastReaching ls (os ++ ps) l = (lastReaching ls ps l).or (lastReaching ls os l) := by
  rw [lastReaching, List.filter_append, List.getLast?_append]
  rfl

theorem lastReaching_eq_none {ls os : List Line} {l : Line} (h : ∀ o ∈ os, ¬ Reaches ls o l) :
    lastReaching ls os l = none := by
  rw [lastReaching, List.getLast?_eq_none_iff, List.filter_eq_nil_iff]
  simpa using h

/-- A line that is not before another does not reach it. -/
theorem not_reaches_of_le {ls : List Line} {o l : Line} (h : l.number ≤ o.number) :
    ¬ Reaches ls o l :=
  fun hr => Nat.not_lt.2 h hr.before

namespace IsScope

variable {ls run : List Line} {above : Option Line} {l : Line}

/-- The first line of a run belongs to the opening above the run. -/
theorem parent?_head (h : IsScope ls above (l :: run)) : parent? ls l = above := by
  obtain ⟨before, after, hls, habove, -⟩ := h.split
  have hnumbered := h.numbered
  rw [hls, List.append_assoc] at hnumbered
  obtain ⟨-, hlater, -⟩ := List.pairwise_append.1 hnumbered
  have hnone : lastReaching ls (l :: run ++ after) l = none := by
    refine lastReaching_eq_none fun o ho => not_reaches_of_le ?_
    rcases List.mem_cons.1 (List.cons_append ▸ ho) with rfl | ho
    · exact Nat.le_refl _
    · exact Nat.le_of_lt ((List.pairwise_cons.1 hlater).1 o ho)
  have hsplit : parent? ls l = lastReaching ls (before ++ (l :: run ++ after)) l := by
    rw [parent?, ← List.append_assoc, ← hls]
  rw [hsplit, lastReaching_append, hnone, Option.none_or]
  exact habove l List.mem_cons_self

/-- What follows a line that is no opening. -/
theorem tail (h : IsScope ls above (l :: run)) (hl : l.isOpening = false) : IsScope ls above run := by
  obtain ⟨before, after, hls, habove, hafter⟩ := h.split
  refine ⟨h.numbered, before ++ [l], after, by simpa using hls, fun k hk => ?_,
    fun k hk o ho => hafter k hk o (List.mem_cons_of_mem _ ho)⟩
  have hnone : lastReaching ls [l] k = none := by
    refine lastReaching_eq_none fun o ho hr => ?_
    rw [List.mem_singleton.1 ho] at hr
    rw [hr.opening] at hl
    cases hl
  rw [lastReaching_append, hnone, Option.none_or]
  exact habove k (List.mem_cons_of_mem _ hk)

/-- The body of an opening, and what follows the body. -/
theorem body_rest {body rest : List Line} (h : IsScope ls above (l :: (body ++ rest)))
    (hl : l.isOpening = true) (hbody : ∀ k ∈ body, l.level < k.level)
    (hrest : ∀ k ∈ rest.head?, k.level ≤ l.level) :
    IsScope ls (some l) body ∧ IsScope ls above rest := by
  obtain ⟨before, after, hls, habove, hafter⟩ := h.split
  have hlines : ls = before ++ l :: (body ++ (rest ++ after)) := by simpa using hls
  have hnumbered := h.numbered
  rw [hlines, AreNumbered, List.pairwise_append] at hnumbered
  obtain ⟨-, hlater, hearlier⟩ := hnumbered
  obtain ⟨hfirst, hlater⟩ := List.pairwise_cons.1 hlater
  obtain ⟨-, hrestnumbered, hbodyrest⟩ := List.pairwise_append.1 hlater
  -- the first line after the body stands between the opening with its body and all that follows
  have hcut : ∀ o ∈ l :: body, ∀ k ∈ rest, ¬ Reaches ls o k := by
    intro o ho k hk hr
    cases rest with
    | nil => cases hk
    | cons r rest =>
      have hro : r.level ≤ o.level := by
        refine (hrest r rfl).trans ?_
        rcases List.mem_cons.1 ho with rfl | ho
        · exact Nat.le_refl _
        · exact Nat.le_of_lt (hbody o ho)
      have hor : o.number < r.number := by
        rcases List.mem_cons.1 ho with rfl | ho
        · exact hfirst r (by simp)
        · exact hbodyrest o ho r (by simp)
      rcases List.mem_cons.1 hk with rfl | hk
      · exact Nat.not_lt.2 hro hr.above
      · have hrk : r.number < k.number :=
          (List.pairwise_cons.1 hrestnumbered).1 k (List.mem_append_left _ hk)
        exact Nat.not_lt.2 hro (hr.between r (by rw [hlines]; simp) hor hrk)
  refine ⟨⟨h.numbered, before ++ [l], rest ++ after, by simpa using hls, fun k hk => ?_,
    fun k hk o ho => ?_⟩, h.numbered, before ++ l :: body, after, by simpa using hls,
    fun k hk => ?_, fun k hk o ho => ?_⟩
  · have hreach : Reaches ls l k := by
      refine ⟨hl, hfirst k (by simp [hk]), hbody k hk, fun m hm hlm hmk => ?_⟩
      rw [hlines, List.mem_append, List.mem_cons, List.mem_append] at hm
      rcases hm with hm | rfl | hm | hm
      · exact absurd (hearlier m hm l List.mem_cons_self) (Nat.lt_asymm hlm)
      · exact absurd hlm (Nat.lt_irrefl _)
      · exact hbody m hm
      · exact absurd (hbodyrest k hk m hm) (Nat.lt_asymm hmk)
    rw [lastReaching_append, lastReaching, List.filter_cons_of_pos (by simpa using hreach)]
    rfl
  · rcases List.mem_append.1 hk with hk | hk
    · exact hcut o (List.mem_cons_of_mem _ ho) k hk
    · exact hafter k hk o (by simp [ho])
  · rw [lastReaching_append, lastReaching_eq_none fun o ho => hcut o ho k hk, Option.none_or]
    exact habove k (by simp [hk])
  · exact hafter k hk o (by simp [ho])

end IsScope

/-- In the forest of a run of lines each line hangs below the opening that it belongs to. -/
theorem hangs_nest {ls run : List Line} {above : Option Line} (h : IsScope ls above run) :
    Tree.Hangs (parent? ls) above (nest run) := by
  fun_induction nest run generalizing above with
  | case1 => exact .nil
  | case2 l rest hl ih1 ih2 =>
    have hsplit := h
    rw [← List.takeWhile_append_dropWhile (p := Line.isBelow l.level) (l := rest)] at hsplit
    obtain ⟨hbody, hrest⟩ := hsplit.body_rest hl
      (fun k hk => by simpa [Line.isBelow] using List.mem_takeWhile_imp hk) fun k hk => by
        have hnot := List.head?_dropWhile_not (Line.isBelow l.level) rest
        rw [Option.mem_def.1 hk] at hnot
        simpa [Line.isBelow] using hnot
    exact .cons h.parent?_head (ih1 hbody) (ih2 hrest)
  | case3 l rest hl ih =>
    exact .cons h.parent?_head .nil (ih (h.tail (by simpa using hl)))

theorem isScope_self {ls : List Line} (h : AreNumbered ls) : IsScope ls none ls :=
  ⟨h, [], [], by simp, fun _ _ => rfl, by simp⟩

/-- **Nesting of lines**: the trees of the forest are the lines that belong to no opening, and right
below each line stand the lines that belong to it. -/
theorem nest_eq_linesOf {ls : List Line} (h : AreNumbered ls) :
    (nest ls).map Tree.label = linesOf ls none
      ∧ ∀ t ∈ Tree.forestNodes (nest ls), t.children.map Tree.label = linesOf ls (some t.label) := by
  have hhangs := hangs_nest (isScope_self h)
  have hnodup : (Tree.forestLabels (nest ls)).Nodup := by
    rw [forestLabels_nest]
    exact h.nodup
  have hroots := hhangs.roots_eq hnodup (by simp)
  have hchildren := fun t ht => hhangs.children_eq hnodup (by simp) (t := t) ht
  rw [forestLabels_nest] at hroots hchildren
  exact ⟨hroots, hchildren⟩

end Document

end Otui
