import Otui.Proofs.Recording
import Otui.Proofs.WrittenLines

/-!
# Which property lines are written

A block leaves out a line whose key it has already. `keptFrom` are the lines that are written of
those that were read. Between the lines that count when they are read and those that are kept when
they are written there is one relation: an earlier key is `Clear` of a later one when neither
rule lets the later be dropped for the earlier. The keys of lines that were read and kept are clear
of one another (`pairwise_clear_kept`), and lines with such keys all count and are all kept
(`unblocked_of_clear`, `keptFrom_of_clear`).
-/

namespace Otui

open Otui.Text Otui.Document

/-! ### Keys -/

namespace Key

theorem startsWith_append (front s : String) : startsWith front (front ++ s) = true := by
  simp [startsWith]

theorem isMarked_iff {key : String} : isMarked key = true ↔ ∃ s, key = mark ++ s := by
  constructor
  · intro h
    obtain ⟨cs, hcs⟩ := List.isPrefixOf_iff_prefix.1 h
    exact ⟨String.ofList cs, String.toList_inj.1 (by simp [hcs])⟩
  · rintro ⟨s, rfl⟩
    exact startsWith_append mark s

theorem stored_mark (s : String) : stored (mark ++ s) = s := by
  rw [stored, if_pos (isMarked_iff.2 ⟨s, rfl⟩), dropFront]
  exact String.toList_inj.1 (by simp [mark])

theorem stored_of_not_isMarked {key : String} (h : isMarked key = false) : stored key = key := by
  simp [stored, h]

/-- A key is the stored key, or the stored key with the mark. -/
theorem eq_stored_or (key : String) : key = stored key ∨ key = mark ++ stored key := by
  cases h : isMarked key with
  | false => exact .inl (stored_of_not_isMarked h).symm
  | true =>
    obtain ⟨s, rfl⟩ := isMarked_iff.1 h
    exact .inr (by rw [stored_mark])

theorem isAnchor_anchorSpelling (key : String) : isAnchor (anchorSpelling key) = true :=
  startsWith_append _ _

theorem spelling_of_isAnchor {key : String} (h : isAnchor key = true) :
    spelling key = anchorSpelling key := by
  simp [spelling, h]

theorem spelling_of_not_isAnchor {key : String} (h : isAnchor key = false) :
    spelling key = key := by
  simp [spelling, h]

@[simp] theorem isAnchor_spelling (key : String) : isAnchor (spelling key) = isAnchor key := by
  cases h : isAnchor key with
  | false => rw [spelling_of_not_isAnchor h, h]
  | true => rw [spelling_of_isAnchor h, isAnchor_anchorSpelling]

/-- Only anchors have other spellings. -/
theorem eq_of_spelling_eq {key s : String} (hs : isAnchor s = false) (h : spelling key = s) :
    key = s := by
  rw [← h, isAnchor_spelling] at hs
  rw [← h, spelling_of_not_isAnchor hs]

/-- The spelling in use is spelled as it is in use. -/
theorem anchorSpelling_anchorSpelling (key : String) :
    anchorSpelling (anchorSpelling key) = anchorSpelling key := by
  have hedge : ∀ s, anchorEdge (anchorFront ++ s) = s := fun s => by
    rw [anchorEdge, dropFront]
    exact String.toList_inj.1 (by rw [String.toList_ofList, String.toList_append]; rfl)
  have hfix : ∀ p ∈ spellings, spellings.lookup (lower p.2) = some p.2 := by decide
  simp only [anchorSpelling, hedge]
  cases h : spellings.lookup (lower (anchorEdge key)) with
  | none => rw [Option.getD_none, h, Option.getD_none]
  | some s =>
    have hs : ∃ p ∈ spellings, p.2 = s := by
      obtain ⟨l₁, l₂, he, -⟩ := List.lookup_eq_some_iff.1 h
      exact ⟨(lower (anchorEdge key), s), by rw [he]; simp, rfl⟩
    obtain ⟨p, hp, rfl⟩ := hs
    rw [Option.getD_some, hfix p hp, Option.getD_some]

/-- The parts of compound keys are no anchors, and stand for themselves alone. -/
theorem parts_plain {key first second : String} (h : parts? key = some (first, second)) {k : String}
    (hk : k = first ∨ k = second) :
    isAnchor k = false ∧ parts? k = none ∧ k ≠ "id" ∧ k ≠ "size" ∧ k ≠ "text-offset" := by
  rcases parts?_eq_some h with ⟨-, rfl, rfl⟩ | ⟨-, rfl, rfl⟩ <;> rcases hk with rfl | rfl <;> decide

theorem compound_plain {key first second : String} (h : parts? key = some (first, second)) :
    isAnchor key = false ∧ isMarked key = false ∧ key ≠ "id" := by
  rcases parts?_eq_some h with ⟨rfl, -, -⟩ | ⟨rfl, -, -⟩ <;> decide

theorem stored_compound {key first second : String} (h : parts? key = some (first, second)) :
    stored key = key :=
  stored_of_not_isMarked (compound_plain h).2.1

theorem taken_ne_empty {key : String} (h : stored key ≠ "") : ∀ k ∈ taken key, k ≠ "" := by
  intro k hk
  cases hp : parts? key with
  | none =>
    rw [taken_of_none hp, List.mem_singleton] at hk
    rwa [hk]
  | some ab =>
    rw [taken_of_some hp] at hk
    rcases parts?_eq_some hp with ⟨-, h1, h2⟩ | ⟨-, h1, h2⟩ <;>
      simp only [h1, h2, List.mem_cons, List.not_mem_nil, or_false] at hk <;>
      rcases hk with rfl | rfl <;> decide

end Key

/-! ### Two rules -/

namespace Document.Block

theorem spelling_mem_covered (key : String) : Key.spelling key ∈ covered key := by
  unfold covered
  split <;> simp

theorem covered_of_none {key : String} (h : Key.parts? key = none) :
    covered key = [Key.spelling key] := by
  rw [covered, h]

theorem covered_of_some {key first second : String} (h : Key.parts? key = some (first, second)) :
    covered key = [key, first, second] := by
  rw [covered, h, Key.spelling_of_not_isAnchor (Key.compound_plain h).1]

end Document.Block

namespace Key

/-- The later key is not left out for the earlier one when both are written. -/
def Unsaid (earlier later : String) : Prop :=
  spelling (stored later) ∉ Block.covered (stored earlier)

instance (earlier later : String) : Decidable (Unsaid earlier later) :=
  inferInstanceAs (Decidable (_ ∉ _))

/-- The later key is not dropped for the earlier one, neither in writing nor in reading. -/
structure Clear (earlier later : String) : Prop where
  /-- Not in writing. -/
  unsaid : Unsaid earlier later
  /-- Not in reading. -/
  taken : ∀ k ∈ taken later, k ∉ taken earlier

/-- A key that is kept in writing and counts in reading is clear of the earlier one, whatever the
earlier line stored. -/
theorem clear_of_passes {l m : OwnLine} (hp : OwnLine.Passes l m) (hu : Unsaid l.key m.key) :
    Clear l.key m.key := by
  refine ⟨hu, fun k hk hkl => ?_⟩
  cases hl : parts? l.key with
  | none =>
    rw [taken_of_none hl] at hkl
    have := hp k hk
    rw [OwnLine.pairs_of_none hl] at this
    exact this (by simpa using hkl)
  | some ab =>
    obtain ⟨first, second⟩ := ab
    rw [taken_of_some hl] at hkl
    have hkl' : k = first ∨ k = second := by simpa using hkl
    rw [Unsaid, stored_compound hl, Block.covered_of_some hl] at hu
    cases hm : parts? m.key with
    | none =>
      rw [taken_of_none hm, List.mem_singleton] at hk
      subst hk
      rw [spelling_of_not_isAnchor (parts_plain hl hkl').1] at hu
      exact hu (List.mem_cons_of_mem _ hkl)
    | some cd =>
      obtain ⟨third, fourth⟩ := cd
      rw [stored_compound hm, spelling_of_not_isAnchor (compound_plain hm).1] at hu
      rw [taken_of_some hm] at hk
      rcases parts?_eq_some hl with ⟨h1, rfl, rfl⟩ | ⟨h1, rfl, rfl⟩ <;>
        rcases parts?_eq_some hm with ⟨h2, rfl, rfl⟩ | ⟨h2, rfl, rfl⟩
      · exact hu (by simp [h1, h2])
      · revert hk; rcases hkl' with rfl | rfl <;> decide
      · revert hk; rcases hkl' with rfl | rfl <;> decide
      · exact hu (by simp [h1, h2])

/-- What is stored under one key, marked or not, comes from a line for that key alone. -/
theorem parts?_of_stored {key : String} (h : parts? (stored key) = none) : parts? key = none := by
  cases hk : parts? key with
  | none => rfl
  | some ab =>
    obtain ⟨first, second⟩ := ab
    rw [stored_compound hk, hk] at h
    cases h

/-- A line that counts is not left out for an earlier one that is for one property alone, unless
they are one anchor in two spellings. -/
theorem unsaid_of_plain {l m : OwnLine} (hp : OwnLine.Passes l m) (hl : parts? (stored l.key) = none)
    (hanchor : isAnchor (stored l.key) = true → isAnchor (stored m.key) = true →
      anchorSpelling (stored l.key) = anchorSpelling (stored m.key) →
      stored l.key = stored m.key) :
    Unsaid l.key m.key := by
  intro hmem
  rw [Block.covered_of_none hl, List.mem_singleton] at hmem
  have hsame : stored m.key = stored l.key := by
    cases ha : isAnchor (stored m.key) with
    | false =>
      rw [spelling_of_not_isAnchor ha] at hmem
      exact (eq_of_spelling_eq ha hmem.symm).symm
    | true =>
      have hal : isAnchor (stored l.key) = true := by
        rw [← isAnchor_spelling, ← hmem, isAnchor_spelling, ha]
      rw [spelling_of_isAnchor ha, spelling_of_isAnchor hal] at hmem
      exact (hanchor hal ha hmem.symm).symm
  refine hp (stored m.key) ?_ ?_
  · rw [taken_of_none (parts?_of_stored (by rw [hsame]; exact hl))]
    simp
  · rw [OwnLine.pairs_of_none (parts?_of_stored hl), hsame]
    simp

/-- A line that counts is kept, unless it or the earlier line is one of a few odd ones: a compound
line with fewer than two parts, a marked compound key, one anchor in two spellings. -/
theorem unsaid_of_passes {l m : OwnLine} (hp : OwnLine.Passes l m)
    (hparts : (parts? l.key).isSome = true → 2 ≤ (words l.value).length)
    (hl : l.key ≠ "!size" ∧ l.key ≠ "!text-offset") (hm : m.key ≠ "!size" ∧ m.key ≠ "!text-offset")
    (hanchor : isAnchor (stored l.key) = true → isAnchor (stored m.key) = true →
      anchorSpelling (stored l.key) = anchorSpelling (stored m.key) →
      stored l.key = stored m.key) :
    Unsaid l.key m.key := by
  cases hc : parts? (stored l.key) with
  | none => exact unsaid_of_plain hp hc hanchor
  | some ab =>
    obtain ⟨first, second⟩ := ab
    intro hmem
    have hkey : l.key = stored l.key := by
      rcases eq_stored_or l.key with h | h
      · exact h
      · rcases parts?_eq_some hc with ⟨hs, -, -⟩ | ⟨hs, -, -⟩
        · exact absurd (by rw [h, hs]; rfl) hl.1
        · exact absurd (by rw [h, hs]; rfl) hl.2
    have hlc : parts? l.key = some (first, second) := by rw [hkey]; exact hc
    have hstores := OwnLine.keys_pairs_of_words hparts
    rw [taken_of_some hlc] at hstores
    rw [Block.covered_of_some hc, List.mem_cons] at hmem
    rcases hmem with hmem | hmem
    · have hms := eq_of_spelling_eq (compound_plain hc).1 hmem
      have hmk : m.key = l.key := by
        rcases eq_stored_or m.key with h | h
        · rw [h, hms, ← hkey]
        · rcases parts?_eq_some hc with ⟨hs, -, -⟩ | ⟨hs, -, -⟩
          · exact absurd (by rw [h, hms, hs]; rfl) hm.1
          · exact absurd (by rw [h, hms, hs]; rfl) hm.2
      refine hp first ?_ (by rw [hstores]; simp)
      rw [hmk, taken_of_some hlc]
      simp
    · have hms : spelling (stored m.key) = first ∨ spelling (stored m.key) = second := by
        simpa using hmem
      have hpp := parts_plain hc hms
      have hstored := eq_of_spelling_eq hpp.1 rfl
      refine hp (stored m.key) ?_ ?_
      · rw [taken_of_none (parts?_of_stored (by rw [hstored]; exact hpp.2.1))]
        simp
      · rw [hstores, hstored]
        exact hmem

end Key

/-! ### The lines that are written -/

namespace OwnLine

/-- The line that is written for a line that was read. -/
def said (l : OwnLine) : Said := .property l.key (Block.writtenValue l.key l.raw)

/-- The keys that a block has with a line. -/
def covers (l : OwnLine) : List String := Block.covered (Key.stored l.key)

/-- The lines that a block takes when it has some keys already. -/
def keptFrom (keys : List String) : List OwnLine → List OwnLine
  | [] => []
  | l :: ls =>
    if Key.spelling (Key.stored l.key) ∈ keys then keptFrom keys ls
    else l :: keptFrom (keys ++ l.covers) ls

theorem keptFrom_sublist (keys : List String) (ls : List OwnLine) :
    (keptFrom keys ls).Sublist ls := by
  induction ls generalizing keys with
  | nil => exact List.Sublist.slnil
  | cons l ls ih =>
    rw [keptFrom]
    split
    · exact (ih keys).cons l
    · exact (ih _).cons_cons l

/-- No line that is kept was said before, by the block or by another line that is kept. -/
theorem keptFrom_unsaid (keys : List String) (ls : List OwnLine) :
    (keptFrom keys ls).Pairwise (fun l m => Key.Unsaid l.key m.key)
      ∧ ∀ l ∈ keptFrom keys ls, Key.spelling (Key.stored l.key) ∉ keys := by
  induction ls generalizing keys with
  | nil => exact ⟨.nil, by simp [keptFrom]⟩
  | cons l ls ih =>
    rw [keptFrom]
    split
    · exact ih keys
    · next hl =>
      obtain ⟨hp, hk⟩ := ih (keys ++ l.covers)
      simp only [List.mem_append, not_or] at hk
      refine ⟨List.pairwise_cons.2 ⟨fun m hm => (hk m hm).2, hp⟩, ?_⟩
      intro m hm
      rcases List.mem_cons.1 hm with rfl | hm
      · exact hl
      · exact (hk m hm).1

/-- Of the lines with a property all are kept, when no earlier line says them. -/
theorem filter_keptFrom (p : OwnLine → Bool) {keys : List String} {ls : List OwnLine}
    (hk : ∀ l ∈ ls, p l = true → Key.spelling (Key.stored l.key) ∉ keys)
    (h : ls.Pairwise fun l m => p m = true → Key.Unsaid l.key m.key) :
    (keptFrom keys ls).filter p = ls.filter p := by
  induction ls generalizing keys with
  | nil => rfl
  | cons l ls ih =>
    obtain ⟨hl, hls⟩ := List.pairwise_cons.1 h
    rw [keptFrom]
    split
    · next hmem =>
      have hpl : ¬ p l = true := fun hpl => hk l (by simp) hpl hmem
      rw [ih (fun m hm => hk m (by simp [hm])) hls, List.filter_cons_of_neg hpl]
    · have hrest : (keptFrom (keys ++ l.covers) ls).filter p = ls.filter p := by
        refine ih (fun m hm hpm => ?_) hls
        rw [List.mem_append, not_or]
        exact ⟨hk m (by simp [hm]) hpm, hl m hm hpm⟩
      rw [List.filter_cons, List.filter_cons, hrest]

theorem keptFrom_eq_self {ls : List OwnLine}
    (h : ls.Pairwise fun l m => Key.Unsaid l.key m.key) : keptFrom [] ls = ls := by
  have hall : (keptFrom [] ls).filter (fun _ => true) = ls.filter fun _ => true :=
    filter_keptFrom _ (by simp) (h.imp fun hu _ => hu)
  simpa using hall

/-- What a line says is said in the end, by the block, by the line or by another one. -/
theorem spelling_mem_keptFrom {keys : List String} {ls : List OwnLine} {l : OwnLine} (h : l ∈ ls) :
    Key.spelling (Key.stored l.key) ∈ keys ++ (keptFrom keys ls).flatMap covers := by
  induction ls generalizing keys with
  | nil => cases h
  | cons m ls ih =>
    rw [keptFrom]
    rcases List.mem_cons.1 h with rfl | h
    · split
      · next hmem => exact List.mem_append_left _ hmem
      · simp [covers, Block.spelling_mem_covered]
    · split
      · exact ih h
      · simpa [List.append_assoc] using @ih (keys ++ m.covers) h

/-! ### Lines that were read and kept -/

/-- The keys of lines that count and are kept are clear of one another. -/
theorem pairwise_clear_kept {ls : List OwnLine} (h : Unblocked ls) (keys : List String) :
    ((keptFrom keys ls).map key).Pairwise Key.Clear := by
  have hpass := h.passes.sublist (keptFrom_sublist keys ls)
  rw [List.pairwise_map]
  exact (hpass.and (keptFrom_unsaid keys ls).1).imp fun h => Key.clear_of_passes h.1 h.2

/-- Lines with clear keys all count. -/
theorem unblocked_of_clear {ls : List OwnLine} (hne : ∀ l ∈ ls, Key.stored l.key ≠ "")
    (h : (ls.map key).Pairwise Key.Clear) : Unblocked ls := by
  refine ⟨fun l hl => Key.taken_ne_empty (hne l hl), ?_⟩
  rw [List.pairwise_map] at h
  exact h.imp fun hc k hk hmem => hc.taken k hk (keys_pairs_subset _ hmem)

/-- Lines with clear keys are all kept. -/
theorem keptFrom_of_clear {ls : List OwnLine} (h : (ls.map key).Pairwise Key.Clear) :
    keptFrom [] ls = ls := by
  rw [List.pairwise_map] at h
  exact keptFrom_eq_self (h.imp fun hc => hc.unsaid)

/-- The key of an id is clear of every other key. -/
theorem clear_id {key : String} (h : Key.stored key ≠ "id") : Key.Clear "id" key := by
  refine ⟨?_, ?_⟩
  · have hid : Block.covered (Key.stored "id") = ["id"] := by decide
    rw [Key.Unsaid, hid, List.mem_singleton]
    exact fun he => h (Key.eq_of_spelling_eq (by decide) he)
  · have hid : Key.taken "id" = ["id"] := by decide
    rw [hid]
    intro k hk hmem
    rw [List.mem_singleton] at hmem
    subst hmem
    cases hp : Key.parts? key with
    | none =>
      rw [Key.taken_of_none hp, List.mem_singleton] at hk
      exact h hk.symm
    | some ab =>
      rw [Key.taken_of_some hp] at hk
      exact (Key.parts_plain hp (by simpa using hk)).2.2.1 rfl

/-! ### Blocks -/

theorem not_startsWith_underscore {key : String} (h : IsKey key) :
    startsWith "_" (Key.stored key) = false := by
  have hchars : ∀ c ∈ (Key.stored key).toList, isColonKeyChar c = true := by
    intro c hc
    rcases Key.eq_stored_or key with he | he
    · exact h.2 c (by rwa [he])
    · refine h.2 c ?_
      rw [he, String.toList_append]
      exact List.mem_append_right _ hc
  rw [Bool.eq_false_iff]
  intro hs
  obtain ⟨cs, hcs⟩ := List.isPrefixOf_iff_prefix.1 hs
  have := hchars '_' (by rw [← hcs]; simp)
  revert this
  decide

/-- A block takes the lines that are kept, and has what they cover. -/
theorem addLines_entries {b : Block} {ls : List OwnLine} (h : ∀ l ∈ ls, IsKey l.key) :
    b.addLines (ls.map entry)
      = ⟨b.lines ++ (keptFrom b.keys ls).map said,
          b.keys ++ (keptFrom b.keys ls).flatMap covers⟩ := by
  induction ls generalizing b with
  | nil => simp [Block.addLines, keptFrom]
  | cons l ls ih =>
    have hls : ∀ m ∈ ls, IsKey m.key := fun m hm => h m (by simp [hm])
    have hstep : b.addLines ((l :: ls).map entry) = (b.addLine l.entry).addLines (ls.map entry) :=
      rfl
    rw [hstep, Block.addLine, entry_key]
    simp only [not_startsWith_underscore (h l (by simp)), Bool.false_eq_true, if_false]
    by_cases hmem : Key.spelling (Key.stored l.key) ∈ b.keys
    · have hhas : b.has (Key.stored l.key) = true := by simpa [Block.has] using hmem
      rw [Block.addNew, if_pos hhas, ih hls, keptFrom, if_pos hmem]
    · have hhas : ¬ b.has (Key.stored l.key) = true := by simpa [Block.has] using hmem
      rw [Block.addNew, if_neg hhas, ih hls, keptFrom, if_neg hmem]
      simp [Block.add, covers, said]

end OwnLine

end Otui
