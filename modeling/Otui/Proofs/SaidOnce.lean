import Otui.Proofs.StoredBlocks

/-!
# What a block says is said once

The lines of a block come from several places: the id, the lines that were read or the stored
properties, a size, and anchors and margins. All places but two add their lines in one way, under a
key that the block does not have (`Block.Grows`). A block keeps track of what it says (`Block.Tracks`)
as long as the id and a size that is made up are followed only by lines for something else. So nothing
is said twice: `Block.SaysOnce`.
-/

namespace Otui

open Otui.Text Otui.Document

variable {α : Type}

/-! ### Keys -/

theorem Ledger.mem_keys_erase {ν : Type} {m : Ledger ν} {key k : String} :
    k ∈ (m.erase key).keys ↔ k ∈ m.keys ∧ k ≠ key := by
  simp only [keys, erase, filter, List.mem_map, List.mem_filter, bne_iff_ne]
  constructor
  · rintro ⟨e, ⟨he, hne⟩, rfl⟩
    exact ⟨⟨e, he, rfl⟩, hne⟩
  · rintro ⟨⟨e, he, rfl⟩, hne⟩
    exact ⟨e, ⟨he, hne⟩, rfl⟩

namespace Key

@[simp] theorem spelling_spelling (key : String) : spelling (spelling key) = spelling key := by
  cases h : isAnchor key with
  | false => rw [spelling_of_not_isAnchor h, spelling_of_not_isAnchor h]
  | true =>
    rw [spelling_of_isAnchor h, spelling_of_isAnchor (isAnchor_anchorSpelling key),
      anchorSpelling_anchorSpelling]

/-- Whether a key says where a widget stands: that of an anchor or of a margin. -/
def isPlace (key : String) : Bool := isAnchor key || startsWith marginFront key

theorem isPlace_margin (edge : String) : isPlace (marginFront ++ edge) = true := by
  rw [isPlace, startsWith_append, Bool.or_true]

theorem not_isAnchor_margin (edge : String) : isAnchor (marginFront ++ edge) = false := by
  rw [Bool.eq_false_iff]
  intro h
  obtain ⟨cs, hcs⟩ := List.isPrefixOf_iff_prefix.1 h
  rw [String.toList_append] at hcs
  cases hcs

theorem stored_margin (edge : String) : stored (marginFront ++ edge) = marginFront ++ edge :=
  stored_of_startsWith (c := 'm') rfl (by decide) (startsWith_append marginFront edge)

/-- Keys that say where a widget stands are for one property, which is neither the id nor a size. -/
theorem plain_of_isPlace {key : String} (h : isPlace key = true) :
    parts? key = none ∧ key ≠ "id" ∧ key ∉ ["size", "width", "height"] := by
  refine ⟨?_, ?_, ?_⟩
  · cases hparts : parts? key with
    | none => rfl
    | some ab =>
      rcases parts?_eq_some hparts with ⟨rfl, -, -⟩ | ⟨rfl, -, -⟩ <;> exact absurd h (by decide)
  · rintro rfl
    exact absurd h (by decide)
  · simp only [List.mem_cons, List.not_mem_nil, or_false]
    rintro (rfl | rfl | rfl) <;> exact absurd h (by decide)

end Key

namespace Document.Block

theorem mem_covered {key k : String} :
    k ∈ covered key ↔ k = Key.spelling key
      ∨ ∃ first second, Key.parts? key = some (first, second) ∧ (k = first ∨ k = second) := by
  cases h : Key.parts? key with
  | none => simp [covered, h]
  | some ab =>
    obtain ⟨first, second⟩ := ab
    simp only [covered, h, List.mem_cons, List.not_mem_nil, or_false, Option.some.injEq]
    constructor
    · rintro (rfl | hk)
      · exact .inl rfl
      · exact .inr ⟨first, second, rfl, hk⟩
    · rintro (rfl | ⟨_, _, ⟨⟩, hk⟩)
      · exact .inl rfl
      · exact .inr hk

/-- The spelling in use covers what a key covers. -/
@[simp] theorem covered_spelling (key : String) : covered (Key.spelling key) = covered key := by
  cases h : Key.isAnchor key with
  | false => rw [Key.spelling_of_not_isAnchor h]
  | true =>
    have hnone : ∀ k, Key.isAnchor k = true → Key.parts? k = none := by
      intro k hk
      exact (Key.plain_of_isPlace (by rw [Key.isPlace, hk, Bool.true_or])).1
    rw [covered_of_none (hnone key h), covered_of_none (hnone _ (by rw [Key.isAnchor_spelling, h])),
      Key.spelling_spelling]

end Document.Block

/-! ### What a line says -/

namespace Document

/-- What a line is about: its key without the mark, an anchor in the spelling in use. -/
def Said.subject? : Said → Option String
  | .header _ _ => none
  | .id _ => some "id"
  | .property key _ => some (Key.spelling (Key.stored key))
  | .size _ _ => some "size"

theorem Said.spelling_subject {s : Said} {k : String} (h : s.subject? = some k) :
    Key.spelling k = k := by
  cases s with
  | header name base => cases h
  | id name =>
    cases h
    decide
  | property key value =>
    cases h
    exact Key.spelling_spelling _
  | size width height =>
    cases h
    decide

namespace Block

/-- What the lines of a block are about. -/
def subjects (b : Block) : List String := b.lines.filterMap Said.subject?

theorem subjects_append (b : Block) (ls : List Said) (keys : List String) :
    (⟨b.lines ++ ls, keys⟩ : Block).subjects = b.subjects ++ ls.filterMap Said.subject? :=
  List.filterMap_append

@[simp] theorem subjects_add (b : Block) (key written value : String) :
    (b.add key written value).subjects = b.subjects ++ [Key.spelling (Key.stored written)] := by
  rw [add, subjects_append]
  rfl

theorem spelling_of_mem_subjects {b : Block} {k : String} (h : k ∈ b.subjects) :
    Key.spelling k = k := by
  obtain ⟨s, -, hs⟩ := List.mem_filterMap.1 h
  exact Said.spelling_subject hs

theorem mem_covered_self {b : Block} {k : String} (h : k ∈ b.subjects) : k ∈ covered k := by
  have hself := spelling_mem_covered k
  rwa [spelling_of_mem_subjects h] at hself

/-- A block that says nothing twice. -/
structure SaysOnce (b : Block) : Prop where
  /-- No two lines are about one thing. -/
  distinct : b.subjects.Nodup
  /-- After a line for a compound key no line is about a part of it. -/
  whole : b.subjects.Pairwise fun earlier later => ∀ first second,
    Key.parts? earlier = some (first, second) → later ≠ first ∧ later ≠ second
  /-- A size that is made up stands in a block without other lines about the size. -/
  sized : ∀ width height, .size width height ∈ b.lines →
    b.subjects.filter (["size", "width", "height"].contains ·) = ["size"]

/-! ### Growing -/

/-- The blocks that a block becomes when property lines are added to it, of those that may be. A line
is added under a key that the block does not have; under a compound key it is one of the parts that
the block does not have. -/
inductive Grows (may : Said → Prop) (b : Block) : Block → Prop where
  /-- Nothing is added. -/
  | refl : Grows may b b
  /-- A line is added for a key. -/
  | line {c : Block} {key written value : String} (h : Grows may b c)
      (hmay : may (.property written value)) (hstored : Key.stored written = key)
      (hnew : c.has key = false) : Grows may b (c.add key written value)
  /-- A line is added for both parts of a compound key. -/
  | both {c : Block} {compound first second part value : String} (h : Grows may b c)
      (hmay : may (.property compound value)) (hparts : Key.parts? compound = some (first, second))
      (hpart : part = first ∨ part = second) (hnew : c.has part = false) :
      Grows may b (c.add compound compound value)

section Grows

variable {may : Said → Prop} {b c d : Block}

theorem Grows.trans (h : Grows may b c) (h' : Grows may c d) : Grows may b d := by
  induction h' with
  | refl => exact h
  | line _ hmay hstored hnew ih => exact ih.line hmay hstored hnew
  | both _ hmay hparts hpart hnew ih => exact ih.both hmay hparts hpart hnew

theorem Grows.mono {might : Said → Prop} (h : Grows may b c) (hmay : ∀ s, may s → might s) :
    Grows might b c := by
  induction h with
  | refl => exact .refl
  | line _ hm hstored hnew ih => exact ih.line (hmay _ hm) hstored hnew
  | both _ hm hparts hpart hnew ih => exact ih.both (hmay _ hm) hparts hpart hnew

theorem grows_foldl {β : Type} {f : Block → β → Block} {xs : List β}
    (hf : ∀ x ∈ xs, ∀ b, Grows may b (f b x)) (b : Block) : Grows may b (xs.foldl f b) :=
  List.foldlRecOn xs f .refl fun c hc x hx => hc.trans (hf x hx c)

theorem grows_addNew {key written value : String} (hmay : may (.property written value))
    (hstored : Key.stored written = key) : Grows may b (b.addNew key written value) := by
  unfold addNew
  split
  · exact .refl
  · next hnew => exact Grows.refl.line hmay hstored (by simpa using hnew)

theorem grows_addLines {ls : List PropertyLine}
    (hmay : ∀ l ∈ ls, may (.property l.key (writtenValue l.key l.value))) (b : Block) :
    Grows may b (b.addLines ls) := by
  refine grows_foldl (fun l hl b => ?_) b
  rw [addLine]
  split
  · exact .refl
  · exact grows_addNew (hmay l hl) rfl

end Grows

end Block

end Document

/-- Stored properties whose keys have no mark, each written as it is or with the mark. -/
structure Properties.HavePlainKeys (p : Properties) : Prop where
  /-- Stored keys have no mark. -/
  stored : ∀ key ∈ p.values.keys, Key.isMarked key = false
  /-- A key is written as it is or with the mark. -/
  written : ∀ e ∈ p.written.entries, e.2 = e.1 ∨ e.2 = Key.mark ++ e.1

instance (p : Properties) : Decidable p.HavePlainKeys :=
  decidable_of_iff
    ((∀ key ∈ p.values.keys, Key.isMarked key = false)
      ∧ ∀ e ∈ p.written.entries, e.2 = e.1 ∨ e.2 = Key.mark ++ e.1)
    ⟨fun h => ⟨h.1, h.2⟩, fun h => ⟨h.stored, h.written⟩⟩

namespace Document.Block

variable {may : Said → Prop}

theorem grows_addStored {values written : Ledger String} {key : String}
    (hkey : Key.isMarked key = false)
    (hwritten : ∀ e ∈ written.entries, e.2 = e.1 ∨ e.2 = Key.mark ++ e.1)
    (hmay : ∀ k v, Key.stored k = key ∨ (Key.parts? k).isSome = true → may (.property k v))
    (b : Block) (value : String) : Grows may b (addStored values written b key value) := by
  have hstored : Key.stored ((written.get? key).getD key) = key := by
    cases hw : written.get? key with
    | none => exact Key.stored_of_not_isMarked hkey
    | some w =>
      rw [Option.getD_some]
      have hform : w = key ∨ w = Key.mark ++ key := hwritten _ (Ledger.mem_of_get? hw)
      rcases hform with rfl | rfl
      · exact Key.stored_of_not_isMarked hkey
      · exact Key.stored_mark key
  unfold addStored
  split
  · exact .refl
  · next hnew =>
    have hnot : b.has key = false := by
      rw [Bool.or_eq_true, not_or] at hnew
      exact Bool.not_eq_true _ ▸ hnew.2
    split
    · next compound v hline =>
      obtain ⟨first, second, _, _, hparts, hpart, -⟩ := compoundLine?_eq_some.1 hline
      exact Grows.refl.both (hmay compound v (.inr (by rw [hparts]; rfl))) hparts hpart hnot
    · exact Grows.refl.line (hmay _ _ (.inl hstored)) hstored hnot

/-- Lines for stored properties are added for their keys and for compound keys. -/
theorem grows_addValues {values written : Ledger String}
    (hkeys : ∀ key ∈ values.keys, Key.isMarked key = false)
    (hwritten : ∀ e ∈ written.entries, e.2 = e.1 ∨ e.2 = Key.mark ++ e.1)
    (hmay : ∀ k v, Key.stored k ∈ values.keys ∨ (Key.parts? k).isSome = true →
      may (.property k v)) (b : Block) : Grows may b (b.addValues values written) := by
  refine grows_foldl (fun e he b => ?_) b
  have hmem : e.1 ∈ values.keys := List.mem_map_of_mem he
  refine grows_addStored (hkeys _ hmem) hwritten (fun k v hk => hmay k v ?_) b e.2
  exact hk.imp_left fun hkey => by rwa [hkey]

/-- The lines for anchors and margins. -/
def placeLines (anchors : List (String × String)) (margins : List (String × Int)) : List Said :=
  anchors.map (fun a => .property a.1 a.2)
    ++ margins.map fun m => .property (Key.marginFront ++ m.1) (toString m.2)

theorem grows_addAnchors {anchors : List (String × String)}
    (hanchors : ∀ a ∈ anchors, Key.isAnchor a.1 = true) (margins : List (String × Int)) (b : Block) :
    Grows (· ∈ placeLines anchors margins) b (b.addAnchors anchors margins) := by
  refine Grows.trans (c := anchors.foldl (fun b a => b.addNew a.1 a.1 a.2) b) ?_ ?_
  · refine grows_foldl (fun a ha b => grows_addNew ?_ (Key.stored_of_isAnchor (hanchors a ha))) b
    exact List.mem_append_left _ (List.mem_map_of_mem ha)
  · refine grows_foldl (fun edge _ b => ?_) _
    split
    · next margin hmargin =>
      refine grows_addNew (List.mem_append_right _ ?_) (Key.stored_margin edge.name)
      obtain ⟨before, after, hmargins, -⟩ := List.lookup_eq_some_iff.1 hmargin
      rw [hmargins]
      exact List.mem_map.2 ⟨(edge.name, margin), by simp, rfl⟩
    · exact .refl

/-- What a block grows by are property lines that may be added. -/
theorem Grows.exists_lines {b c : Block} (h : Grows may b c) :
    ∃ added, c.lines = b.lines ++ added
      ∧ ∀ s ∈ added, may s ∧ ∃ key value, s = .property key value := by
  have hsnoc : ∀ {c : Block} (key : String) {written value : String},
      may (.property written value) →
      (∃ added, c.lines = b.lines ++ added
        ∧ ∀ s ∈ added, may s ∧ ∃ key value, s = .property key value) →
      ∃ added, (c.add key written value).lines = b.lines ++ added
        ∧ ∀ s ∈ added, may s ∧ ∃ key value, s = .property key value := by
    rintro c key written value hmay ⟨added, hlines, hadded⟩
    refine ⟨added ++ [.property written value], ?_, ?_⟩
    · rw [add, hlines, List.append_assoc]
    · simp only [List.forall_mem_append, List.forall_mem_singleton]
      exact ⟨hadded, hmay, written, value, rfl⟩
  induction h with
  | refl => exact ⟨[], (List.append_nil _).symm, by simp⟩
  | line _ hmay _ _ ih => exact hsnoc _ hmay ih
  | both _ hmay _ _ _ ih => exact hsnoc _ hmay ih

/-- No size is made up when a block grows. -/
theorem Grows.size_mem {b c : Block} (h : Grows may b c) {width height : String}
    (hmem : .size width height ∈ c.lines) : .size width height ∈ b.lines := by
  obtain ⟨added, hlines, hadded⟩ := h.exists_lines
  rw [hlines, List.mem_append] at hmem
  rcases hmem with hmem | hmem
  · exact hmem
  · obtain ⟨-, key, value, hproperty⟩ := hadded _ hmem
    cases hproperty

/-! ### Keeping track -/

/-- A block that says nothing twice and, when all lines to come are about some things only, knows
enough to go on so. -/
structure Tracks (later : String → Prop) (b : Block) : Prop where
  /-- What the block has said is known, if it may come again. -/
  known : ∀ s ∈ b.subjects, ∀ k ∈ covered s, later k → k ∈ b.keys
  /-- What is known was said. -/
  said : ∀ k ∈ b.keys, ∃ s ∈ b.subjects, k ∈ covered s
  /-- No line is about what an earlier line has covered. -/
  fresh : b.subjects.Pairwise fun earlier later => later ∉ covered earlier

namespace Tracks

variable {later : String → Prop} {b c : Block}

theorem mono {sooner : String → Prop} (h : b.Tracks sooner) (hl : ∀ k, later k → sooner k) :
    b.Tracks later :=
  ⟨fun s hs k hk hlater => h.known s hs k hk (hl k hlater), h.said, h.fresh⟩

theorem mem_keys (h : b.Tracks later) {k : String} (hk : k ∈ b.subjects) (hlater : later k) :
    k ∈ b.keys :=
  h.known k hk k (mem_covered_self hk) hlater

/-- Adding a line for a key that a block does not have. -/
theorem add (h : b.Tracks later) {key written value : String} (hstored : Key.stored written = key)
    (hlater : later (Key.spelling key)) (hnew : Key.spelling key ∉ b.keys) :
    (b.add key written value).Tracks later where
  known := by
    rw [subjects_add, hstored, List.forall_mem_append, List.forall_mem_singleton, covered_spelling]
    constructor
    · intro s hs k hk hk'
      exact List.mem_append_left _ (h.known s hs k hk hk')
    · intro k hk _
      exact List.mem_append_right _ hk
  said := by
    intro k hk
    rw [subjects_add, hstored]
    rcases List.mem_append.1 hk with hk | hk
    · obtain ⟨s, hs, hks⟩ := h.said k hk
      exact ⟨s, List.mem_append_left _ hs, hks⟩
    · exact ⟨Key.spelling key, by simp, by rwa [covered_spelling]⟩
  fresh := by
    rw [subjects_add, hstored, List.pairwise_append]
    refine ⟨h.fresh, List.pairwise_singleton _ _, fun s hs k hk hmem => hnew ?_⟩
    rw [List.mem_singleton] at hk
    subst hk
    exact h.known s hs _ hmem hlater

/-- A block that does not have a part of a compound key does not have the compound key. -/
theorem not_mem_compound (h : b.Tracks later) {compound first second part : String}
    (hparts : Key.parts? compound = some (first, second)) (hpart : part = first ∨ part = second)
    (hlater : later part) (hnew : part ∉ b.keys) : compound ∉ b.keys := by
  intro hmem
  obtain ⟨s, hs, hcompound⟩ := h.said compound hmem
  rcases mem_covered.1 hcompound with heq | ⟨_, _, hs', hpart'⟩
  · have hsame : s = compound := Key.eq_of_spelling_eq (Key.compound_plain hparts).1 heq.symm
    subst hsame
    exact hnew (h.known s hs part (mem_covered.2 (.inr ⟨first, second, hparts, hpart⟩)) hlater)
  · rw [(Key.parts_plain hs' hpart').2.1] at hparts
    cases hparts

/-- A block that grows keeps track. -/
theorem grows (h : b.Tracks later) {may : Said → Prop} (hg : Grows may b c)
    (hmay : ∀ s, may s → ∀ key, s.subject? = some key → ∀ k ∈ covered key, later k) :
    c.Tracks later := by
  induction hg with
  | refl => exact h
  | @line c key written value _ hm hstored hnew ih =>
    have hlater : later (Key.spelling key) := by
      refine hmay _ hm _ rfl _ ?_
      rw [hstored, covered_spelling]
      exact spelling_mem_covered key
    refine ih.add hstored hlater ?_
    simpa [has] using hnew
  | @both c compound first second part value _ hm hparts hpart hnew ih =>
    have hplain := Key.spelling_of_not_isAnchor (Key.compound_plain hparts).1
    have hcovered : ∀ k ∈ covered compound, later k := by
      intro k hk
      refine hmay _ hm _ rfl k ?_
      rwa [Key.stored_compound hparts, covered_spelling]
    have hpartPlain := Key.spelling_of_not_isAnchor (Key.parts_plain hparts hpart).1
    have hnotPart : part ∉ c.keys := by simpa [has, hpartPlain] using hnew
    have hlater : later part :=
      hcovered part (mem_covered.2 (.inr ⟨first, second, hparts, hpart⟩))
    refine ih.add (Key.stored_compound hparts) (hcovered _ (spelling_mem_covered compound)) ?_
    rw [hplain]
    exact ih.not_mem_compound hparts hpart hlater hnotPart

/-- No two lines of a block that keeps track are about one thing. -/
theorem distinct (h : b.Tracks later) : b.subjects.Nodup := by
  refine List.Pairwise.imp_of_mem (fun {s k} hs _ hfresh hsame => hfresh ?_) h.fresh
  subst hsame
  exact mem_covered_self hs

/-- After a line for a compound key, none is about its parts. -/
theorem whole (h : b.Tracks later) :
    b.subjects.Pairwise fun earlier later => ∀ first second,
      Key.parts? earlier = some (first, second) → later ≠ first ∧ later ≠ second := by
  refine h.fresh.imp fun {s k} hfresh first second hparts => ?_
  constructor
  · rintro rfl
    exact hfresh (mem_covered.2 (.inr ⟨k, second, hparts, .inl rfl⟩))
  · rintro rfl
    exact hfresh (mem_covered.2 (.inr ⟨first, k, hparts, .inr rfl⟩))

end Tracks

end Document.Block

end Otui
