import Otui.Proofs.SettledBlocks

/-!
# Blocks that are written from stored properties

A widget that was built and not read has stored properties and no lines. Its block has one line for
each stored property, `storedLine`, save that the two parts of a compound key share one. When the
properties are well built (`Properties.AreBuilt`), the lines of the block are exactly these, each
once (`exists_addValues`), they are settled, and what a line stores when it is read is what it was
written for (`mem_pairs_iff`).
-/

namespace Otui

open Otui.Text Otui.Document

/-! ### Words -/

namespace Text

/-- A word in front of white space is cut off. -/
theorem wordsChars_append {a b : List Char} (hne : a ≠ []) (ha : ∀ c ∈ a, isBlank c = false)
    (hb : ∀ c ∈ b.head?, isBlank c = true) : wordsChars (a ++ b) = a :: wordsChars b := by
  obtain ⟨c, a, rfl⟩ := List.exists_cons_of_ne_nil hne
  have hpos : ∀ d ∈ a, (!isBlank d) = true := fun d hd => by simp [ha d (by simp [hd])]
  have hstop : b.takeWhile (!isBlank ·) = [] ∧ b.dropWhile (!isBlank ·) = b := by
    cases b with
    | nil => exact ⟨rfl, rfl⟩
    | cons d b => simp [hb d rfl]
  rw [List.cons_append, wordsChars.eq_def]
  simp only [ha c List.mem_cons_self, Bool.false_eq_true, if_false,
    List.takeWhile_append_of_pos hpos, List.dropWhile_append_of_pos hpos, hstop.1, hstop.2,
    List.append_nil]

/-- White space in front is passed over. -/
theorem wordsChars_cons_blank {c : Char} (h : isBlank c = true) (cs : List Char) :
    wordsChars (c :: cs) = wordsChars cs := by
  rw [wordsChars.eq_def]
  simp only [h, if_true]

theorem wordsChars_nil : wordsChars [] = [] := by rw [wordsChars.eq_def]

end Text

/-! ### Texts that are read back as they were written -/

/-- A text that is read back as it was written: not empty, on one line, without white space around
it and not in quotes. -/
structure IsPlainText (s : String) : Prop where
  /-- It is on one line. -/
  oneLine : OnOneLine s
  /-- It is plain like an id. -/
  plain : IsPlainId s

/-- A part of a compound value, as a decimal numeral is: no white space and no quotes are in it. -/
def IsPart (s : String) : Prop := ∀ c ∈ s.toList, isBlank c = false ∧ c ≠ '\'' ∧ c ≠ '"'

instance (s : String) : Decidable (IsPlainText s) :=
  decidable_of_iff ('\n' ∉ s.toList ∧ IsPlainId s) ⟨fun h => ⟨h.1, h.2⟩, fun h => ⟨h.1, h.2⟩⟩

instance (s : String) : Decidable (IsPart s) :=
  List.decidableBAll (fun c => isBlank c = false ∧ c ≠ '\'' ∧ c ≠ '"') s.toList

/-- Two parts with a blank between them are two words. -/
theorem words_join {a b : String} (hane : a ≠ "") (hbne : b ≠ "") (ha : IsPart a) (hb : IsPart b) :
    words (a ++ " " ++ b) = [a, b] := by
  have hachars : a.toList ≠ [] := fun h => hane (String.toList_eq_nil_iff.1 h)
  have hbchars : b.toList ≠ [] := fun h => hbne (String.toList_eq_nil_iff.1 h)
  have htext : (a ++ " " ++ b).toList = a.toList ++ ' ' :: b.toList := by simp
  have hsecond : wordsChars b.toList = [b.toList] := by
    have h := wordsChars_append (b := []) hbchars (fun c hc => (hb c hc).1) (by simp)
    rwa [List.append_nil, wordsChars_nil] at h
  have hblank : isBlank ' ' = true := by decide
  rw [words, htext, wordsChars_append hachars (fun c hc => (ha c hc).1) (by simp [hblank]),
    wordsChars_cons_blank hblank, hsecond]
  simp

/-- Two parts with a blank between them are a plain text. -/
theorem isPlainText_join {a b : String} (hane : a ≠ "") (hbne : b ≠ "") (ha : IsPart a)
    (hb : IsPart b) : IsPlainText (a ++ " " ++ b) := by
  have htext : (a ++ " " ++ b).toList = a.toList ++ ' ' :: b.toList := by simp
  obtain ⟨c, cs, hcs⟩ := List.exists_cons_of_ne_nil fun h => hane (String.toList_eq_nil_iff.1 h)
  obtain ⟨ds, d, hds⟩ : ∃ ds d, b.toList = ds ++ [d] := by
    rcases List.eq_nil_or_concat b.toList with h | ⟨ds, d, h⟩
    · exact absurd (String.toList_eq_nil_iff.1 h) hbne
    · exact ⟨ds, d, h.trans (List.concat_eq_append ..)⟩
  have hc := ha c (by simp [hcs])
  have hd := hb d (by simp [hds])
  have hends : (a ++ " " ++ b).toList = c :: ((cs ++ ' ' :: ds) ++ [d]) := by
    rw [htext, hcs, hds]
    simp
  have hblank : ∀ {e : Char}, isBlank e = false → e ≠ '\n' := by
    rintro e he rfl
    revert he
    decide
  refine ⟨?_, fun h => ?_, ?_, ?_⟩
  · unfold OnOneLine
    rw [htext, List.mem_append, List.mem_cons]
    rintro (h | h | h)
    · exact hblank (ha _ h).1 rfl
    · cases h
    · exact hblank (hb _ h).1 rfl
  · rw [h] at hends
    cases hends
  · rw [trim, hends, trimChars_eq_self hc.1 hd.1, ← hends, String.ofList_toList]
  · rw [hends]
    unfold insideQuotes?
    split
    · next q _ _ hq =>
      rw [← (List.cons.inj hq).1, if_neg]
      simp [hc.2.1, hc.2.2]
    · rfl

/-! ### Compound lines -/

namespace Key

/-- A stored key belongs to the compound key that it is a part of. -/
theorem compoundOf?_eq_some {k key first second : String} :
    compoundOf? k = some (key, first, second)
      ↔ parts? key = some (first, second) ∧ (k = first ∨ k = second) := by
  constructor
  · intro h
    simp only [compoundOf?, compounds, List.find?_cons, List.find?_nil] at h
    split at h
    · next hk =>
      cases h
      simp only [Bool.or_eq_true, beq_iff_eq] at hk
      exact ⟨by decide, hk.imp Eq.symm Eq.symm⟩
    · split at h
      · next hk =>
        cases h
        simp only [Bool.or_eq_true, beq_iff_eq] at hk
        exact ⟨by decide, hk.imp Eq.symm Eq.symm⟩
      · cases h
  · rintro ⟨hparts, hk⟩
    rcases parts?_eq_some hparts with ⟨rfl, rfl, rfl⟩ | ⟨rfl, rfl, rfl⟩ <;>
      rcases hk with rfl | rfl <;> decide

end Key

namespace Document.Block

theorem joined?_eq_some {values : Ledger String} {first second value : String} :
    joined? values first second = some value
      ↔ ∃ a b, values.get? first = some a ∧ values.get? second = some b ∧ a ≠ "" ∧ b ≠ ""
        ∧ value = a ++ " " ++ b := by
  unfold joined?
  split
  · next a b ha hb => grind
  · next h => grind

/-- The compound line that a stored key belongs to has the values of both parts. -/
theorem compoundLine?_eq_some {values : Ledger String} {k key value : String} :
    compoundLine? values k = some (key, value)
      ↔ ∃ first second a b, Key.parts? key = some (first, second) ∧ (k = first ∨ k = second)
        ∧ values.get? first = some a ∧ values.get? second = some b ∧ a ≠ "" ∧ b ≠ ""
        ∧ value = a ++ " " ++ b := by
  simp only [compoundLine?, Option.bind_eq_some_iff, Option.map_eq_some_iff, Prod.exists,
    Key.compoundOf?_eq_some, joined?_eq_some, Prod.mk.injEq]
  constructor
  · rintro ⟨_, first, second, ⟨hparts, hk⟩, _, ⟨a, b, ha, hb, hane, hbne, rfl⟩, rfl, rfl⟩
    exact ⟨first, second, a, b, hparts, hk, ha, hb, hane, hbne, rfl⟩
  · rintro ⟨first, second, a, b, hparts, hk, ha, hb, hane, hbne, rfl⟩
    exact ⟨key, first, second, ⟨hparts, hk⟩, _, ⟨a, b, ha, hb, hane, hbne, rfl⟩, rfl, rfl⟩

end Document.Block

/-! ### Stored properties -/

/-- Stored properties of a widget that was built, as they can be written and read back. -/
structure Properties.AreBuilt (p : Properties) : Prop where
  /-- There are no lines. -/
  lines : p.lines = []
  /-- No key was written with a mark. -/
  written : p.written = {}
  /-- Keys are made of letters and three other characters. -/
  keys : ∀ k ∈ p.values.keys, k ≠ "" ∧ ∀ c ∈ k.toList, isKeyChar c = true
  /-- The id and the compound keys are not stored. -/
  reserved : ∀ k ∈ p.values.keys, k ≠ "id" ∧ k ≠ "size" ∧ k ≠ "text-offset"
  /-- No anchor stands twice in different spellings. -/
  anchors : ∀ j ∈ p.values.keys, ∀ k ∈ p.values.keys, Key.isAnchor j = true →
    Key.isAnchor k = true → Key.anchorSpelling j = Key.anchorSpelling k → j = k
  /-- Values are plain texts. -/
  values : ∀ e ∈ p.values.entries, IsPlainText e.2
  /-- The parts of compound keys have values that are parts. -/
  parts : ∀ k ∈ ["width", "height", "text-offset-x", "text-offset-y"],
    ∀ v ∈ p.values.get? k, IsPart v

theorem areKeys_of_all {ks : List String}
    (h : (ks.all fun k => k != "" && k.toList.all isKeyChar) = true) :
    ∀ k ∈ ks, k ≠ "" ∧ ∀ c ∈ k.toList, isKeyChar c = true := by
  simpa using h

/-- The line that is written for a stored property: the compound line that it belongs to, or one of
its own. -/
def storedLine (values : Ledger String) (e : String × String) : String × String :=
  (Block.compoundLine? values e.1).getD e

/-- Two parts of a compound key that are both stored. -/
structure IsCompound (values : Ledger String) (key first a second b : String) : Prop where
  /-- The key has these parts. -/
  parts : Key.parts? key = some (first, second)
  /-- The first part is stored. -/
  first_mem : (first, a) ∈ values.entries
  /-- The second part is stored. -/
  second_mem : (second, b) ∈ values.entries
  /-- The first part has a value. -/
  first_ne : a ≠ ""
  /-- The second part has a value. -/
  second_ne : b ≠ ""

/-- A stored property has a line of its own, or shares a compound line. -/
theorem storedLine_cases {values : Ledger String} {e : String × String} (he : e ∈ values.entries) :
    (storedLine values e = e ∧ Block.compoundLine? values e.1 = none)
      ∨ ∃ key first a second b, IsCompound values key first a second b
        ∧ (e = (first, a) ∨ e = (second, b)) ∧ storedLine values e = (key, a ++ " " ++ b) := by
  cases hc : Block.compoundLine? values e.1 with
  | none => exact .inl ⟨by rw [storedLine, hc]; rfl, rfl⟩
  | some l =>
    obtain ⟨key, value⟩ := l
    obtain ⟨first, second, a, b, hparts, hk, ha, hb, hane, hbne, hl⟩ :=
      Block.compoundLine?_eq_some.1 hc
    refine .inr ⟨key, first, a, second, b,
      ⟨hparts, Ledger.mem_of_get? ha, Ledger.mem_of_get? hb, hane, hbne⟩, ?_, ?_⟩
    · exact hk.imp (fun hk => Ledger.eq_of_mem he (Ledger.mem_of_get? ha) hk)
        fun hk => Ledger.eq_of_mem he (Ledger.mem_of_get? hb) hk
    · rw [storedLine, hc, ← hl]
      rfl

namespace IsCompound

variable {values : Ledger String} {key first a second b : String}

/-- Both parts share the compound line. -/
theorem storedLine_eq (h : IsCompound values key first a second b) {e : String × String}
    (he : e = (first, a) ∨ e = (second, b)) : storedLine values e = (key, a ++ " " ++ b) := by
  have hk : e.1 = first ∨ e.1 = second := he.imp (congrArg Prod.fst) (congrArg Prod.fst)
  rw [storedLine, Block.compoundLine?_eq_some.2 ⟨first, second, a, b, h.parts, hk,
    Ledger.get?_of_mem h.first_mem, Ledger.get?_of_mem h.second_mem, h.first_ne, h.second_ne, rfl⟩]
  rfl

end IsCompound

/-- The keys that a block has with some lines. -/
def coveredBy (qs : List (String × String)) : List String := qs.flatMap fun q => Block.covered q.1

/-- A line for stored properties with its key as that was written; compound keys are written as they
are. -/
def keyedLine (written : Ledger String) (q : String × String) : String × String :=
  (if (Key.parts? q.1).isSome then q.1 else (written.get? q.1).getD q.1, q.2)

namespace Properties

/-- Properties as lines of a text store them: keys that can be written, values on one line. -/
structure IsLegible (p : Properties) : Prop where
  /-- The lines can be written. -/
  lines : ∀ l ∈ p.lines, IsKey l.key ∧ OnOneLine l.value
  /-- The stored properties can be written. -/
  values : ∀ k v, p.values.get? k = some v → IsKey k ∧ OnOneLine v
  /-- A key as written is the stored key with the mark. -/
  written : ∀ k w, p.written.get? k = some w → IsKey w ∧ Key.isMarked w = true ∧ Key.stored w = k

/-- Stored properties that are read back from the lines that are written for them. -/
structure ValuesReadBack (p : Properties) : Prop where
  /-- No key is stored with a mark, and no compound key is stored. -/
  keys : ∀ k ∈ p.values.keys, Key.isMarked k = false ∧ k ≠ "size" ∧ k ≠ "text-offset"
  /-- No anchor stands twice in different spellings. -/
  anchors : ∀ j ∈ p.values.keys, ∀ k ∈ p.values.keys, Key.isAnchor j = true →
    Key.isAnchor k = true → Key.anchorSpelling j = Key.anchorSpelling k → j = k
  /-- The values of the lines are plain texts. -/
  plain : ∀ e ∈ p.values.entries, IsPlainText (storedLine p.values e).2
  /-- A value under a marked key is a call. -/
  calls : ∀ e ∈ p.values.entries,
    Block.writtenValue (keyedLine p.written (storedLine p.values e)).1 (storedLine p.values e).2
      = (storedLine p.values e).2
  /-- The values of a compound line are its words. -/
  words : ∀ c ∈ Key.compounds, ∀ a ∈ p.values.get? c.2.1, ∀ b ∈ p.values.get? c.2.2,
    a ≠ "" → b ≠ "" → words (a ++ " " ++ b) = [a, b]

instance (p : Properties) : Decidable p.ValuesReadBack :=
  decidable_of_iff
    ((∀ k ∈ p.values.keys, Key.isMarked k = false ∧ k ≠ "size" ∧ k ≠ "text-offset")
      ∧ (∀ j ∈ p.values.keys, ∀ k ∈ p.values.keys, Key.isAnchor j = true →
        Key.isAnchor k = true → Key.anchorSpelling j = Key.anchorSpelling k → j = k)
      ∧ (∀ e ∈ p.values.entries, IsPlainText (storedLine p.values e).2)
      ∧ (∀ e ∈ p.values.entries,
        Block.writtenValue (keyedLine p.written (storedLine p.values e)).1 (storedLine p.values e).2
          = (storedLine p.values e).2)
      ∧ ∀ c ∈ Key.compounds, ∀ a ∈ p.values.get? c.2.1, ∀ b ∈ p.values.get? c.2.2,
        a ≠ "" → b ≠ "" → Text.words (a ++ " " ++ b) = [a, b])
    ⟨fun h => ⟨h.1, h.2.1, h.2.2.1, h.2.2.2.1, h.2.2.2.2⟩,
      fun h => ⟨h.keys, h.anchors, h.plain, h.calls, h.words⟩⟩

/-- Stored properties, the id apart, that can be written and are read back. -/
structure AreTellable (p : Properties) : Prop where
  /-- They can be written. -/
  legible : p.IsLegible
  /-- They are read back. -/
  readBack : p.ValuesReadBack
  /-- The id is not stored. -/
  id : "id" ∉ p.values.keys

/-- Properties of a widget that was built can be written and are read back. -/
theorem AreBuilt.areTellable {p : Properties} (h : p.AreBuilt) : p.AreTellable := by
  have hmark : ∀ k ∈ p.values.keys, Key.isMarked k = false := by
    intro k hk
    rw [Bool.eq_false_iff]
    intro hm
    obtain ⟨s, hs⟩ := Key.isMarked_iff.1 hm
    have := (h.keys k hk).2 '!' (by rw [hs]; simp [Key.mark])
    revert this
    decide
  have hpart : ∀ c ∈ Key.compounds, ∀ k, k = c.2.1 ∨ k = c.2.2 → ∀ v ∈ p.values.get? k,
      IsPart v := by
    intro c hc k hk
    refine h.parts k ?_
    simp only [Key.compounds, List.mem_cons, List.not_mem_nil, or_false] at hc
    rcases hc with rfl | rfl <;> rcases hk with rfl | rfl <;> decide
  refine ⟨⟨by simp [h.lines], fun k v hv => ?_, fun k w hw => ?_⟩,
    ⟨fun k hk => ⟨hmark k hk, (h.reserved k hk).2⟩, h.anchors, fun e he => ?_, fun e he => ?_, ?_⟩,
    fun hid => (h.reserved "id" hid).1 rfl⟩
  · obtain ⟨hne, hchars⟩ := h.keys k (Ledger.mem_keys (Ledger.mem_of_get? hv))
    exact ⟨⟨hne, fun c hc => by simp [isColonKeyChar, hchars c hc]⟩,
      (h.values (k, v) (Ledger.mem_of_get? hv)).oneLine⟩
  · rw [h.written] at hw
    cases hw
  · rcases storedLine_cases he with ⟨hline, -⟩ | ⟨key, first, a, second, b, hc, -, hline⟩
    · rw [hline]
      exact h.values e he
    · rw [hline]
      have hmem : (key, first, second) ∈ Key.compounds := by
        rcases Key.parts?_eq_some hc.parts with ⟨rfl, rfl, rfl⟩ | ⟨rfl, rfl, rfl⟩ <;> decide
      exact isPlainText_join hc.first_ne hc.second_ne
        (hpart _ hmem first (.inl rfl) a (Ledger.get?_of_mem hc.first_mem))
        (hpart _ hmem second (.inr rfl) b (Ledger.get?_of_mem hc.second_mem))
  · have hkeyed : ∀ q : String × String, keyedLine p.written q = q := by
      intro q
      rw [keyedLine, h.written]
      exact Prod.ext (ite_self _) rfl
    have hplain : Key.isMarked (storedLine p.values e).1 = false := by
      rcases storedLine_cases he with ⟨hline, -⟩ | ⟨key, first, a, second, b, hc, -, hline⟩
      · rw [hline]
        exact hmark e.1 (Ledger.mem_keys he)
      · rw [hline]
        exact (Key.compound_plain hc.parts).2.1
    rw [hkeyed, Block.writtenValue, hplain]
    rfl
  · intro c hc a ha b hb hane hbne
    exact words_join hane hbne (hpart c hc _ (.inl rfl) a ha) (hpart c hc _ (.inr rfl) b hb)

end Properties

namespace Properties.AreTellable

variable {p : Properties} (h : p.AreTellable)

include h

theorem isMarked_eq_false {e : String × String} (he : e ∈ p.values.entries) :
    Key.isMarked e.1 = false :=
  (h.readBack.keys e.1 (Ledger.mem_keys he)).1

theorem isKey {e : String × String} (he : e ∈ p.values.entries) : IsKey e.1 :=
  (h.legible.values e.1 e.2 (Ledger.get?_of_mem he)).1

/-- Stored keys have no parts, and are stored as they are. -/
theorem parts?_eq_none {e : String × String} (he : e ∈ p.values.entries) :
    Key.parts? e.1 = none ∧ Key.stored e.1 = e.1 := by
  obtain ⟨-, hsize, hoffset⟩ := h.readBack.keys e.1 (Ledger.mem_keys he)
  refine ⟨?_, Key.stored_of_not_isMarked (h.isMarked_eq_false he)⟩
  cases hp : Key.parts? e.1 with
  | none => rfl
  | some ab =>
    obtain ⟨first, second⟩ := ab
    rcases Key.parts?_eq_some hp with ⟨hk, -⟩ | ⟨hk, -⟩
    · exact absurd hk hsize
    · exact absurd hk hoffset

/-- The values of the two parts of a compound line are its words. -/
theorem words_of_isCompound {key first a second b : String}
    (hc : IsCompound p.values key first a second b) : words (a ++ " " ++ b) = [a, b] := by
  have hmem : (key, first, second) ∈ Key.compounds := by
    rcases Key.parts?_eq_some hc.parts with ⟨rfl, rfl, rfl⟩ | ⟨rfl, rfl, rfl⟩ <;> decide
  exact h.readBack.words _ hmem a (Ledger.get?_of_mem hc.first_mem) b
    (Ledger.get?_of_mem hc.second_mem) hc.first_ne hc.second_ne

/-- A line that is written for a stored property stores it, and all that it is written for. -/
theorem mem_pairs_iff {e : String × String} (he : e ∈ p.values.entries) {l : OwnLine}
    (hkey : l.key = (storedLine p.values e).1) (hvalue : l.value = (storedLine p.values e).2)
    (f : String × String) :
    f ∈ l.pairs ↔ f ∈ p.values.entries ∧ storedLine p.values f = storedLine p.values e := by
  rcases storedLine_cases he with ⟨hline, -⟩ | ⟨key, first, a, second, b, hc, -, hline⟩
  · rw [hline] at hkey hvalue
    obtain ⟨hparts, hstored⟩ := h.parts?_eq_none he
    have hpairs : l.pairs = [e] := by
      rw [OwnLine.pairs_of_none (by rw [hkey]; exact hparts), hkey, hvalue, hstored]
    rw [hpairs, List.mem_singleton, hline]
    constructor
    · rintro rfl
      exact ⟨he, hline⟩
    · rintro ⟨hf, hsame⟩
      rcases storedLine_cases hf with ⟨hself, -⟩ | ⟨key, _, _, _, _, hc, -, hf⟩
      · rw [← hself, hsame]
      · rw [hf] at hsame
        have hnone := hparts
        rw [← hsame, hc.parts] at hnone
        cases hnone
  · rw [hline] at hkey hvalue
    have hpairs : l.pairs = [(first, a), (second, b)] := by
      rw [OwnLine.pairs, hkey, hvalue]
      simp only [hc.parts, h.words_of_isCompound hc]
    have hmem : f ∈ l.pairs ↔ f = (first, a) ∨ f = (second, b) := by
      rw [hpairs]
      simp
    rw [hmem, hline]
    constructor
    · intro hf
      refine ⟨?_, hc.storedLine_eq hf⟩
      rcases hf with rfl | rfl
      · exact hc.first_mem
      · exact hc.second_mem
    · rintro ⟨hf, hsame⟩
      rcases storedLine_cases hf with ⟨hself, -⟩ | ⟨key', first', a', second', b', hc', hf', hline'⟩
      · have hnone := (h.parts?_eq_none hf).1
        rw [← hself, hsame, hc.parts] at hnone
        cases hnone
      · rw [hline'] at hsame
        obtain ⟨rfl, -⟩ := Prod.mk.injEq .. ▸ hsame
        have hparts := hc'.parts
        rw [hc.parts, Option.some.injEq, Prod.mk.injEq] at hparts
        obtain ⟨rfl, rfl⟩ := hparts
        exact hf'.imp (fun hf' => hf'.trans (Ledger.eq_of_mem hc'.first_mem hc.first_mem rfl))
          fun hf' => hf'.trans (Ledger.eq_of_mem hc'.second_mem hc.second_mem rfl)

/-- The key of a line stands for the stored properties that the line is written for. -/
theorem mem_taken_iff {e : String × String} (he : e ∈ p.values.entries) (k : String) :
    k ∈ Key.taken (storedLine p.values e).1
      ↔ ∃ v, (k, v) ∈ p.values.entries ∧ storedLine p.values (k, v) = storedLine p.values e := by
  have hpairs := h.mem_pairs_iff he
    (l := ((storedLine p.values e).1, (storedLine p.values e).2, (storedLine p.values e).2, 0)) rfl
    rfl
  have htaken : Key.taken (storedLine p.values e).1
      = (OwnLine.pairs ((storedLine p.values e).1, (storedLine p.values e).2,
          (storedLine p.values e).2, 0)).map Prod.fst := by
    refine (OwnLine.keys_pairs_of_words (l := ((storedLine p.values e).1,
      (storedLine p.values e).2, (storedLine p.values e).2, 0)) fun hparts => ?_).symm
    rcases storedLine_cases he with ⟨hline, -⟩ | ⟨key, first, a, second, b, hc, -, hline⟩
    · rw [OwnLine.key, hline, (h.parts?_eq_none he).1] at hparts
      cases hparts
    · rw [OwnLine.value, hline, h.words_of_isCompound hc]
      rfl
  rw [htaken]
  simp only [List.mem_map, hpairs, Prod.exists, exists_and_right, exists_eq_right]

/-- A block says a stored property once it has the line that is written for it, and not before. -/
theorem spelling_mem_covered_iff {e f : String × String} (he : e ∈ p.values.entries)
    (hf : f ∈ p.values.entries) :
    Key.spelling e.1 ∈ Block.covered (storedLine p.values f).1
      ↔ storedLine p.values e = storedLine p.values f := by
  rcases storedLine_cases hf with ⟨hline, -⟩ | ⟨key, first, a, second, b, hc, -, hline⟩
  · have hsame : storedLine p.values e = f ↔ e = f := by
      have hpair := h.mem_pairs_iff hf (l := (f.1, f.2, f.2, 0)) (by rw [hline]; rfl)
        (by rw [hline]; rfl) e
      have hone : OwnLine.pairs (f.1, f.2, f.2, 0) = [f] := by
        obtain ⟨hparts, hstored⟩ := h.parts?_eq_none hf
        rw [OwnLine.pairs_of_none (l := (f.1, f.2, f.2, 0)) hparts, OwnLine.key, OwnLine.value,
          hstored]
      rw [hone, List.mem_singleton, hline] at hpair
      rw [hpair]
      exact ⟨fun hs => ⟨he, hs⟩, fun hs => hs.2⟩
    rw [hline, hsame, Block.covered_of_none (h.parts?_eq_none hf).1, List.mem_singleton]
    constructor
    · intro hspelling
      have hkey : e.1 = f.1 := by
        cases ha : Key.isAnchor f.1 with
        | false =>
          rw [Key.spelling_of_not_isAnchor ha] at hspelling
          exact Key.eq_of_spelling_eq ha hspelling
        | true =>
          have hea : Key.isAnchor e.1 = true := by
            rw [← Key.isAnchor_spelling, hspelling, Key.isAnchor_spelling, ha]
          rw [Key.spelling_of_isAnchor ha, Key.spelling_of_isAnchor hea] at hspelling
          exact h.readBack.anchors _ (Ledger.mem_keys he) _ (Ledger.mem_keys hf) hea ha hspelling
      exact Ledger.eq_of_mem he hf hkey
    · rintro rfl
      rfl
  · have hparts : ∀ x, x = first ∨ x = second → (Key.spelling e.1 = x ↔ e.1 = x) := by
      intro x hx
      have hplain := (Key.parts_plain hc.parts hx).1
      refine ⟨Key.eq_of_spelling_eq hplain, ?_⟩
      rintro rfl
      exact Key.spelling_of_not_isAnchor hplain
    have hkey : Key.spelling e.1 ≠ key := by
      intro hspelling
      have hnone := (h.parts?_eq_none he).1
      rw [Key.eq_of_spelling_eq (Key.compound_plain hc.parts).1 hspelling, hc.parts] at hnone
      cases hnone
    have htaken := h.mem_taken_iff hf e.1
    rw [hline, Key.taken_of_some hc.parts] at htaken
    rw [hline, Block.covered_of_some hc.parts, List.mem_cons, or_iff_right hkey, List.mem_cons,
      List.mem_singleton, hparts first (.inl rfl), hparts second (.inr rfl)]
    constructor
    · intro hmem
      obtain ⟨v, hv, hsame⟩ := htaken.1 (by simpa using hmem)
      rw [← hsame, Ledger.eq_of_mem he hv rfl]
    · intro hsame
      simpa using htaken.2 ⟨e.2, he, hsame⟩

/-- Different lines stand for different stored keys. -/
theorem not_mem_taken {e f : String × String} (he : e ∈ p.values.entries)
    (hf : f ∈ p.values.entries) (hne : storedLine p.values f ≠ storedLine p.values e) :
    ∀ k ∈ Key.taken (storedLine p.values e).1, k ∉ Key.taken (storedLine p.values f).1 := by
  intro k hk hkf
  obtain ⟨v, hv, hsame⟩ := (h.mem_taken_iff he k).1 hk
  obtain ⟨w, hw, hsame'⟩ := (h.mem_taken_iff hf k).1 hkf
  exact hne (by rw [← hsame, ← hsame', Ledger.eq_of_mem hw hv rfl])

/-- The line for a stored property can be written and read back. -/
theorem isKey_storedLine {e : String × String} (he : e ∈ p.values.entries) :
    IsKey (storedLine p.values e).1 ∧ Key.isMarked (storedLine p.values e).1 = false
      ∧ IsPlainText (storedLine p.values e).2 := by
  have hplain := h.readBack.plain e he
  rcases storedLine_cases he with ⟨hline, -⟩ | ⟨key, first, a, second, b, hc, -, hline⟩
  · rw [hline] at hplain ⊢
    exact ⟨h.isKey he, h.isMarked_eq_false he, hplain⟩
  · have hkey : IsKey key := by
      rcases Key.parts?_eq_some hc.parts with ⟨rfl, -⟩ | ⟨rfl, -⟩ <;> exact isKey_of_all (by decide)
    rw [hline] at hplain ⊢
    exact ⟨hkey, (Key.compound_plain hc.parts).2.1, hplain⟩

theorem stored_storedLine {e : String × String} (he : e ∈ p.values.entries) :
    Key.stored (storedLine p.values e).1 = (storedLine p.values e).1 :=
  Key.stored_of_not_isMarked (h.isKey_storedLine he).2.1

/-- Different lines do not stand in each other's way. -/
theorem clear_storedLine {e f : String × String} (he : e ∈ p.values.entries)
    (hf : f ∈ p.values.entries) (hne : storedLine p.values f ≠ storedLine p.values e) :
    Key.Clear (storedLine p.values f).1 (storedLine p.values e).1 := by
  have htaken := h.not_mem_taken he hf hne
  refine ⟨fun hmem => ?_, htaken⟩
  rw [h.stored_storedLine he, h.stored_storedLine hf] at hmem
  rcases storedLine_cases he with ⟨hline, -⟩ | ⟨key, first, a, second, b, hc, -, hline⟩
  · refine hne ((h.spelling_mem_covered_iff he hf).1 ?_).symm
    rwa [hline] at hmem
  · rw [hline, Key.spelling_of_not_isAnchor (Key.compound_plain hc.parts).1] at hmem
    rw [hline, Key.taken_of_some hc.parts] at htaken
    rcases storedLine_cases hf with ⟨hlinef, -⟩ | ⟨key', first', a', second', b', hc', -, hlinef⟩
    · obtain ⟨hnone, -⟩ := h.parts?_eq_none hf
      rw [hlinef, Block.covered_of_none hnone, List.mem_singleton] at hmem
      have hkey := Key.eq_of_spelling_eq (Key.compound_plain hc.parts).1 hmem.symm
      rw [hkey, hc.parts] at hnone
      cases hnone
    · rw [hlinef, Block.covered_of_some hc'.parts, List.mem_cons] at hmem
      rcases hmem with rfl | hmem
      · rw [hlinef, Key.taken_of_some hc.parts] at htaken
        exact htaken first (by simp) (by simp)
      · have hnone := (Key.parts_plain hc'.parts (by simpa using hmem)).2.1
        rw [hc.parts] at hnone
        cases hnone

/-- A line has its key as that was written, which is stored and covers as the key itself does. -/
theorem keyedLine_storedLine {e : String × String} (he : e ∈ p.values.entries) :
    IsKey (keyedLine p.written (storedLine p.values e)).1
      ∧ Key.stored (keyedLine p.written (storedLine p.values e)).1 = (storedLine p.values e).1
      ∧ Key.parts? (keyedLine p.written (storedLine p.values e)).1
        = Key.parts? (storedLine p.values e).1 := by
  have hkey := (h.isKey_storedLine he).1
  have hstored := h.stored_storedLine he
  unfold keyedLine
  split
  · exact ⟨hkey, hstored, rfl⟩
  · next hparts =>
    cases hw : p.written.get? (storedLine p.values e).1 with
    | none => exact ⟨hkey, hstored, rfl⟩
    | some w =>
      obtain ⟨hkeyw, -, hstoredw⟩ := h.legible.written _ w hw
      have hnone : Key.parts? (storedLine p.values e).1 = none := by simpa using hparts
      exact ⟨hkeyw, hstoredw,
        (Key.parts?_of_stored (by rw [Option.getD_some, hstoredw, hnone])).trans hnone.symm⟩

/-- A line with the key as it was written stores what it is written for. -/
theorem mem_pairs_keyed_iff {e : String × String} (he : e ∈ p.values.entries) {l : OwnLine}
    (hkey : l.key = (keyedLine p.written (storedLine p.values e)).1)
    (hvalue : l.value = (storedLine p.values e).2) (f : String × String) :
    f ∈ l.pairs ↔ f ∈ p.values.entries ∧ storedLine p.values f = storedLine p.values e := by
  obtain ⟨-, hstored, hparts⟩ := h.keyedLine_storedLine he
  have hpairs : l.pairs
      = OwnLine.pairs ((storedLine p.values e).1, l.value, l.raw, l.number) := by
    simp only [OwnLine.pairs, OwnLine.key, OwnLine.value] at hkey ⊢
    rw [hkey, hparts, hstored, h.stored_storedLine he]
  have hplain := h.mem_pairs_iff he
    (l := ((storedLine p.values e).1, l.value, l.raw, l.number)) (Eq.refl _) hvalue f
  rwa [← hpairs] at hplain

/-- Lines that were read back for stored properties store these and nothing else. -/
theorem mem_flatMap_pairs {ps : List (String × String)} {ms : List OwnLine}
    (hps : ∀ q, q ∈ ps ↔ ∃ f ∈ p.values.entries, storedLine p.values f = q)
    (hms : ms.map OwnLine.asRead = ps.map (keyedLine p.written))
    (hvalues : ∀ m ∈ ms, m.value = stripQuotes m.raw) (f : String × String) :
    f ∈ ms.flatMap OwnLine.pairs ↔ f ∈ p.values.entries := by
  -- a line was written for some stored property, and no quotes come off its value
  have hline : ∀ m g, g ∈ p.values.entries → m ∈ ms →
      keyedLine p.written (storedLine p.values g) = m.asRead →
      m.key = (keyedLine p.written (storedLine p.values g)).1
        ∧ m.value = (storedLine p.values g).2 := by
    intro m g hg hm hread
    have hplain := (h.readBack.plain g hg).plain.unquoted
    have hraw : (storedLine p.values g).2 = m.raw := congrArg Prod.snd hread
    refine ⟨(congrArg Prod.fst hread).symm, ?_⟩
    rw [hvalues m hm, ← hraw]
    exact stripQuotes_of_none hplain
  rw [List.mem_flatMap]
  constructor
  · rintro ⟨m, hm, hf⟩
    obtain ⟨q, hq, hread⟩ := List.mem_map.1 (hms ▸ List.mem_map_of_mem hm)
    obtain ⟨g, hg, rfl⟩ := (hps q).1 hq
    obtain ⟨hkey, hvalue⟩ := hline m g hg hm hread
    exact ((h.mem_pairs_keyed_iff hg hkey hvalue f).1 hf).1
  · intro hf
    obtain ⟨m, hm, hread⟩ := List.mem_map.1
      (hms ▸ List.mem_map_of_mem (f := keyedLine p.written) ((hps _).2 ⟨f, hf, rfl⟩))
    obtain ⟨hkey, hvalue⟩ := hline m f hf hm hread.symm
    exact ⟨m, hm, (h.mem_pairs_keyed_iff hf hkey hvalue f).2 ⟨hf, rfl⟩⟩

/-! ### The block -/

/-- The line for a stored property is added to a block that does not say the property. -/
theorem addStored_eq {e : String × String} (he : e ∈ p.values.entries) {b : Block} :
    Block.addStored p.values p.written b e.1 e.2
      = if b.has e.1 then b
        else ⟨b.lines ++ [pairSaid (keyedLine p.written (storedLine p.values e))],
          b.keys ++ Block.covered (storedLine p.values e).1⟩ := by
  obtain ⟨hnone, hstored⟩ := h.parts?_eq_none he
  have hunderscore : startsWith "_" e.1 = false := by
    rw [← hstored]
    exact OwnLine.not_startsWith_underscore (h.isKey he)
  have hvalue : (e.2 == "") = false := by
    rw [beq_eq_false_iff_ne]
    rcases storedLine_cases he with ⟨hline, -⟩ | ⟨key, first, a, second, b, hc, hpart, -⟩
    · have hplain := h.readBack.plain e he
      rw [hline] at hplain
      exact hplain.plain.ne_empty
    · rcases hpart with rfl | rfl
      · exact hc.first_ne
      · exact hc.second_ne
  rw [Block.addStored, hunderscore, hvalue, Bool.false_or, Bool.false_or]
  split
  · rfl
  · rcases storedLine_cases he with ⟨hline, hcompound⟩ | ⟨key, first, a, second, b, hc, hpart, hline⟩
    · have hcall := h.readBack.calls e he
      rw [hline] at hcall ⊢
      simp only [keyedLine, hnone, Option.isSome_none, Bool.false_eq_true, if_false] at hcall ⊢
      simp only [hcompound, hcall]
      rfl
    · have hcompound : Block.compoundLine? p.values e.1 = some (key, a ++ " " ++ b) :=
        Block.compoundLine?_eq_some.2 ⟨first, second, a, b, hc.parts,
          hpart.imp (congrArg Prod.fst) (congrArg Prod.fst), Ledger.get?_of_mem hc.first_mem,
          Ledger.get?_of_mem hc.second_mem, hc.first_ne, hc.second_ne, rfl⟩
      rw [hcompound, hline, keyedLine, hc.parts]
      rfl

/-- A block takes the lines for stored properties, each once. -/
theorem exists_addValues (ls : List Said) :
    ∃ ps, Block.addValues ⟨ls, []⟩ p.values p.written
        = ⟨ls ++ (ps.map (keyedLine p.written)).map pairSaid, coveredBy ps⟩
      ∧ ps.Nodup ∧ ∀ q, q ∈ ps ↔ ∃ e ∈ p.values.entries, storedLine p.values e = q := by
  -- the lines that the block has already are those for earlier properties
  have hall : ∀ (es qs : List (String × String)), es ⊆ p.values.entries → qs.Nodup →
      (∀ q ∈ qs, ∃ e ∈ p.values.entries, storedLine p.values e = q) →
      ∃ ps, es.foldl (fun b e => Block.addStored p.values p.written b e.1 e.2)
            ⟨ls ++ (qs.map (keyedLine p.written)).map pairSaid, coveredBy qs⟩
          = ⟨ls ++ (ps.map (keyedLine p.written)).map pairSaid, coveredBy ps⟩
        ∧ ps.Nodup ∧ ∀ q, q ∈ ps ↔ q ∈ qs ∨ ∃ e ∈ es, storedLine p.values e = q := by
    intro es
    induction es with
    | nil => exact fun qs _ hnodup _ => ⟨qs, rfl, hnodup, by simp⟩
    | cons e es ih =>
      intro qs hes hnodup hqs
      have he : e ∈ p.values.entries := hes List.mem_cons_self
      have hhas : Block.has ⟨ls ++ (qs.map (keyedLine p.written)).map pairSaid, coveredBy qs⟩ e.1
            = true ↔ storedLine p.values e ∈ qs := by
        rw [Block.has, List.contains_iff_mem, coveredBy, List.mem_flatMap]
        constructor
        · rintro ⟨q, hq, hmem⟩
          obtain ⟨f, hf, rfl⟩ := hqs q hq
          rwa [(h.spelling_mem_covered_iff he hf).1 hmem]
        · exact fun hq => ⟨_, hq, (h.spelling_mem_covered_iff he he).2 rfl⟩
      rw [List.foldl_cons, h.addStored_eq he]
      by_cases hmem : storedLine p.values e ∈ qs
      · rw [if_pos (hhas.2 hmem)]
        obtain ⟨ps, hps, hpnodup, hpmem⟩ := ih qs (fun f hf => hes (by simp [hf])) hnodup hqs
        refine ⟨ps, hps, hpnodup, fun q => ?_⟩
        rw [hpmem, List.exists_mem_cons_iff]
        constructor
        · exact fun hq => hq.imp_right .inr
        · rintro (hq | rfl | hq)
          · exact .inl hq
          · exact .inl hmem
          · exact .inr hq
      · rw [if_neg (fun hh => hmem (hhas.1 hh))]
        obtain ⟨ps, hps, hpnodup, hpmem⟩ := ih (qs ++ [storedLine p.values e])
          (fun f hf => hes (by simp [hf]))
          (List.nodup_append.2 ⟨hnodup, by simp, by
            rintro a ha b hb rfl
            rw [List.mem_singleton] at hb
            exact hmem (hb ▸ ha)⟩)
          (fun q hq => by
            rcases List.mem_append.1 hq with hq | hq
            · exact hqs q hq
            · exact ⟨e, he, (List.mem_singleton.1 hq).symm⟩)
        refine ⟨ps, ?_, hpnodup, fun q => ?_⟩
        · rw [← hps, List.map_append, List.map_append, ← List.append_assoc, coveredBy, coveredBy,
            List.flatMap_append, List.flatMap_singleton]
          rfl
        · rw [hpmem, List.mem_append, List.mem_singleton, List.exists_mem_cons_iff, or_assoc,
            eq_comm]
  obtain ⟨ps, hps, hnodup, hmem⟩ := hall p.values.entries [] (List.Subset.refl _) List.nodup_nil
    (by simp)
  refine ⟨ps, ?_, hnodup, fun q => by simp [hmem]⟩
  rw [← hps, List.map_nil, List.map_nil, List.append_nil]
  rfl

/-- The lines for stored properties are settled. -/
theorem areSettled {ps : List (String × String)} (hnodup : ps.Nodup)
    (hps : ∀ q ∈ ps, ∃ e ∈ p.values.entries, storedLine p.values e = q) :
    AreSettled (ps.map (keyedLine p.written)) where
  keys q hq := by
    obtain ⟨r, hr, rfl⟩ := List.mem_map.1 hq
    obtain ⟨e, he, rfl⟩ := hps r hr
    obtain ⟨hkey, hstored, -⟩ := h.keyedLine_storedLine he
    exact ⟨hkey, by rw [hstored]; exact (h.isKey_storedLine he).1.1⟩
  values q hq := by
    obtain ⟨r, hr, rfl⟩ := List.mem_map.1 hq
    obtain ⟨e, he, rfl⟩ := hps r hr
    have hplain := h.readBack.plain e he
    exact ⟨hplain.oneLine, hplain.plain.trimmed, h.readBack.calls e he⟩
  clear := by
    rw [List.map_map, List.pairwise_map]
    refine hnodup.imp_of_mem fun {q r} hq hr hne => ?_
    obtain ⟨f, hf, rfl⟩ := hps q hq
    obtain ⟨e, he, rfl⟩ := hps r hr
    obtain ⟨hunsaid, htaken⟩ := h.clear_storedLine he hf hne
    obtain ⟨-, hstored, hparts⟩ := h.keyedLine_storedLine he
    obtain ⟨-, hstored', hparts'⟩ := h.keyedLine_storedLine hf
    refine ⟨?_, ?_⟩
    · rw [Key.Unsaid, h.stored_storedLine he, h.stored_storedLine hf] at hunsaid
      rwa [Key.Unsaid, Function.comp_apply, Function.comp_apply, hstored, hstored']
    · rw [Key.taken, Key.taken, h.stored_storedLine he, h.stored_storedLine hf] at htaken
      rwa [Key.taken, Key.taken, Function.comp_apply, Function.comp_apply, hparts, hparts', hstored,
        hstored']

/-- No line for a stored property is for the id. -/
theorem stored_ne_id {e : String × String} (he : e ∈ p.values.entries) :
    Key.stored (keyedLine p.written (storedLine p.values e)).1 ≠ "id" := by
  rw [(h.keyedLine_storedLine he).2.1]
  rcases storedLine_cases he with ⟨hline, -⟩ | ⟨key, first, a, second, b, hc, -, hline⟩
  · rw [hline]
    exact fun hid => h.id (hid ▸ Ledger.mem_keys he)
  · rw [hline]
    exact (Key.compound_plain hc.parts).2.2

end Properties.AreTellable

end Otui
