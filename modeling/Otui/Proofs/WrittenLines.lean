import Otui.Document.Printer
import Otui.Document.Reader
import Otui.Proofs.Trimming
import Mathlib.Data.List.Forall2

/-!
# What a written line reads as

A written line is read for what it says: its level comes back from the blanks in front of it, a
header as an opening, an id and a property as a property in the form `key: value`. Only the white
space around a value is lost, and its quotes are taken off. `lines_textOf` says this of all the
lines of a text that was written from blocks.
-/

namespace Otui.Document

open Otui.Text

/-! ### What lines have to be like -/

/-- A name that starts a widget: a capital letter, then letters, digits and underscores. -/
def IsWidgetName (name : String) : Prop :=
  ∃ c cs, name.toList = c :: cs ∧ c.isUpper = true ∧ cs.all isNameChar = true

theorem IsWidgetName.ne_empty {name : String} (h : IsWidgetName name) : name ≠ "" := by
  obtain ⟨c, cs, hn, -⟩ := h
  rintro rfl
  cases hn

/-- A key that can stand in the form `key: value`. -/
def IsKey (key : String) : Prop := key ≠ "" ∧ ∀ c ∈ key.toList, isColonKeyChar c = true

theorem isKey_of_all {key : String}
    (h : key ≠ "" ∧ key.toList.all isColonKeyChar = true) : IsKey key :=
  ⟨h.1, List.all_eq_true.1 h.2⟩

theorem IsKey.toList_ne_nil {key : String} (h : IsKey key) : key.toList ≠ [] :=
  fun hnil => h.1 (String.toList_eq_nil_iff.1 hnil)

/-- A text on one line. -/
def OnOneLine (s : String) : Prop := '\n' ∉ s.toList

/-- A line that can be read again. -/
def Said.IsReadable : Said → Prop
  | .header name base => IsWidgetName name ∧ ∀ b ∈ base, isTypeName b.toList = true
  | .id name => OnOneLine name
  | .property key value => IsKey key ∧ OnOneLine value
  | .size width height => OnOneLine width ∧ OnOneLine height

/-- What the form `key: value` reads as. -/
def Content.ofColon (key value : String) : Content :=
  .property key (stripQuotes (trim value)) (trim value)

/-- What a written line reads as. -/
def Said.content : Said → Content
  | .header name base => .opening name base
  | .id name => .ofColon "id" name
  | .property key value => .ofColon key value
  | .size width height => .ofColon "size" (width ++ " " ++ height)

/-! ### Characters -/

theorem isUpper_iff {c : Char} : c.isUpper = true ↔ 65 ≤ c.toNat ∧ c.toNat ≤ 90 := by
  change decide (c.val ≥ 'A'.val ∧ c.val ≤ 'Z'.val) = true ↔ _
  rw [decide_eq_true_eq, ge_iff_le, UInt32.le_iff_toNat_le, UInt32.le_iff_toNat_le]
  rfl

theorem isLower_iff {c : Char} : c.isLower = true ↔ 97 ≤ c.toNat ∧ c.toNat ≤ 122 := by
  change (decide (c.val ≥ 'a'.val) && decide (c.val ≤ 'z'.val)) = true ↔ _
  rw [Bool.and_eq_true, decide_eq_true_eq, decide_eq_true_eq, ge_iff_le, UInt32.le_iff_toNat_le,
    UInt32.le_iff_toNat_le]
  rfl

theorem isAlpha_iff {c : Char} : c.isAlpha = true ↔ c.isUpper = true ∨ c.isLower = true :=
  Bool.or_eq_true_iff

theorem isNameChar_of_isAlpha {c : Char} (h : c.isAlpha = true) : isNameChar c = true := by
  simp [isNameChar, Char.isAlphanum, h]

theorem isNameChar_of_isUpper {c : Char} (h : c.isUpper = true) : isNameChar c = true :=
  isNameChar_of_isAlpha (isAlpha_iff.2 (.inl h))

theorem not_isBlank_of_isNameChar {c : Char} (h : isNameChar c = true) : isBlank c = false := by
  simp only [isNameChar, Char.isAlphanum, Bool.or_eq_true, beq_iff_eq, isAlpha_iff, isUpper_iff,
    isLower_iff, Char.isDigit_iff_toNat] at h
  simp only [isBlank, Bool.or_eq_false_iff, Bool.and_eq_false_iff, decide_eq_false_iff_not,
    beq_eq_false_iff_ne]
  rcases h with ((h | h) | h) | rfl
  · omega
  · omega
  · have h1 : 48 ≤ c.toNat := h.1
    have h2 : c.toNat ≤ 57 := h.2
    omega
  · decide

theorem not_isBlank_of_isColonKeyChar {c : Char} (h : isColonKeyChar c = true) :
    isBlank c = false := by
  simp only [isColonKeyChar, isKeyChar, Bool.or_eq_true, beq_iff_eq] at h
  rcases h with (((h | rfl) | rfl) | rfl) | rfl
  · exact not_isBlank_of_isNameChar (isNameChar_of_isAlpha h)
  all_goals decide

theorem ne_of_isColonKeyChar {c d : Char} (h : isColonKeyChar c = true)
    (hd : isColonKeyChar d = false) : c ≠ d := by
  rintro rfl
  rw [h] at hd
  cases hd

theorem newline_not_mem_of_isKey {key : String} (h : IsKey key) : OnOneLine key :=
  fun hm => ne_of_isColonKeyChar (h.2 _ hm) (by decide) rfl

/-! ### Properties -/

/-- Whatever starts with a key and a colon is no opening. -/
theorem opening?_colon {key : List Char} (hne : key ≠ [])
    (hk : ∀ c ∈ key, isColonKeyChar c = true) (rest : List Char) :
    opening? (key ++ ':' :: rest) = none := by
  have hsplit : ∃ x xs, (key ++ ':' :: rest).dropWhile isNameChar = x :: xs
      ∧ isBlank x = false ∧ x ≠ '<' := by
    clear hne
    induction key with
    | nil => exact ⟨':', rest, by simp [show isNameChar ':' = false by decide], by decide, by decide⟩
    | cons c key ih =>
      by_cases hc : isNameChar c = true
      · obtain ⟨x, xs, hx⟩ := ih fun d hd => hk d (by simp [hd])
        exact ⟨x, xs, by rw [List.cons_append, List.dropWhile_cons_of_pos hc]; exact hx.1, hx.2⟩
      · have hkc := hk c (by simp)
        exact ⟨c, key ++ ':' :: rest, by rw [List.cons_append, List.dropWhile_cons_of_neg hc],
          not_isBlank_of_isColonKeyChar hkc, ne_of_isColonKeyChar hkc (by decide)⟩
  obtain ⟨x, xs, hx, hb, hlt⟩ := hsplit
  have hbase : baseAfter? (x :: xs) = none := by
    rw [baseAfter?, trimStartChars_cons hb]
    simp only [List.isEmpty_cons, Bool.false_eq_true, if_false]
    split
    · next h => exact absurd (List.cons.inj h).1 hlt
    · rfl
  have htype : typeLine? (key ++ ':' :: rest) = none := by
    unfold typeLine?
    simp only [hx, hbase, Option.map_none, ite_self]
  obtain ⟨c, cs, rfl⟩ := List.exists_cons_of_ne_nil hne
  rw [List.cons_append] at htype ⊢
  rw [opening?, htype, ite_self]

theorem colonProperty?_colon {key : List Char} (hne : key ≠ [])
    (hk : ∀ c ∈ key, isColonKeyChar c = true) (rest : List Char) :
    colonProperty? (key ++ ':' :: rest)
      = some (.property (String.ofList key) (stripQuotes (String.ofList (trimChars rest)))
          (String.ofList (trimChars rest))) := by
  have hcolon : isColonKeyChar ':' = false := by decide
  have hk' : key.isEmpty = false := by simpa using hne
  simp [colonProperty?, List.takeWhile_append_of_pos hk, List.dropWhile_append_of_pos hk, hcolon,
    hk']

/-- The form `key: value` is read for its key and its value. -/
theorem contentOf_colon {key value : String} (hk : IsKey key) (indent : Nat) :
    contentOf indent (key.toList ++ ':' :: trimEndChars (' ' :: value.toList))
      = .ofColon key value := by
  rw [contentOf, opening?_colon hk.toList_ne_nil hk.2, colonProperty?_colon hk.toList_ne_nil hk.2,
    trimChars_trimEndChars, trimChars_cons_blank (by decide)]
  simp [Content.ofColon, trim]

/-! ### Headers -/

theorem isTypeName_of_isWidgetName {name : String} (h : IsWidgetName name) :
    isTypeName name.toList = true := by
  obtain ⟨c, cs, hn, hc, hcs⟩ := h
  simp [hn, isTypeName, isAlpha_iff.2 (.inl hc), hcs]

theorem isNameChar_of_isTypeName {cs : List Char} (h : isTypeName cs = true) :
    ∀ c ∈ cs, isNameChar c = true := by
  cases cs with
  | nil => simp
  | cons d ds =>
    simp only [isTypeName, Bool.and_eq_true, List.all_eq_true] at h
    intro c hc
    rcases List.mem_cons.1 hc with rfl | hc
    · exact isNameChar_of_isAlpha h.1
    · exact h.2 c hc

theorem opening?_of_isWidgetName {name : String} (h : IsWidgetName name) {cs : List Char}
    (rest : List Char) (hcs : cs = name.toList ++ rest) : opening? cs = typeLine? cs := by
  obtain ⟨c, r, hn, hc, -⟩ := h
  rw [hn, List.cons_append] at hcs
  subst hcs
  simp [opening?, hc]

/-- A name alone opens a widget. -/
theorem contentOf_name {name : String} (hn : IsWidgetName name) (indent : Nat) :
    contentOf indent name.toList = .opening name none := by
  have htype := isTypeName_of_isWidgetName hn
  have hall := isNameChar_of_isTypeName htype
  have htake : name.toList.takeWhile isNameChar = name.toList :=
    List.takeWhile_eq_self_iff.2 hall
  have hdrop : name.toList.dropWhile isNameChar = [] :=
    List.dropWhile_eq_nil_iff.2 hall
  have hline : typeLine? name.toList = some (name, none) := by
    simp [typeLine?, htake, hdrop, htype, baseAfter?]
  rw [contentOf, opening?_of_isWidgetName hn [] (List.append_nil _).symm, hline]

/-- A name with a base opens a template. -/
theorem contentOf_name_base {name base : String} (hn : IsWidgetName name)
    (hb : isTypeName base.toList = true) (indent : Nat) :
    contentOf indent (name.toList ++ ' ' :: '<' :: ' ' :: base.toList)
      = .opening name (some base) := by
  have htype := isTypeName_of_isWidgetName hn
  have hall := isNameChar_of_isTypeName htype
  have hblank : isNameChar ' ' = false := by decide
  have hbase : trimStartChars base.toList = base.toList := by
    cases h : base.toList with
    | nil => rfl
    | cons c cs =>
      exact trimStartChars_cons (not_isBlank_of_isNameChar
        (isNameChar_of_isTypeName hb c (by simp [h])))
  have hafter : baseAfter? (' ' :: '<' :: ' ' :: base.toList) = some (some base) := by
    have h1 : trimStartChars (' ' :: '<' :: ' ' :: base.toList) = '<' :: ' ' :: base.toList := by
      simp [trimStartChars, show isBlank ' ' = true by decide, show isBlank '<' = false by decide]
    have h2 : trimStartChars (' ' :: base.toList) = base.toList := by
      conv_rhs => rw [← hbase]
      simp [trimStartChars, show isBlank ' ' = true by decide]
    simp [baseAfter?, h1, h2, hb]
  have hline : typeLine? (name.toList ++ ' ' :: '<' :: ' ' :: base.toList)
      = some (name, some base) := by
    simp [typeLine?, List.takeWhile_append_of_pos hall, List.dropWhile_append_of_pos hall, hblank,
      htype, hafter]
  rw [contentOf, opening?_of_isWidgetName hn _ rfl, hline]

/-! ### Lines -/

/-- What a line starts with: no white space, and nothing that makes it a comment. -/
def StartsPlain (cs : List Char) : Prop :=
  ∃ c r, cs = c :: r ∧ isBlank c = false ∧ c ≠ '#' ∧ c ≠ '/'

theorem StartsPlain.of_isColonKeyChar {key rest : List Char} (hne : key ≠ [])
    (hk : ∀ c ∈ key, isColonKeyChar c = true) : StartsPlain (key ++ rest) := by
  obtain ⟨c, cs, rfl⟩ := List.exists_cons_of_ne_nil hne
  have hc := hk c (by simp)
  exact ⟨c, cs ++ rest, rfl, not_isBlank_of_isColonKeyChar hc, ne_of_isColonKeyChar hc (by decide),
    ne_of_isColonKeyChar hc (by decide)⟩

theorem StartsPlain.of_isWidgetName {name : String} (h : IsWidgetName name) (rest : List Char) :
    StartsPlain (name.toList ++ rest) := by
  obtain ⟨c, cs, hn, hc, -⟩ := h
  have hc' : isNameChar c = true := isNameChar_of_isUpper hc
  refine ⟨c, cs ++ rest, by rw [hn]; rfl, not_isBlank_of_isNameChar hc', ?_, ?_⟩
  · rintro rfl; revert hc'; decide
  · rintro rfl; revert hc'; decide

theorem StartsPlain.not_isTrivia {cs : List Char} (h : StartsPlain cs) : isTrivia cs = false := by
  obtain ⟨c, r, rfl, -, h1, h2⟩ := h
  unfold isTrivia
  split <;> simp_all

/-- A text that starts plainly and, trimmed, is read as some content. -/
def Reads (cs : List Char) (content : Content) : Prop :=
  StartsPlain cs ∧ ∀ indent, contentOf indent (trimChars cs) = content

theorem trimChars_colon {key : String} (hk : IsKey key) (value : String) :
    trimChars (key.toList ++ ':' :: ' ' :: value.toList)
      = key.toList ++ ':' :: trimEndChars (' ' :: value.toList) := by
  obtain ⟨c, cs, hcs⟩ := List.exists_cons_of_ne_nil hk.toList_ne_nil
  have hc := not_isBlank_of_isColonKeyChar (hk.2 c (by simp [hcs]))
  rw [hcs, List.cons_append, trimChars_cons hc,
    trimEndChars_append_cons (show isBlank ':' = false by decide)]
  rfl

theorem reads_colon {key : String} (hk : IsKey key) (value : String) :
    Reads (key.toList ++ ':' :: ' ' :: value.toList) (.ofColon key value) := by
  refine ⟨.of_isColonKeyChar hk.toList_ne_nil hk.2, fun indent => ?_⟩
  rw [trimChars_colon hk]
  exact contentOf_colon hk indent

/-- White space that was dropped at the end of a property does not matter. -/
theorem reads_trimEnd {key : String} (hk : IsKey key) (value : String) :
    Reads (trimEnd (key ++ ": " ++ value)).toList (.ofColon key value) := by
  have htext : (key ++ ": " ++ value).toList = key.toList ++ ':' :: ' ' :: value.toList := by simp
  rw [trimEnd, String.toList_ofList, htext]
  refine ⟨?_, fun indent => ?_⟩
  · rw [trimEndChars_append_cons (show isBlank ':' = false by decide)]
    exact .of_isColonKeyChar hk.toList_ne_nil hk.2
  · rw [trimChars_trimEndChars]
    exact (reads_colon hk value).2 indent

theorem reads_name {name : String} (h : IsWidgetName name) :
    Reads name.toList (.opening name none) := by
  refine ⟨by simpa using StartsPlain.of_isWidgetName h [], fun indent => ?_⟩
  have hb : ∀ c ∈ name.toList, isBlank c = false := fun c hc =>
    not_isBlank_of_isNameChar (isNameChar_of_isTypeName (isTypeName_of_isWidgetName h) c hc)
  have hself : trimChars name.toList = name.toList := by
    obtain ⟨c, cs, hcs, -, -⟩ := h
    rw [hcs] at hb ⊢
    rw [trimChars_cons (hb c (by simp))]
    exact congrArg _ (List.rdropWhile_eq_self_iff.2 fun hne => by
      simp [hb _ (List.mem_cons_of_mem _ (List.getLast_mem hne))])
  rw [hself]
  exact contentOf_name h indent

theorem reads_name_base {name base : String} (h : IsWidgetName name)
    (hb : isTypeName base.toList = true) :
    Reads (name.toList ++ ' ' :: '<' :: ' ' :: base.toList) (.opening name (some base)) := by
  refine ⟨.of_isWidgetName h _, fun indent => ?_⟩
  have hself : trimChars (name.toList ++ ' ' :: '<' :: ' ' :: base.toList)
      = name.toList ++ ' ' :: '<' :: ' ' :: base.toList := by
    obtain ⟨c, cs, hcs, hc, -⟩ := h
    obtain ⟨bs, d, hbs⟩ : ∃ bs d, base.toList = bs ++ [d] := by
      rcases List.eq_nil_or_concat base.toList with h0 | ⟨bs, d, h0⟩
      · rw [h0] at hb; cases hb
      · exact ⟨bs, d, h0.trans (List.concat_eq_append ..)⟩
    have hc' := not_isBlank_of_isNameChar (isNameChar_of_isUpper hc)
    have hd' := not_isBlank_of_isNameChar (isNameChar_of_isTypeName hb d (by simp [hbs]))
    rw [hcs, hbs]
    have hends : trimChars (c :: ((cs ++ ' ' :: '<' :: ' ' :: bs) ++ [d]))
        = c :: ((cs ++ ' ' :: '<' :: ' ' :: bs) ++ [d]) := trimChars_eq_self hc' hd'
    simpa using hends
  rw [hself]
  exact contentOf_name_base h hb indent

/-- A readable line says what it was written for. -/
theorem Said.reads {s : Said} (h : s.IsReadable) : Reads s.text.toList s.content := by
  cases s with
  | header name base =>
    cases base with
    | none => exact reads_name h.1
    | some base =>
      have htext : (Said.header name (some base)).text.toList
          = name.toList ++ ' ' :: '<' :: ' ' :: base.toList := by
        simp [Said.text]
      rw [htext]
      exact reads_name_base h.1 (h.2 base rfl)
  | id name =>
    have hkey : IsKey "id" := isKey_of_all (by decide)
    have htext : (Said.id name).text.toList = "id".toList ++ ':' :: ' ' :: name.toList := by
      simp [Said.text]
    rw [htext]
    exact reads_colon hkey name
  | property key value => exact reads_trimEnd h.1 value
  | size width height =>
    have hkey : IsKey "size" := isKey_of_all (by decide)
    have htext : (Said.size width height).text.toList
        = "size".toList ++ ':' :: ' ' :: (width ++ " " ++ height).toList := by
      simp [Said.text]
    rw [htext]
    exact reads_colon hkey _

/-- A readable line has no line feed in it. -/
theorem Said.onOneLine_text {s : Said} (h : s.IsReadable) : OnOneLine s.text := by
  have hname : ∀ {cs : List Char}, isTypeName cs = true → '\n' ∉ cs := fun ht hm => by
    have := isNameChar_of_isTypeName ht _ hm
    revert this
    decide
  unfold OnOneLine
  cases s with
  | header name base =>
    have hn := hname (isTypeName_of_isWidgetName h.1)
    cases base with
    | none => exact hn
    | some base => simp [Said.text, hn, hname (h.2 base rfl)]
  | id name =>
    have hn : '\n' ∉ name.toList := h
    simp [Said.text, hn]
  | property key value =>
    intro hm
    rw [Said.text, trimEnd, String.toList_ofList] at hm
    have hm' := mem_of_mem_trimEndChars hm
    have hk := newline_not_mem_of_isKey h.1
    have hv := h.2
    unfold OnOneLine at hk hv
    simp [hk, hv] at hm'
  | size width height =>
    obtain ⟨hw, hh⟩ := h
    unfold OnOneLine at hw hh
    simp [Said.text, hw, hh]

/-! ### Documents -/

/-- A line of a document that reads as a written line says. -/
def Line.Says (l : Line) (w : WrittenLine) : Prop :=
  l.indent = 2 * w.level ∧ l.content = w.said.content

theorem Line.Says.level {l : Line} {w : WrittenLine} (h : l.Says w) : l.level = w.level := by
  rw [Line.level, h.1]
  omega

/-- A line of text without the carriage returns at its end. -/
def withoutReturns (cs : List Char) : List Char := dropEndWhile (· == '\r') cs

/-- A written line is a content line that says what was written. -/
theorem read?_text {w : WrittenLine} (h : w.said.IsReadable) (number : Nat) :
    ∃ l, ContentLine.read? number (withoutReturns w.text.toList) = some l
      ∧ (Line.ofText l).Says w := by
  obtain ⟨⟨c, r, hcs, hc, h1, h2⟩, hread⟩ := Said.reads h
  have hblanks : ∀ d ∈ List.replicate (2 * w.level) ' ', isBlank d = true := by
    intro d hd
    rw [List.eq_of_mem_replicate hd]
    decide
  have hcr : (c == '\r') = false := by
    rw [beq_eq_false_iff_ne]
    rintro rfl
    revert hc
    decide
  have htext : withoutReturns w.text.toList
      = List.replicate (2 * w.level) ' ' ++ c :: dropEndWhile (· == '\r') r := by
    rw [withoutReturns, WrittenLine.text, String.toList_append, String.toList_ofList, hcs]
    exact dropEndWhile_append_cons hcr
  have hreturn : ∀ d, (d == '\r') = true → isBlank d = true := by
    intro d hd
    rw [beq_iff_eq.1 hd]
    decide
  have htrim : trimChars (withoutReturns w.text.toList) = trimChars w.said.text.toList := by
    rw [withoutReturns, trimChars_dropEndWhile hreturn, WrittenLine.text, String.toList_append,
      String.toList_ofList, trimChars_append_left hblanks]
  have hindent : blanksInFront (withoutReturns w.text.toList) = 2 * w.level := by
    rw [htext, blanksInFront, List.takeWhile_append_of_pos hblanks,
      List.takeWhile_cons_of_neg (by simp [hc])]
    simp
  have hplain : isTrivia (trimChars w.said.text.toList) = false := by
    rw [hcs, trimChars_cons hc]
    exact StartsPlain.not_isTrivia ⟨c, _, rfl, hc, h1, h2⟩
  refine ⟨⟨number, 2 * w.level, trimChars w.said.text.toList⟩, ?_, rfl, hread _⟩
  simp only [ContentLine.read?, htrim, hindent, hplain, Bool.false_eq_true, if_false]

/-- The lines of text of blocks: each block is followed by an empty line. -/
def pieces (blocks : List (List WrittenLine)) : List (List Char) :=
  blocks.flatMap fun ls => ls.map (fun w => w.text.toList) ++ [[]]

/-- Blocks that can be read again. -/
def AreReadable (blocks : List (List WrittenLine)) : Prop :=
  ∀ ls ∈ blocks, ls ≠ [] ∧ ∀ w ∈ ls, w.said.IsReadable

theorem newline_not_mem_text {w : WrittenLine} (h : w.said.IsReadable) : '\n' ∉ w.text.toList := by
  have hs : '\n' ∉ w.said.text.toList := Said.onOneLine_text h
  simp [WrittenLine.text, hs]

theorem cutChars_join {ls : List WrittenLine} (hne : ls ≠ [])
    (h : ∀ w ∈ ls, w.said.IsReadable) :
    cutChars '\n' (join "\n" (ls.map WrittenLine.text)).toList
      = ls.map fun w => w.text.toList := by
  rw [join, String.toList_intercalate, List.map_map]
  refine cutChars_intercalate (by simpa using hne) fun p hp => ?_
  obtain ⟨w, hw, rfl⟩ := List.mem_map.1 hp
  exact newline_not_mem_text (h w hw)

/-- Cutting a written text gives its lines and the empty ones between blocks. -/
theorem cutChars_textOf {blocks : List (List WrittenLine)} (hne : blocks ≠ [])
    (h : AreReadable blocks) : cutChars '\n' (textOf blocks).toList = pieces blocks := by
  induction blocks with
  | nil => exact absurd rfl hne
  | cons ls rest ih =>
    have hls := h ls (by simp)
    have hcut := cutChars_join hls.1 hls.2
    cases rest with
    | nil =>
      have htext : (textOf [ls]).toList
          = (join "\n" (ls.map WrittenLine.text)).toList ++ '\n' :: [] := by
        simp [textOf, join]
      rw [htext, cutChars_append_cons, hcut]
      simp [pieces, cutChars]
    | cons ks rest =>
      have htext : (textOf (ls :: ks :: rest)).toList
          = (join "\n" (ls.map WrittenLine.text)).toList
            ++ '\n' :: ('\n' :: (textOf (ks :: rest)).toList) := by
        simp [textOf, join, String.toList_intercalate]
      rw [htext, cutChars_append_cons, hcut, cutChars, if_pos rfl,
        ih (by simp) fun l hl => h l (by simp [hl])]
      simp [pieces]

theorem forall₂_contentLinesFrom {ls : List WrittenLine} (h : ∀ w ∈ ls, w.said.IsReadable)
    (number : Nat) :
    List.Forall₂ Line.Says
      ((contentLinesFrom number (ls.map fun w => withoutReturns w.text.toList)).map Line.ofText)
      ls := by
  induction ls generalizing number with
  | nil => exact .nil
  | cons w ls ih =>
    obtain ⟨l, hl, hs⟩ := read?_text (h w (by simp)) number
    rw [List.map_cons, contentLinesFrom, hl]
    exact .cons hs (ih (fun v hv => h v (by simp [hv])) _)

theorem forall₂_pieces {blocks : List (List WrittenLine)} (h : AreReadable blocks)
    (number : Nat) :
    List.Forall₂ Line.Says
      ((contentLinesFrom number ((pieces blocks).map withoutReturns)).map Line.ofText)
      blocks.flatten := by
  induction blocks generalizing number with
  | nil => exact .nil
  | cons ls rest ih =>
    have hpieces : (pieces (ls :: rest)).map withoutReturns
        = (ls.map fun w => withoutReturns w.text.toList)
          ++ ([[]] ++ (pieces rest).map withoutReturns) := by
      simp [pieces, withoutReturns, dropEndWhile]
    rw [hpieces, contentLinesFrom_append, contentLinesFrom_append, contentLinesFrom_empty,
      List.nil_append, List.map_append, List.flatten_cons]
    exact List.rel_append (forall₂_contentLinesFrom (h ls (by simp)).2 _)
      (ih (fun l hl => h l (by simp [hl])) _)

/-- **Lines**: the lines of a text that was written from blocks say, in order, what the lines of the
blocks say. -/
theorem lines_textOf {blocks : List (List WrittenLine)} (hne : blocks ≠ [])
    (h : AreReadable blocks) :
    List.Forall₂ Line.Says (lines (textOf blocks)) blocks.flatten := by
  have hlines : Text.lines (textOf blocks) = (pieces blocks).map withoutReturns := by
    rw [Text.lines, cutChars_textOf hne h]
    rfl
  rw [lines, contentLines, hlines]
  exact forall₂_pieces h 1

end Otui.Document
