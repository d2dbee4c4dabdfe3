import Mathlib.Data.List.Basic
import Otui.Data.Notation

/-!
# Texts in single quotes

How Lua reads a text in single quotes (`quoted?`), and which texts are read as themselves when they
stand between the quotes as they are (`denotes_iff`): those without quotes, backslashes and line
breaks. With its backslash an escape is longer than what it stands for (`shortens_escape?`), so a
text with one is read as something shorter, whatever the escape is.
-/

namespace Otui.Lua

/-! ### Escapes -/

/-- The signs that stand for one byte behind a backslash. -/
def signs : List (Char × UInt8) :=
  [('a', 7), ('b', 8), ('f', 12), ('n', 10), ('r', 13), ('t', 9), ('v', 11), ('\\', 92), ('"', 34),
    ('\'', 39)]

/-- Whether a character breaks a line. -/
def isBreak (c : Char) : Bool := c == '\n' || c == '\r'

/-- The white space that an escape passes over. -/
def isSpace (c : Char) : Bool := c == ' ' || (9 ≤ c.toNat && c.toNat ≤ 13)

/-- Whether a character is a hexadecimal digit. -/
def isHexDigit (c : Char) : Bool := (Data.hexValue? c).isSome

/-- The number that digits say. -/
def numberOf (base : Nat) (digits : List Char) : Nat :=
  digits.foldl (fun n c => n * base + (Data.hexValue? c).getD 0) 0

/-- What comes after a line break; two different characters that break lines are one line break. -/
def afterBreak (first : Char) : List Char → List Char
  | [] => []
  | c :: cs => if isBreak c && c != first then cs else c :: cs

/-- A byte by one to three decimal digits, and what comes after them. -/
def decimal? (cs : List Char) : Option (List UInt8 × List Char) :=
  let digits := (cs.take 3).takeWhile Char.isDigit
  if numberOf 10 digits < 256 && !digits.isEmpty then
    some ([UInt8.ofNat (numberOf 10 digits)], cs.drop digits.length)
  else none

/-- A byte by two hexadecimal digits, and what comes after them. -/
def hexadecimal? : List Char → Option (List UInt8 × List Char)
  | a :: b :: cs =>
    if isHexDigit a && isHexDigit b then some ([UInt8.ofNat (numberOf 16 [a, b])], cs) else none
  | _ => none

/-- The bytes of a character by its number in braces, and what comes after them. -/
def codePoint? : List Char → Option (List UInt8 × List Char)
  | '{' :: cs =>
    let digits := cs.takeWhile isHexDigit
    match cs.dropWhile isHexDigit with
    | '}' :: rest =>
      if (numberOf 16 digits).isValidChar ∧ digits ≠ [] then
        some (String.utf8EncodeChar (Char.ofNat (numberOf 16 digits)), rest)
      else none
    | _ => none
  | _ => none

/-- The bytes that an escape stands for, of which the backslash has been read, and what comes after
the escape. -/
def escape? : List Char → Option (List UInt8 × List Char)
  | [] => none
  | c :: cs =>
    match signs.lookup c with
    | some byte => some ([byte], cs)
    | none =>
      if isBreak c then some ([10], afterBreak c cs)
      else if c == 'z' then some ([], cs.dropWhile isSpace)
      else if c == 'x' then hexadecimal? cs
      else if c == 'u' then codePoint? cs
      else decimal? (c :: cs)

/-- Bytes that are read from the first of some characters, no fewer than the bytes, and what comes
after these characters. -/
def Shortens (cs : List Char) (read : List UInt8 × List Char) : Prop :=
  ∃ used, cs = used ++ read.2 ∧ read.1.length ≤ used.length

theorem Shortens.cons {cs : List Char} {read : List UInt8 × List Char} (h : Shortens cs read)
    (c : Char) : Shortens (c :: cs) read := by
  obtain ⟨used, hcs, hle⟩ := h
  exact ⟨c :: used, by rw [hcs, List.cons_append], Nat.le_succ_of_le hle⟩

theorem shortens_decimal? {cs : List Char} {read : List UInt8 × List Char}
    (h : decimal? cs = some read) : Shortens cs read := by
  rw [decimal?] at h
  split at h
  · next hdigits =>
    cases h
    have hprefix : (cs.take 3).takeWhile Char.isDigit <+: cs :=
      (List.takeWhile_prefix _).trans (List.take_prefix 3 cs)
    refine ⟨(cs.take 3).takeWhile Char.isDigit, ?_, ?_⟩
    · exact (List.prefix_iff_eq_append.1 hprefix).symm
    · simp only [Bool.and_eq_true, Bool.not_eq_true', List.isEmpty_eq_false_iff] at hdigits
      exact List.length_pos_of_ne_nil hdigits.2
  · cases h

theorem shortens_hexadecimal? {cs : List Char} {read : List UInt8 × List Char}
    (h : hexadecimal? cs = some read) : Shortens cs read := by
  unfold hexadecimal? at h
  split at h
  · next a b cs =>
    split at h
    · cases h
      exact ⟨[a, b], rfl, by simp⟩
    · cases h
  · cases h

theorem shortens_codePoint? {cs : List Char} {read : List UInt8 × List Char}
    (h : codePoint? cs = some read) : Shortens ('u' :: cs) read := by
  unfold codePoint? at h
  split at h
  · next cs =>
    dsimp only at h
    split at h
    · next rest hrest =>
      split at h
      · next hdigits =>
        cases h
        refine ⟨'u' :: '{' :: cs.takeWhile isHexDigit ++ ['}'], ?_, ?_⟩
        · conv_lhs => rw [← List.takeWhile_append_dropWhile (p := isHexDigit) (l := cs), hrest]
          simp
        · have hlength := List.length_pos_of_ne_nil hdigits.2
          have hbytes := Char.utf8Size_le_four (Char.ofNat (numberOf 16 (cs.takeWhile isHexDigit)))
          rw [String.length_utf8EncodeChar]
          simp only [List.cons_append, List.length_cons, List.length_append, List.length_nil]
          omega
      · cases h
    · cases h
  · cases h

theorem shortens_afterBreak (first : Char) (cs : List Char) :
    Shortens cs ([], afterBreak first cs) := by
  cases cs with
  | nil => exact ⟨[], rfl, Nat.le_refl _⟩
  | cons c cs =>
    rw [afterBreak]
    split
    · exact ⟨[c], rfl, Nat.zero_le _⟩
    · exact ⟨[], rfl, Nat.le_refl _⟩

/-- An escape stands for no more bytes than it has characters behind the backslash. -/
theorem shortens_escape? {cs : List Char} {read : List UInt8 × List Char}
    (h : escape? cs = some read) : Shortens cs read := by
  unfold escape? at h
  split at h
  · cases h
  · next c cs =>
    split at h
    · cases h
      exact ⟨[c], rfl, Nat.le_refl _⟩
    · split at h
      · cases h
        obtain ⟨used, hcs, -⟩ := shortens_afterBreak c cs
        exact ⟨c :: used, congrArg (c :: ·) hcs, Nat.succ_le_of_lt (Nat.succ_pos _)⟩
      · split at h
        · cases h
          refine ⟨c :: cs.takeWhile isSpace, ?_, Nat.zero_le _⟩
          rw [List.cons_append, List.takeWhile_append_dropWhile]
        · split at h
          · exact (shortens_hexadecimal? h).cons c
          · split at h
            · next hu =>
              rw [beq_iff_eq] at hu
              exact hu ▸ shortens_codePoint? h
            · exact shortens_decimal? h

/-! ### Literals -/

/-- The bytes of the text that goes on up to the next quote that is no part of an escape, and what
comes after this quote. -/
def inside? : List Char → Option (List UInt8 × List Char)
  | [] => none
  | c :: cs =>
    if c == '\'' then some ([], cs)
    else if c == '\\' then
      match _h : escape? cs with
      | none => none
      | some (bytes, rest) => (inside? rest).map fun read => (bytes ++ read.1, read.2)
    else if isBreak c then none
    else (inside? cs).map fun read => (String.utf8EncodeChar c ++ read.1, read.2)
  termination_by cs => cs.length
  decreasing_by
    · obtain ⟨used, hcs, -⟩ := shortens_escape? _h
      simp only [hcs, List.length_cons, List.length_append]
      omega
    · simp

/-- The bytes of a text in single quotes, and what comes after it. -/
def quoted? : List Char → Option (List UInt8 × List Char)
  | '\'' :: cs => inside? cs
  | _ => none

/-- Source that starts with a text in single quotes says a text if it is read as its bytes. -/
def Denotes (source : List Char) (s : String) : Prop :=
  ∃ bytes rest, quoted? source = some (bytes, rest) ∧ bytes.toByteArray = s.toUTF8

/-- Whether a character can stand between the quotes as it is. -/
def isPlain (c : Char) : Bool := c != '\'' && c != '\\' && !isBreak c

/-- The bytes of some characters. -/
def bytesOf (cs : List Char) : List UInt8 := cs.flatMap String.utf8EncodeChar

theorem bytesOf_cons (c : Char) (cs : List Char) :
    bytesOf (c :: cs) = String.utf8EncodeChar c ++ bytesOf cs :=
  List.flatMap_cons

theorem bytesOf_append (cs ds : List Char) : bytesOf (cs ++ ds) = bytesOf cs ++ bytesOf ds :=
  List.flatMap_append

theorem toByteArray_eq_toUTF8_iff {bytes : List UInt8} {s : String} :
    bytes.toByteArray = s.toUTF8 ↔ bytes = bytesOf s.toList := by
  have hs : s.toUTF8 = (bytesOf s.toList).toByteArray := by
    conv_lhs => rw [← String.ofList_toList (s := s)]
    rw [String.toUTF8_eq_toByteArray, String.toByteArray_ofList]
    rfl
  rw [hs, List.toByteArray_inj]

theorem length_le_length_bytesOf (cs : List Char) : cs.length ≤ (bytesOf cs).length := by
  induction cs with
  | nil => exact Nat.le_refl _
  | cons c cs ih =>
    have hc := Char.utf8Size_pos c
    rw [bytesOf_cons, List.length_append, String.length_utf8EncodeChar, List.length_cons]
    omega

theorem inside?_cons_of_isPlain {c : Char} (h : isPlain c = true) (cs : List Char) :
    inside? (c :: cs)
      = (inside? cs).map fun read => (String.utf8EncodeChar c ++ read.1, read.2) := by
  simp only [isPlain, Bool.and_eq_true, bne_iff_ne, Bool.not_eq_true'] at h
  rw [inside?]
  simp only [beq_iff_eq, h.1.1, h.1.2, h.2, if_false, Bool.false_eq_true]

/-- Plain characters are read as themselves. -/
theorem inside?_append {cs : List Char} (h : ∀ c ∈ cs, isPlain c = true) (rest : List Char) :
    inside? (cs ++ '\'' :: rest) = some (bytesOf cs, rest) := by
  induction cs with
  | nil =>
    rw [List.nil_append, inside?]
    rfl
  | cons c cs ih =>
    obtain ⟨hc, hcs⟩ := List.forall_mem_cons.1 h
    rw [List.cons_append, inside?_cons_of_isPlain hc, ih hcs, bytesOf_cons]
    rfl

/-- What is read up to a quote is shorter than its source, unless all characters are plain. -/
theorem exists_used_of_inside? {cs : List Char} {read : List UInt8 × List Char}
    (h : inside? cs = some read) :
    ∃ used, cs = used ++ '\'' :: read.2
      ∧ (read.1.length < (bytesOf used).length
        ∨ read.1.length = (bytesOf used).length ∧ ∀ c ∈ used, isPlain c = true) := by
  fun_induction inside? cs generalizing read with
  | case1 => cases h
  | case2 c cs hquote =>
    -- the quote at the end
    cases h
    exact ⟨[], by rw [beq_iff_eq.1 hquote, List.nil_append], .inr ⟨rfl, by simp⟩⟩
  | case3 c cs hquote hbackslash hnone => cases h
  | case4 c cs hquote hbackslash bytes rest hescape ih =>
    -- an escape, which is longer than its bytes
    obtain ⟨⟨more, after⟩, hmore, rfl⟩ := Option.map_eq_some_iff.1 h
    obtain ⟨used, hused, hlength⟩ := ih hmore
    obtain ⟨escape, hcs, hescape⟩ := shortens_escape? hescape
    refine ⟨c :: (escape ++ used), ?_, .inl ?_⟩
    · rw [hcs, List.cons_append, List.append_assoc, ← hused]
    · have hle := length_le_length_bytesOf (c :: escape)
      have hmore : more.length ≤ (bytesOf used).length :=
        hlength.elim Nat.le_of_lt fun heq => Nat.le_of_eq heq.1
      have hbytes : bytes.length ≤ escape.length := hescape
      rw [List.length_cons] at hle
      rw [← List.cons_append, bytesOf_append, List.length_append, List.length_append]
      omega
  | case5 c cs hquote hbackslash hbreak => cases h
  | case6 c cs hquote hbackslash hbreak ih =>
    -- another character, which is plain
    obtain ⟨⟨more, after⟩, hmore, rfl⟩ := Option.map_eq_some_iff.1 h
    obtain ⟨used, hused, hlength⟩ := ih hmore
    have hplain : isPlain c = true := by
      simp only [isPlain, Bool.and_eq_true, bne_iff_ne, Bool.not_eq_true']
      exact ⟨⟨by simpa using hquote, by simpa using hbackslash⟩, by simpa using hbreak⟩
    refine ⟨c :: used, congrArg (c :: ·) hused, ?_⟩
    rw [bytesOf_cons, List.length_append, List.length_append, List.forall_mem_cons]
    rcases hlength with hlt | ⟨heq, hall⟩
    · exact .inl (Nat.add_lt_add_left hlt _)
    · exact .inr ⟨congrArg _ heq, hplain, hall⟩

/-- **Literals.** Between quotes a text says itself exactly when all its characters are plain. What
comes behind the second quote must have no other one, which could end the text as well. -/
theorem denotes_iff (s : String) {after : List Char} (hafter : '\'' ∉ after) :
    Denotes ('\'' :: s.toList ++ '\'' :: after) s ↔ ∀ c ∈ s.toList, isPlain c = true := by
  constructor
  · rintro ⟨bytes, rest, hread, hbytes⟩
    rw [toByteArray_eq_toUTF8_iff] at hbytes
    subst hbytes
    obtain ⟨used, hused, hlength⟩ := exists_used_of_inside? hread
    have hle : (bytesOf s.toList).length ≤ (bytesOf used).length :=
      hlength.elim Nat.le_of_lt fun heq => Nat.le_of_eq heq.1
    rcases List.append_eq_append_iff.1 hused with ⟨more, rfl, hmore⟩ | ⟨more, hs, -⟩
    · -- the text that was read does not end before the second quote
      cases more with
      | nil =>
        rw [List.append_nil] at hlength
        exact hlength.elim (fun hlt => absurd hlt (Nat.lt_irrefl _)) And.right
      | cons c more =>
        rw [List.cons_append] at hmore
        exact absurd ((List.cons.inj hmore).2 ▸ by simp) hafter
    · -- it does not end before either, where it has too few bytes
      rw [hs, bytesOf_append, List.length_append] at hle
      have hnil : more = [] := by
        apply List.eq_nil_of_length_eq_zero
        have := length_le_length_bytesOf more
        omega
      rw [hnil, List.append_nil] at hs
      rw [hs] at hlength ⊢
      exact hlength.elim (fun hlt => absurd hlt (Nat.lt_irrefl _)) And.right
  · intro h
    exact ⟨bytesOf s.toList, after, inside?_append h after, toByteArray_eq_toUTF8_iff.2 rfl⟩

/-- A quote in a text ends it, unless it is part of an escape. -/
example : quoted? "'it\\'s')".toList = some (bytesOf "it's".toList, [')'])
    ∧ quoted? "'it's')".toList = some (bytesOf "it".toList, ['s', '\'', ')']) := by
  decide +kernel

end Otui.Lua
