/-!
# White space

Which characters are white space, and the three things that the library does with it: trimming a
text, counting the white space in front of it, and cutting it into words. A line feed is white
space too; texts are cut into lines first (`Otui.Text.Lines`).
-/

namespace Otui.Text

/-- White space: the separators of Unicode and the control characters that separate. The zero
width space U+200B and the byte order mark U+FEFF are not among them. -/
def isBlank (c : Char) : Bool :=
  let n := c.toNat
  (0x09 ≤ n && n ≤ 0x0D) || (0x1C ≤ n && n ≤ 0x20) || n == 0x85 || n == 0xA0 || n == 0x1680
    || (0x2000 ≤ n && n ≤ 0x200A) || n == 0x2028 || n == 0x2029 || n == 0x202F || n == 0x205F
    || n == 0x3000

/-! ### Trimming -/

/-- Drops white space in front. -/
def trimStartChars (cs : List Char) : List Char := cs.dropWhile isBlank

/-- Drops the characters at the end that satisfy a test. -/
def dropEndWhile (p : Char → Bool) (cs : List Char) : List Char :=
  (cs.reverse.dropWhile p).reverse

/-- Drops white space at the end. -/
def trimEndChars (cs : List Char) : List Char := dropEndWhile isBlank cs

/-- Drops white space at both ends. -/
def trimChars (cs : List Char) : List Char := trimEndChars (trimStartChars cs)

/-- The text without white space at its ends. -/
def trim (s : String) : String := String.ofList (trimChars s.toList)

/-- The text without white space at its end. -/
def trimEnd (s : String) : String := String.ofList (trimEndChars s.toList)

/-- How many characters of white space stand in front. -/
def blanksInFront (cs : List Char) : Nat := (cs.takeWhile isBlank).length

/-! ### Words -/

/-- The maximal runs of other characters between white space, in order. -/
def wordsChars : List Char → List (List Char)
  | [] => []
  | c :: cs =>
    if isBlank c then wordsChars cs
    else (c :: cs.takeWhile (!isBlank ·)) :: wordsChars (cs.dropWhile (!isBlank ·))
  termination_by cs => cs.length
  decreasing_by
    · simp
    · have := (List.dropWhile_suffix (!isBlank ·) (l := cs)).length_le
      simp only [List.length_cons]
      omega

/-- The words of a text. -/
def words (s : String) : List String := (wordsChars s.toList).map String.ofList

/-- No word holds white space, and none is empty. -/
theorem mem_wordsChars {w cs : List Char} (h : w ∈ wordsChars cs) :
    w ≠ [] ∧ ∀ c ∈ w, isBlank c = false := by
  fun_induction wordsChars cs with
  | case1 => simp at h
  | case2 c cs hc ih => exact ih h
  | case3 c cs hc ih =>
    rcases List.mem_cons.1 h with rfl | h
    · refine ⟨by simp, ?_⟩
      intro d hd
      rcases List.mem_cons.1 hd with rfl | hd
      · simpa using hc
      · have hall := List.all_takeWhile (p := fun c => !isBlank c) (l := cs)
        simpa using List.all_eq_true.1 hall d hd
    · exact ih h

end Otui.Text
