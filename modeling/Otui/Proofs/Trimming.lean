import Otui.Text.Affix
import Otui.Text.ContentLine
import Mathlib.Data.List.DropRight

/-!
# Trimming, cutting and content lines

What the ends of a text have to do with what stands between them: trimming a text whose first
character is no white space only touches the end, white space at the ends does not matter to a
trimmed text, and lines that were joined are found again by cutting. From there: the content lines
of a text that was joined from lines (`contentLinesFrom_append`).
-/

namespace Otui.Text

variable {a b cs : List Char} {c sep : Char}

/-! ### Ends of a text -/

theorem dropEndWhile_eq_rdropWhile (p : Char → Bool) (cs : List Char) :
    dropEndWhile p cs = cs.rdropWhile p := rfl

/-- A character that stays at the end keeps all that stands before it. -/
theorem dropEndWhile_append_cons {p : Char → Bool} (h : p c = false) :
    dropEndWhile p (a ++ c :: b) = a ++ c :: dropEndWhile p b := by
  rw [dropEndWhile_eq_rdropWhile, dropEndWhile_eq_rdropWhile]
  induction b using List.reverseRecOn with
  | nil => rw [List.rdropWhile_concat_neg _ _ _ (by simp [h]), List.rdropWhile_nil]
  | append_singleton b x ih =>
    rw [show a ++ c :: (b ++ [x]) = (a ++ c :: b) ++ [x] by simp]
    by_cases hx : p x = true
    · rw [List.rdropWhile_concat_pos _ _ _ hx, List.rdropWhile_concat_pos _ _ _ hx, ih]
    · rw [List.rdropWhile_concat_neg _ _ _ hx, List.rdropWhile_concat_neg _ _ _ hx]
      simp

theorem trimEndChars_append_cons (h : isBlank c = false) :
    trimEndChars (a ++ c :: b) = a ++ c :: trimEndChars b :=
  dropEndWhile_append_cons h

theorem trimStartChars_cons (h : isBlank c = false) : trimStartChars (c :: cs) = c :: cs := by
  simp [trimStartChars, h]

/-- A text that starts with no white space is trimmed at its end only. -/
theorem trimChars_cons (h : isBlank c = false) : trimChars (c :: cs) = c :: trimEndChars cs := by
  rw [trimChars, trimStartChars_cons h]
  exact trimEndChars_append_cons (a := []) h

/-- White space in front does not count. -/
theorem trimChars_append_left (h : ∀ c ∈ a, isBlank c = true) :
    trimChars (a ++ cs) = trimChars cs := by
  simp only [trimChars, trimStartChars, List.dropWhile_append_of_pos h]

theorem trimChars_cons_blank (h : isBlank c = true) : trimChars (c :: cs) = trimChars cs :=
  trimChars_append_left (a := [c]) (by simpa using h)

theorem trimEndChars_append_right (h : ∀ c ∈ b, isBlank c = true) :
    trimEndChars (a ++ b) = trimEndChars a := by
  unfold trimEndChars
  rw [dropEndWhile_eq_rdropWhile, dropEndWhile_eq_rdropWhile]
  induction b using List.reverseRecOn with
  | nil => rw [List.append_nil]
  | append_singleton b x ih =>
    rw [← List.append_assoc, List.rdropWhile_concat_pos _ _ _ (h x (by simp))]
    exact ih fun c hc => h c (by simp [hc])

/-- White space at the end does not count. -/
theorem trimChars_append_right (h : ∀ c ∈ b, isBlank c = true) :
    trimChars (a ++ b) = trimChars a := by
  induction a with
  | nil =>
    rw [← List.append_nil ([] ++ b), trimChars_append_left (by simpa using h)]
  | cons x a ih =>
    by_cases hx : isBlank x = true
    · rw [List.cons_append, trimChars_cons_blank hx, trimChars_cons_blank hx, ih]
    · have hx' : isBlank x = false := by simpa using hx
      rw [List.cons_append, trimChars_cons hx', trimChars_cons hx', trimEndChars_append_right h]

/-- Dropping some of the white space at the end does not change what trimming gives. -/
theorem trimChars_dropEndWhile {p : Char → Bool} (h : ∀ c, p c = true → isBlank c = true) :
    trimChars (dropEndWhile p cs) = trimChars cs := by
  conv_rhs => rw [← List.rdropWhile_append_rtakeWhile (p := p) (l := cs)]
  rw [trimChars_append_right fun c hc => h c (List.mem_rtakeWhile_imp hc),
    dropEndWhile_eq_rdropWhile]

theorem trimChars_trimEndChars : trimChars (trimEndChars cs) = trimChars cs :=
  trimChars_dropEndWhile fun _ h => h

theorem head_trimStartChars {r : List Char} (h : trimStartChars cs = c :: r) :
    isBlank c = false := by
  have hc := List.head?_dropWhile_not isBlank cs
  rw [show cs.dropWhile isBlank = c :: r from h] at hc
  simpa using hc

/-- Trimming twice is trimming once. -/
theorem trimChars_trimChars : trimChars (trimChars cs) = trimChars cs := by
  rw [show trimChars cs = trimEndChars (trimStartChars cs) from rfl, trimChars_trimEndChars]
  cases h : trimStartChars cs with
  | nil => rfl
  | cons c r =>
    rw [trimChars_cons (head_trimStartChars h)]
    exact (trimEndChars_append_cons (a := []) (head_trimStartChars h)).symm

theorem mem_of_mem_trimEndChars (h : c ∈ trimEndChars cs) : c ∈ cs :=
  (List.rdropWhile_prefix isBlank cs).subset h

theorem mem_of_mem_trimChars (h : c ∈ trimChars cs) : c ∈ cs :=
  (List.dropWhile_subset isBlank) (mem_of_mem_trimEndChars h)

/-- A text that neither starts nor ends with white space is trimmed already. -/
theorem trimChars_eq_self (hc : isBlank c = false) {d : Char} (hd : isBlank d = false) :
    trimChars (c :: (cs ++ [d])) = c :: (cs ++ [d]) := by
  rw [trimChars_cons hc, trimEndChars_append_cons hd]
  rfl

/-! ### Cutting -/

theorem cutChars_cons_of_ne (h : c ≠ sep) {p : List Char} {ps : List (List Char)}
    (hc : cutChars sep cs = p :: ps) : cutChars sep (c :: cs) = (c :: p) :: ps := by
  rw [cutChars, if_neg h, hc]

/-- A separator cuts a text into the pieces before it and those after it. -/
theorem cutChars_append_cons (a b : List Char) :
    cutChars sep (a ++ sep :: b) = cutChars sep a ++ cutChars sep b := by
  induction a with
  | nil => simp [cutChars]
  | cons x a ih =>
    by_cases hx : x = sep
    · rw [List.cons_append, cutChars, if_pos hx, ih, cutChars, if_pos hx, List.cons_append]
    · cases hc : cutChars sep a with
      | nil => exact absurd hc (cutChars_ne_nil sep a)
      | cons p ps =>
        rw [hc, List.cons_append] at ih
        rw [List.cons_append, cutChars_cons_of_ne hx ih, cutChars_cons_of_ne hx hc,
          List.cons_append]

theorem cutChars_of_not_mem (h : sep ∉ cs) : cutChars sep cs = [cs] := by
  induction cs with
  | nil => rfl
  | cons x cs ih =>
    rw [List.mem_cons, not_or] at h
    exact cutChars_cons_of_ne (fun e => h.1 e.symm) (ih h.2)

/-- Texts that were joined are found again. -/
theorem cutChars_intercalate {ps : List (List Char)} (hne : ps ≠ []) (h : ∀ p ∈ ps, sep ∉ p) :
    cutChars sep ([sep].intercalate ps) = ps := by
  induction ps with
  | nil => exact absurd rfl hne
  | cons p ps ih =>
    have hp := cutChars_of_not_mem (h p (by simp))
    cases ps with
    | nil => rw [List.intercalate_singleton, hp]
    | cons q qs =>
      rw [List.intercalate_cons_cons, List.append_assoc, List.singleton_append,
        cutChars_append_cons, hp, ih (by simp) fun r hr => h r (by simp [hr])]
      rfl

/-! ### Content lines -/

theorem contentLinesFrom_append (number : Nat) (ls ks : List (List Char)) :
    contentLinesFrom number (ls ++ ks)
      = contentLinesFrom number ls ++ contentLinesFrom (number + ls.length) ks := by
  induction ls generalizing number with
  | nil => rfl
  | cons l ls ih =>
    simp only [List.cons_append, contentLinesFrom, List.length_cons]
    rw [show number + (ls.length + 1) = number + 1 + ls.length by omega, ih]
    split <;> rfl

@[simp] theorem contentLinesFrom_empty (number : Nat) : contentLinesFrom number [[]] = [] := rfl

/-! ### Quotes -/

/-- What stands inside quotes stood in the text. -/
theorem mem_of_mem_insideQuotes {r : List Char} (h : insideQuotes? cs = some r) (hc : c ∈ r) :
    c ∈ cs := by
  unfold insideQuotes? at h
  split at h
  · split at h
    · cases h
      exact List.mem_cons_of_mem _ (List.dropLast_subset _ hc)
    · cases h
  · cases h

/-- A text that is not wrapped in quotes stays. -/
theorem stripQuotes_of_none {s : String} (h : insideQuotes? s.toList = none) :
    stripQuotes s = s := by
  rw [stripQuotes, h]

end Otui.Text
