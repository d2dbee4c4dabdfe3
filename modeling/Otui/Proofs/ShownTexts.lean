import Otui.Proofs.SettledBlocks

/-!
# Texts on screen before and after formatting

Formatting wraps the value of a marked key in a call, and showing takes the text out of the call
again. What stands between the quotes of a call is shown as it is: the backslashes that wrapping put
there stay, and so do white space and quotes at the ends, which are taken off a value that is no
call. So formatting leaves the text on screen exactly when the value is a call already, or between
quotes around a text that shows itself, or without backslashes and single quotes: `shown_wrap_iff`.
-/

namespace Otui.Text

/-- A text between quotes is the text with one of the two kinds of quotes at both ends. -/
theorem insideQuotes?_eq_some_iff {cs ds : List Char} :
    insideQuotes? cs = some ds ↔ ∃ q, (q = '\'' ∨ q = '"') ∧ cs = q :: (ds ++ [q]) := by
  constructor
  · intro h
    unfold insideQuotes? at h
    split at h
    · next q c cs =>
      split at h
      · next hq =>
        rw [Bool.and_eq_true, Bool.or_eq_true, beq_iff_eq, beq_iff_eq, beq_iff_eq] at hq
        rw [Option.some.injEq] at h
        exact ⟨q, hq.1, by rw [← h, List.dropLast_append_getLast? q hq.2]⟩
      · cases h
    · cases h
  · rintro ⟨q, hq, rfl⟩
    cases ds with
    | nil => rcases hq with rfl | rfl <;> rfl
    | cons d ds =>
      have hlast : (d :: (ds ++ [q])).getLast? = some q := by
        rw [← List.cons_append, List.getLast?_concat]
      have hinside : (d :: (ds ++ [q])).dropLast = d :: ds := by
        rw [← List.cons_append, List.dropLast_concat]
      rw [List.cons_append, insideQuotes?, hlast, hinside]
      rcases hq with rfl | rfl <;> simp

/-- A quote is no white space. -/
theorem not_isBlank_of_quote {q : Char} (h : q = '\'' ∨ q = '"') : isBlank q = false := by
  rcases h with rfl | rfl <;> decide

/-- A text without quotes around it is shorter. -/
theorem length_of_insideQuotes {cs ds : List Char} (h : insideQuotes? cs = some ds) :
    cs.length = ds.length + 2 := by
  obtain ⟨q, -, rfl⟩ := insideQuotes?_eq_some_iff.1 h
  simp

theorem trimChars_sublist (cs : List Char) : (trimChars cs).Sublist cs :=
  (List.rdropWhile_prefix isBlank _).sublist.trans (List.dropWhile_sublist isBlank)

end Otui.Text

namespace Otui.Translation

open Otui.Text Otui.Document

/-! ### Texts that show themselves -/

/-- A text that is shown as it stands: there is nothing at its ends to be taken off. -/
structure ShowsItself (cs : List Char) : Prop where
  /-- There is no white space at the ends. -/
  trimmed : trimChars cs = cs
  /-- The text is no call of a quoted text. -/
  plain : operand? cs = none
  /-- The text is not between quotes. -/
  unquoted : insideQuotes? cs = none

theorem afterCall?_length {cs rest : List Char} (h : afterCall? cs = some rest) :
    rest.length < cs.length := by
  unfold afterCall? at h
  split at h
  · next t r cs =>
    split at h
    · split at h
      · next hrest =>
        have hle := (List.dropWhile_sublist isBlank (l := cs)).length_le
        rw [← trimStartChars, hrest] at hle
        cases h
        simp only [List.length_cons] at hle ⊢
        omega
      · cases h
    · cases h
  · cases h

/-- The text of a call is shorter than the call. -/
theorem operand?_length {cs ds : List Char} (h : operand? cs = some ds) :
    ds.length < cs.length := by
  unfold operand? at h
  split at h
  · cases h
  · next rest hcall =>
    split at h
    · have hcall := afterCall?_length hcall
      have hquotes := length_of_insideQuotes h
      have htrim := (trimChars_sublist rest.dropLast).length_le
      rw [List.length_dropLast] at htrim
      omega
    · cases h

/-- What is shown of a text that is trimmed and no call of a quoted text. -/
theorem shown_of_operand?_eq_none {cs : List Char} (h : operand? (trimChars cs) = none) :
    shown (String.ofList cs) = stripQuotes (String.ofList (trimChars cs)) := by
  simp only [shown, String.toList_ofList, h]

/-- A text shows itself exactly when it is shown as it stands. -/
theorem shown_eq_self_iff (cs : List Char) :
    shown (String.ofList cs) = String.ofList cs ↔ ShowsItself cs := by
  have hle := (trimChars_sublist cs).length_le
  constructor
  · intro h
    have hlength := congrArg (fun s : String => s.toList.length) h
    simp only [String.toList_ofList] at hlength
    cases hcall : operand? (trimChars cs) with
    | some ds =>
      have hds := operand?_length hcall
      simp only [shown, String.toList_ofList, hcall] at hlength
      omega
    | none =>
      rw [shown_of_operand?_eq_none hcall] at h hlength
      cases hquotes : insideQuotes? (trimChars cs) with
      | some ds =>
        have hds := length_of_insideQuotes hquotes
        simp only [stripQuotes, String.toList_ofList, hquotes] at hlength
        omega
      | none =>
        rw [stripQuotes_of_none (by rwa [String.toList_ofList])] at h
        have htrim : trimChars cs = cs := String.ofList_inj.1 h
        rw [htrim] at hcall hquotes
        exact ⟨htrim, hcall, hquotes⟩
  · rintro ⟨htrim, hcall, hquotes⟩
    rw [shown_of_operand?_eq_none (by rwa [htrim]), htrim,
      stripQuotes_of_none (by rwa [String.toList_ofList])]

/-! ### Escapes -/

theorem length_le_escape (cs : List Char) : cs.length ≤ (escape cs).length := by
  induction cs with
  | nil => simp
  | cons c cs ih =>
    rw [escape]
    split <;> simp only [List.length_cons] <;> omega

/-- Escaping leaves a text as it is exactly when there is nothing to escape. -/
theorem escape_eq_self_iff (cs : List Char) : escape cs = cs ↔ '\\' ∉ cs ∧ '\'' ∉ cs := by
  induction cs with
  | nil => simp [escape]
  | cons c cs ih =>
    rw [escape]
    by_cases hc : c = '\\' ∨ c = '\''
    · have hcond : (c == '\\' || c == '\'') = true := by simpa using hc
      rw [if_pos hcond]
      constructor
      · intro h
        have hlength := congrArg List.length h
        have hle := length_le_escape cs
        simp only [List.length_cons] at hlength
        omega
      · rintro ⟨hback, hquote⟩
        rcases hc with rfl | rfl
        · exact absurd List.mem_cons_self hback
        · exact absurd List.mem_cons_self hquote
    · have hcond : ¬ (c == '\\' || c == '\'') = true := by simpa using hc
      rw [if_neg hcond, List.cons.injEq, ih]
      rw [not_or] at hc
      simp [Ne.symm hc.1, Ne.symm hc.2]

/-! ### Wrapped values -/

/-- What is shown of a call of a quoted text is the text. -/
theorem shown_call {q : Char} (hq : q = '\'' ∨ q = '"') (cs : List Char) :
    shown (String.ofList ('t' :: 'r' :: '(' :: (q :: (cs ++ [q]) ++ [')']))) = String.ofList cs := by
  have hquoted : trimChars (q :: (cs ++ [q])) = q :: (cs ++ [q]) :=
    trimChars_eq_self (not_isBlank_of_quote hq) (not_isBlank_of_quote hq)
  have hoperand : operand? ('t' :: 'r' :: '(' :: (q :: (cs ++ [q]) ++ [')'])) = some cs := by
    simp only [operand?, afterCall?_call, List.getLast?_concat, List.dropLast_concat, hquoted,
      beq_self_eq_true, if_true]
    exact insideQuotes?_eq_some_iff.2 ⟨q, hq, rfl⟩
  simp only [shown, String.toList_ofList, trimChars_call, hoperand]

/-- A text that starts with a quote is no call. -/
theorem afterCall?_quote {q : Char} (hq : q = '\'' ∨ q = '"') (cs : List Char) :
    afterCall? (q :: cs) = none := by
  cases cs with
  | nil => rfl
  | cons c cs => rcases hq with rfl | rfl <;> simp [afterCall?]

/-- There are no quotes around a call. -/
theorem insideQuotes?_of_call {cs : List Char} (h : (afterCall? cs).isSome = true) :
    insideQuotes? cs = none := by
  cases hquotes : insideQuotes? cs with
  | none => rfl
  | some ds =>
    obtain ⟨q, hq, rfl⟩ := insideQuotes?_eq_some_iff.1 hquotes
    rw [afterCall?_quote hq] at h
    cases h

section wrap

variable {value : String} {cs : List Char}

/-- A call is not wrapped. -/
theorem wrap_of_call (htrim : trimChars value.toList = value.toList)
    (hcall : (afterCall? value.toList).isSome = true) : wrap value = value := by
  unfold wrap
  split
  · next h => exact (beq_iff_eq.1 h).symm
  · simp only [htrim, hcall, if_true, String.ofList_toList]

/-- A quoted text is wrapped with its quotes. -/
theorem wrap_of_quotes (htrim : trimChars value.toList = value.toList)
    (hcall : (afterCall? value.toList).isSome = false)
    (hquotes : insideQuotes? value.toList = some cs) :
    (wrap value).toList = 't' :: 'r' :: '(' :: (value.toList ++ [')']) := by
  have hne : ¬ (value == "") = true := by
    intro h
    rw [beq_iff_eq.1 h] at hquotes
    cases hquotes
  simp [wrap, hne, htrim, hcall, hquotes]

/-- Any other text is quoted and escaped. -/
theorem wrap_of_plain (htrim : trimChars value.toList = value.toList)
    (hcall : (afterCall? value.toList).isSome = false)
    (hquotes : insideQuotes? value.toList = none) (hne : value ≠ "") :
    (wrap value).toList
      = 't' :: 'r' :: '(' :: ('\'' :: (escape value.toList ++ ['\'']) ++ [')']) := by
  simp [wrap, hne, htrim, hcall, hquotes]

end wrap

/-! ### The text on screen -/

/-- A value whose text on screen stays when the value is wrapped: a call, a text between quotes that
shows itself without them, or another text in which nothing is escaped. -/
def IsShownAlike (value : String) : Prop :=
  (afterCall? value.toList).isSome = true
    ∨ (∃ cs, insideQuotes? value.toList = some cs ∧ ShowsItself cs)
    ∨ insideQuotes? value.toList = none ∧ '\\' ∉ value.toList ∧ '\'' ∉ value.toList

/-- What is shown of a wrapped text that was between quotes. -/
theorem shown_wrap_of_quotes {value : String} {cs : List Char}
    (htrim : trimChars value.toList = value.toList)
    (hquotes : insideQuotes? value.toList = some cs) :
    shown (stripQuotes (wrap value)) = String.ofList cs := by
  obtain ⟨q, hq, hvalue⟩ := insideQuotes?_eq_some_iff.1 hquotes
  have hcall : (afterCall? value.toList).isSome = false := by
    rw [hvalue, afterCall?_quote hq]
    rfl
  have hwrap := wrap_of_quotes htrim hcall hquotes
  rw [stripQuotes_of_none (insideQuotes?_of_call (by rw [hwrap, afterCall?_call]; rfl)),
    ← String.ofList_toList (s := wrap value), hwrap, hvalue, shown_call hq]

/-- What is shown of any other wrapped text: the text with its escapes. -/
theorem shown_wrap_of_plain {value : String} (htrim : trimChars value.toList = value.toList)
    (hcall : (afterCall? value.toList).isSome = false)
    (hquotes : insideQuotes? value.toList = none) (hne : value ≠ "") :
    shown (stripQuotes (wrap value)) = String.ofList (escape value.toList) := by
  have hwrap := wrap_of_plain htrim hcall hquotes hne
  rw [stripQuotes_of_none (insideQuotes?_of_call (by rw [hwrap, afterCall?_call]; rfl)),
    ← String.ofList_toList (s := wrap value), hwrap, shown_call (.inl rfl)]

/-- A text that is no call is no call of a quoted text. -/
theorem operand?_of_no_call {cs : List Char} (h : (afterCall? cs).isSome = false) :
    operand? cs = none := by
  rw [Option.isSome_eq_false_iff, Option.isNone_iff_eq_none] at h
  simp [operand?, h]

/-- **The text on screen**: wrapping a trimmed value leaves the text that is shown for it exactly
when the value is a call, when it is a text between quotes that shows itself, or when it is another
text without a backslash and without a single quote. -/
theorem shown_wrap_iff (value : String) (htrim : trim value = value) :
    shown (stripQuotes (wrap value)) = shown (stripQuotes value) ↔ IsShownAlike value := by
  have hchars : trimChars value.toList = value.toList := by
    rw [← String.toList_ofList (l := trimChars value.toList)]
    exact congrArg String.toList htrim
  unfold IsShownAlike
  cases hcall : (afterCall? value.toList).isSome with
  | true => simp [wrap_of_call hchars hcall]
  | false =>
    cases hquotes : insideQuotes? value.toList with
    | some cs =>
      have hsource : stripQuotes value = String.ofList cs := by rw [stripQuotes, hquotes]
      rw [shown_wrap_of_quotes hchars hquotes, hsource, eq_comm, shown_eq_self_iff]
      simp
    | none =>
      have hsource : shown (stripQuotes value) = value := by
        have hself := (shown_eq_self_iff value.toList).2
          ⟨hchars, operand?_of_no_call hcall, hquotes⟩
        rw [String.ofList_toList] at hself
        rwa [stripQuotes_of_none hquotes]
      rw [hsource]
      by_cases hne : value = ""
      · subst hne
        exact iff_of_true (by decide) (by simp)
      · rw [shown_wrap_of_plain hchars hcall hquotes hne, ← escape_eq_self_iff,
          ← String.toList_inj, String.toList_ofList]
        simp

/-- A text between quotes that is wrapped with them. -/
theorem shown_wrap_iff_quoted :
    trim "'Log in'" = "'Log in'" ∧ IsShownAlike "'Log in'"
      ∧ shown (stripQuotes (wrap "'Log in'")) = shown (stripQuotes "'Log in'") := by
  have htrim : trim "'Log in'" = "'Log in'" := by decide
  have halike : IsShownAlike "'Log in'" :=
    .inr (.inl ⟨"Log in".toList, by decide, by decide, by decide, by decide⟩)
  exact ⟨htrim, halike, (shown_wrap_iff "'Log in'" htrim).2 halike⟩

/-- Wrapping changes the text on screen of a text with a single quote, of which the escape is shown,
and of a text between quotes with white space at an end, which is shown of the call alone. -/
theorem shown_changedByWrapping :
    (trim "it's" = "it's" ∧ OnOneLine "it's"
        ∧ shown (stripQuotes (wrap "it's")) ≠ shown (stripQuotes "it's"))
      ∧ trim "' Hi'" = "' Hi'" ∧ OnOneLine "' Hi'"
        ∧ shown (stripQuotes (wrap "' Hi'")) ≠ shown (stripQuotes "' Hi'") := by
  unfold OnOneLine
  decide

end Otui.Translation
