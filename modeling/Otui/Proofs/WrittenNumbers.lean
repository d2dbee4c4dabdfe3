import Otui.Number.Numeral
import Otui.Proofs.Trimming

/-!
# Natural numbers as texts

The text of a natural number is a numeral that says this number: it has digits only, so it has no
sign, no fraction and no exponent (`numeral?_toString`).
-/

namespace Otui.Number

open Otui.Text

theorem toNat_of_isDigit {c : Char} (h : c.isDigit = true) : 48 ≤ c.toNat ∧ c.toNat ≤ 57 := by
  simp only [Char.isDigit, Bool.and_eq_true, decide_eq_true_eq] at h
  exact h

/-- A digit is no white space. -/
theorem isNumeralPadding_of_isDigit {c : Char} (h : c.isDigit = true) :
    isNumeralPadding c = false := by
  obtain ⟨h1, h2⟩ := toNat_of_isDigit h
  have hblank : isBlank c = false := by
    simp only [isBlank, Bool.or_eq_false_iff, Bool.and_eq_false_iff, decide_eq_false_iff_not,
      beq_eq_false_iff_ne]
    omega
  rw [isNumeralPadding, hblank, Bool.false_and]

/-- Digits have no padding. -/
theorem unpadded_of_isDigit {cs : List Char} (h : ∀ c ∈ cs, c.isDigit = true) :
    unpadded cs = cs := by
  have hkeep : ∀ ds : List Char, (∀ c ∈ ds, c.isDigit = true) →
      ds.dropWhile isNumeralPadding = ds := by
    intro ds hds
    cases ds with
    | nil => rfl
    | cons d ds =>
      have hd := isNumeralPadding_of_isDigit (hds d (by simp))
      rw [List.dropWhile_cons_of_neg (by simp [hd])]
  rw [unpadded, hkeep cs h, dropEndWhile, hkeep _ fun c hc => h c (List.mem_reverse.1 hc),
    List.reverse_reverse]

/-- A run of digits ends where the text does. -/
theorem digitRun_of_isDigit {cs : List Char} (h : ∀ c ∈ cs, c.isDigit = true) :
    digitRun cs = (cs.map fun c => c.toNat - 48, []) := by
  induction cs with
  | nil => simp [digitRun]
  | cons c cs ih =>
    have hskip : skipUnderscore cs = cs := by
      cases cs with
      | nil => rfl
      | cons d ds =>
        have hd : d ≠ '_' := by
          rintro rfl
          exact absurd (h '_' (by simp)) (by decide)
        unfold skipUnderscore
        split
        · next hd' => exact absurd (List.cons.inj hd').1 hd
        · rfl
    rw [digitRun, digitValue?_ascii (h c (by simp))]
    simp only [hskip, ih fun d hd => h d (by simp [hd]), List.map_cons]

theorem natOfDigits_map (cs : List Char) :
    natOfDigits (cs.map fun c => c.toNat - 48) = Nat.ofDigitChars 10 cs 0 := by
  rw [natOfDigits, List.foldl_map, Nat.ofDigitChars_eq_foldl]
  rfl

/-- Digits alone are a numeral without sign, fraction and exponent. -/
theorem unsigned?_of_isDigit {cs : List Char} (hne : cs ≠ []) (h : ∀ c ∈ cs, c.isDigit = true) :
    unsigned? false cs = some (.decimal false (Nat.ofDigitChars 10 cs 0) 0) := by
  obtain ⟨c, ds, rfl⟩ := List.exists_cons_of_ne_nil hne
  obtain ⟨h1, h2⟩ := toNat_of_isDigit (h c (by simp))
  -- no word for a number starts with a digit
  have hword : ∀ d es, 58 ≤ d.toNat → asciiLower (c :: ds) ≠ d :: es := by
    intro d es hd he
    have hcapital : ¬ (65 ≤ c.toNat ∧ c.toNat ≤ 90) := by omega
    have hlower : c.toLower = c := dif_neg hcapital
    rw [asciiLower, List.map_cons, hlower, List.cons.injEq] at he
    rw [he.1] at h2
    omega
  have hnan : (asciiLower (c :: ds) == "nan".toList) = false :=
    beq_eq_false_iff_ne.2 (hword _ _ (by decide))
  have hinf : (asciiLower (c :: ds) == "inf".toList || asciiLower (c :: ds) == "infinity".toList)
      = false := by
    rw [Bool.or_eq_false_iff, beq_eq_false_iff_ne, beq_eq_false_iff_ne]
    exact ⟨hword _ _ (by decide), hword _ _ (by decide)⟩
  simp only [unsigned?, hnan, hinf, Bool.false_eq_true, if_false, digitRun_of_isDigit h,
    fractionPart, exponentPart?, List.append_nil, natOfDigits_map]
  simp

/-- **Written numbers**: the text of a natural number says this number. -/
theorem numeral?_toString (n : Nat) : numeral? (toString n) = some (.decimal false n 0) := by
  have hdigits : ∀ c ∈ Nat.toDigits 10 n, c.isDigit = true :=
    fun c hc => Nat.isDigit_of_mem_toDigits (by decide) (by decide) hc
  have hsign : splitSign (Nat.toDigits 10 n) = (false, Nat.toDigits 10 n) := by
    unfold splitSign
    split
    · next hcons => exact absurd (hdigits '-' (by rw [hcons]; simp)) (by decide)
    · next hcons => exact absurd (hdigits '+' (by rw [hcons]; simp)) (by decide)
    · rfl
  rw [numeral?, Nat.toString_eq_repr, Nat.toList_repr, unpadded_of_isDigit hdigits, hsign]
  simp only [unsigned?_of_isDigit Nat.toDigits_ne_nil hdigits, Nat.ofDigitChars_ten_toDigits]

end Otui.Number
