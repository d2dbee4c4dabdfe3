import Mathlib.Algebra.Order.Floor.Ring
import Mathlib.Data.Rat.Floor
import Mathlib.Tactic.Linarith
import Otui.Number.Scalar

/-!
# Exact coordinates

Programs place widgets with binary numbers, whose sums are rounded. What is said of placing without
regard to that is said of the rational numbers: they are a type of coordinates as well, in which
nothing is infinite or undefined and every decimal numeral is exact. The operations on coordinates
are then those of an ordered field.
-/

namespace Otui

open Number

/-- The rational number that a numeral says; nought for those that say none. -/
def Number.Numeral.toRat : Numeral → ℚ
  | .decimal negative digits exponent =>
    let n : Int := digits * 10 ^ exponent.toNat
    mkRat (if negative then -n else n) (10 ^ (-exponent).toNat)
  | .nan | .infinite _ => 0

/-- The nearest integer, ties to even. -/
def nearestEven (x : ℚ) : Int :=
  let n := (x + 1 / 2).floor
  if (n : ℚ) = x + 1 / 2 ∧ n % 2 = 1 then n - 1 else n

instance : Scalar ℚ where
  decidableLT := inferInstance
  decidableLE := inferInstance
  half := 1 / 2
  isFinite _ := true
  floor x := .ok x.floor
  nearest x := .ok (nearestEven x)
  ofInt? n := some n
  halfOf? n := some (n / 2)
  ofNumeral := Numeral.toRat
  text := toString

namespace Scalar

variable (x y : ℚ)

theorem finiteOrZero_rat : finiteOrZero x = x := rfl

theorem atLeastZero_rat : atLeastZero x = max 0 x := by
  change (if 0 < x then x else 0) = max 0 x
  split
  · next h => exact (max_eq_right h.le).symm
  · next h => exact (max_eq_left (not_lt.1 h)).symm

theorem positivePart_rat : positivePart x = max 0 x := by
  change (if x ≤ 0 then 0 else x) = max 0 x
  split
  · next h => exact (max_eq_left h).symm
  · next h => exact (max_eq_right (not_le.1 h).le).symm

theorem abs_rat : abs x = |x| := by
  change (if x < 0 then 0 - x else x) = |x|
  split
  · next h => rw [abs_of_neg h, zero_sub]
  · next h => rw [abs_of_nonneg (not_lt.1 h)]

theorem isZero_rat : isZero x = decide (x = 0) := by
  change (decide (x ≤ 0) && decide (0 ≤ x)) = decide (x = 0)
  rw [Bool.eq_iff_iff, Bool.and_eq_true, decide_eq_true_iff, decide_eq_true_iff, decide_eq_true_iff]
  exact (le_antisymm_iff).symm

/-- What is not below nought is rounded to the nearest integer, halves up. -/
theorem roundAway_eq (h : 0 ≤ x) : roundAway x = .ok ⌊x + 1 / 2⌋ := by
  have hround : roundAway x = .ok (if x < 0 then -⌊abs x + 1 / 2⌋ else ⌊abs x + 1 / 2⌋) := rfl
  rw [hround, if_neg (not_lt.2 h), abs_rat, abs_of_nonneg h]

/-- Rounding what is not below nought gives a natural number that is at most half away. -/
theorem roundAway_rat (h : 0 ≤ x) :
    ∃ n : Nat, roundAway x = .ok (n : Int) ∧ |(n : ℚ) - x| ≤ 1 / 2 := by
  have hround := roundAway_eq x h
  obtain ⟨n, hn⟩ := Int.eq_ofNat_of_zero_le (Int.floor_nonneg.2 (by linarith : 0 ≤ x + 1 / 2))
  have hbelow := Int.floor_le (x + 1 / 2)
  have habove := Int.lt_floor_add_one (x + 1 / 2)
  rw [hn] at hround hbelow habove
  refine ⟨n, hround, abs_le.2 ?_⟩
  push_cast at hbelow habove
  constructor <;> linarith

end Scalar

end Otui
