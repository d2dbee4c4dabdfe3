import Mathlib
import Otui.Number.Binary

/-!
# Binary numbers above nought

Comparing binary64 numbers says something about undefined ones as well: they are neither below nor
above anything. So a number that is not below nought is not undefined (`isNaN_eq_false`).

A positive integer may lose digits when it becomes a binary number, and it may become an infinity,
but it stays above nought (`zero_lt_ofInt`). The reason is that rounding keeps a mantissa that is not
nought and an exponent that is not too small (`shiftToTargetExponent_spec`), so that what is packed is
neither negative nor nought (`isAbove_pack`).
-/

namespace Otui.Number

open Float.Model Float.Model.UnpackedFloat

/-! ### Comparing -/

/-- What is above nought: infinity, and every number without a sign whose exponent can be packed. -/
def IsAbove : UnpackedFloat → Prop
  | .infinity .positive => True
  | .finite .positive _ exponent _ => -1074 ≤ exponent
  | _ => False

theorem lt_iff {x y : Float} :
    x < y ↔ x.toModel.unpack.compare y.toModel.unpack = some .lt := by
  change decide (x.toModel < y.toModel) = true ↔ _
  rw [decide_eq_true_iff]
  exact beq_iff_eq

theorem le_iff {x y : Float} :
    x ≤ y ↔ (x.toModel.unpack.compare y.toModel.unpack).any Ordering.isLE = true := by
  change decide (x.toModel ≤ y.toModel) = true ↔ _
  rw [decide_eq_true_iff]
  rfl

theorem le_of_lt {x y : Float} (h : x < y) : x ≤ y := by
  rw [le_iff, lt_iff.1 h]
  rfl

/-- What is compared to another number is not undefined. -/
theorem isNaN_eq_false {x y : Float} (h : x ≤ y) : y.isNaN = false := by
  rw [le_iff] at h
  change y.toModel.unpack.isNaN = false
  cases hy : y.toModel.unpack with
  | notANumber =>
    rw [hy] at h
    cases hx : x.toModel.unpack <;> rw [hx] at h <;> cases h
  | infinity s => rfl
  | zero s => rfl
  | finite s m e hm => rfl

theorem unpack_zero : (0 : Float).toModel.unpack = .zero .positive := rfl

theorem zero_lt_of_isAbove {x : Float} (h : IsAbove x.toModel.unpack) : 0 < x := by
  rw [lt_iff, unpack_zero]
  generalize x.toModel.unpack = u at h ⊢
  match u, h with
  | .infinity .positive, _ => rfl
  | .finite .positive _ _ _, _ => rfl

/-! ### Packing -/

/-- Components without a sign are above nought, unless all are nought or they stand for what is
undefined. -/
theorem isAbove_packComponents {exponent : BitVec 11} {mantissa : BitVec 52}
    (hne : exponent ≠ 0#11 ∨ mantissa ≠ 0#52) (hdefined : exponent ≠ -1#11 ∨ mantissa = 0#52) :
    IsAbove (UnpackedFloat.unpack Format.binary64
      (packComponents Format.binary64 .positive exponent mantissa)) := by
  simp only [UnpackedFloat.unpack, unpackExponent_packComponents, unpackMantissa_packComponents,
    unpackSign_packComponents, Sign.ofBitVec_toBitVec]
  split
  · next hexponent =>
    rw [if_pos (hdefined.resolve_left fun h => h hexponent)]
    trivial
  · split
    · next hexponent =>
      obtain rfl : exponent = 0#11 := hexponent
      rw [dif_neg (hne.resolve_left fun h => h rfl)]
      change -1074 ≤ _
      decide
    · next hexponent =>
      have hpos : 0 < exponent.toNat := by
        rw [Nat.pos_iff_ne_zero]
        exact fun h => hexponent (BitVec.eq_of_toNat_eq h)
      change -1074 ≤ (exponent.toNat : Int) - 1075
      omega

/-- A number without a sign is above nought after it was packed, when its mantissa is not too large
and its exponent is not too small. -/
theorem isAbove_pack {m : Nat} {e : Int} (hm : 0 < m) (hlt : m < 2 ^ 53) (he : -1074 ≤ e) :
    IsAbove (Float.Model.pack (.finite .positive m e hm)).unpack := by
  change IsAbove (UnpackedFloat.unpack Format.binary64
    (UnpackedFloat.pack Format.binary64 (.finite .positive m e hm)))
  simp only [UnpackedFloat.pack]
  split
  · exact isAbove_packComponents (.inl (by decide)) (.inr rfl)
  · next hfits =>
    have hbias : (e + (Format.binary64.exponentBias : Int)
        + (Format.binary64.mantissaBitsWithoutImplicit : Int)).toNat = (e + 1075).toNat := by
      congr 1
      rw [Int.add_assoc]
      rfl
    rw [hbias] at hfits ⊢
    have hsmall : e + 1075 < 2047 := by simpa using hfits
    split
    · -- A normal number: its exponent is packed as neither of the two that stand for something else.
      refine isAbove_packComponents (.inl fun h => ?_) (.inl fun h => ?_)
      · have hbits := congrArg BitVec.toNat h
        simp at hbits
        omega
      · have hbits := congrArg BitVec.toNat h
        simp at hbits
        omega
    · -- A subnormal number: its mantissa is packed as it is.
      next hlog =>
      have hne : m.log2 + 1 ≠ 53 := hlog
      have hlog53 := (Nat.log2_lt hm.ne').2 hlt
      have hlt52 : m < 2 ^ 52 := (Nat.log2_lt hm.ne').1 (by omega)
      refine isAbove_packComponents (.inr fun h => ?_) (.inl (by decide))
      have hbits := congrArg BitVec.toNat h
      simp at hbits
      omega

/-! ### Rounding -/

theorem mantissa_shiftRight (em : ExtendedMantissa) (k : Nat) :
    (em >>> k).mantissa = em.mantissa / 2 ^ k := by
  induction k with
  | zero => exact (Nat.div_one _).symm
  | succ k ih =>
    change (em >>> k).mantissa / 2 = _
    rw [ih, Nat.div_div_eq_div_mul, ← Nat.pow_succ]

theorem mantissa_ofMantissaAndAccuracy (m : Nat) (a : Accuracy) :
    (ExtendedMantissa.ofMantissaAndAccuracy m a).mantissa = m := by
  cases a with
  | exact => rfl
  | inexact o => cases o <;> rfl

theorem mantissa_le_roundedMantissa (em : ExtendedMantissa) : em.mantissa ≤ em.roundedMantissa := by
  obtain ⟨m, r, s⟩ := em
  cases r <;> cases s <;>
    simp [ExtendedMantissa.roundedMantissa, ExtendedMantissa.accuracy, Accuracy.roundToNearestEven]

theorem log2_add_le {m : Nat} (hm : 0 < m) (k : Nat) : m.log2 + k ≤ (m * 2 ^ k).log2 := by
  rw [Nat.le_log2 (by positivity), Nat.pow_add]
  exact Nat.mul_le_mul_right _ (Nat.log2_self_le hm.ne')

/-- A mantissa that is shifted to fit keeps its first digit, and the exponent is not too small then,
if the number was not too small before. -/
theorem shiftToTargetExponent_spec {m : Nat} {e : Int} (hm : 0 < m) (he : -1074 ≤ e + m.log2)
    (a : Accuracy) :
    0 < (shiftToTargetExponent Format.binary64 m e a).1.mantissa
      ∧ (shiftToTargetExponent Format.binary64 m e a).1.mantissa < 2 ^ 53
      ∧ -1074 ≤ (shiftToTargetExponent Format.binary64 m e a).2 := by
  have htarget : Format.binary64.targetExponent (totalExponent m e)
      = max (m.log2 + e - 52) (-1074) := by
    simp only [Format.targetExponent, totalExponent, Format.mantissaBits, Format.minExponent]
    norm_num
    omega
  unfold shiftToTargetExponent shiftToExponent
  rw [htarget]
  simp only [mantissa_shiftRight, mantissa_ofMantissaAndAccuracy]
  obtain ⟨k, hk⟩ : ∃ k, (max ((m.log2 : Int) + e - 52) (-1074) - e).toNat = k := ⟨_, rfl⟩
  rw [hk]
  have hlow : k ≤ m.log2 := by omega
  have hhigh : m.log2 < 53 + k := by omega
  refine ⟨?_, ?_, by omega⟩
  · refine Nat.div_pos ?_ (by positivity)
    exact (Nat.pow_le_pow_right (by decide) hlow).trans (Nat.log2_self_le hm.ne')
  · rw [Nat.div_lt_iff_lt_mul (by positivity), ← Nat.pow_add]
    exact (Nat.log2_lt hm.ne').1 hhigh

/-- A number without a sign that is not too small is above nought after it was rounded and packed.
The mantissa is shifted twice, because rounding may make it longer by a digit. -/
theorem isAbove_roundWithAccuracy {m : Nat} {e : Int} (hm : 0 < m) (he : -1074 ≤ e + m.log2)
    (a : Accuracy) :
    IsAbove (Float.Model.pack (roundWithAccuracy Format.binary64 .positive m e a)).unpack := by
  obtain ⟨hpos, -, hexponent⟩ := shiftToTargetExponent_spec hm he a
  rw [roundWithAccuracy]
  generalize shiftToTargetExponent Format.binary64 m e a = first at hpos hexponent ⊢
  obtain ⟨em, e₁⟩ := first
  have hrounded : 0 < em.roundedMantissa := hpos.trans_le (mantissa_le_roundedMantissa em)
  have he₁ : -1074 ≤ e₁ + em.roundedMantissa.log2 := by
    have : -1074 ≤ e₁ := hexponent
    omega
  obtain ⟨hpos', hlt', hexponent'⟩ := shiftToTargetExponent_spec hrounded he₁ .exact
  dsimp only
  rw [dif_neg hpos'.ne']
  exact isAbove_pack hpos' hlt' hexponent'

/-! ### Integers -/

theorem isAbove_ofNat_pack {n : Nat} (h : 0 < n) :
    IsAbove (Float.Model.pack (UnpackedFloat.ofNat Format.binary64 n)).unpack := by
  have hround : UnpackedFloat.ofNat Format.binary64 n
      = UnpackedFloat.round Format.binary64 .positive n 0 := by
    have hcompare : compare (n : Int) 0 = .gt := by
      rw [Int.compare_eq_gt]
      omega
    rw [UnpackedFloat.ofNat, UnpackedFloat.ofInt, UnpackedFloat.normalize, hcompare]
    simp only [Int.toNat_natCast]
  rw [hround, UnpackedFloat.round, decreaseExponent, Nat.shiftLeft_eq]
  have hlog := log2_add_le h (0 - Format.binary64.targetExponent (totalExponent n 0)).toNat
  exact isAbove_roundWithAccuracy (by positivity) (by omega) _

theorem toModel_mul (x y : Float) :
    (x * y).toModel
      = Float.Model.pack (UnpackedFloat.mul Format.binary64 x.toModel.unpack y.toModel.unpack) := rfl

theorem unpack_one :
    (Float.exactlyRepresentablePowersOfTen[0]).toModel.unpack
      = .finite .positive (2 ^ 52) (-52) (by decide) := rfl

/-- What is above nought is so after it was multiplied by one. -/
theorem isAbove_mul_one {u : UnpackedFloat} (h : IsAbove u) :
    IsAbove (Float.Model.pack (UnpackedFloat.mul Format.binary64 u
      (.finite .positive (2 ^ 52) (-52) (by decide)))).unpack := by
  match u, h with
  | .infinity .positive, _ => trivial
  | .finite .positive m e hm, he =>
    have he : -1074 ≤ e := he
    have hlog := log2_add_le hm 52
    exact isAbove_roundWithAccuracy (by positivity) (by omega) _

theorem isAbove_ofNat {n : Nat} (h : 0 < n) : IsAbove (Float.ofNat n).toModel.unpack := by
  change IsAbove (Float.ofScientific n false 0).toModel.unpack
  rw [Float.ofScientific]
  split
  · -- A small number goes through a word and is multiplied by a power of ten, here one.
    next hsmall =>
    have hn : n.toUInt64.toNat = n := by
      simp
      omega
    have hword : IsAbove n.toUInt64.toFloat.toModel.unpack := by
      have hnat := isAbove_ofNat_pack h
      rw [← hn] at hnat
      exact hnat
    rw [if_neg Bool.false_ne_true, toModel_mul, unpack_one]
    exact isAbove_mul_one hword
  · have hlog := log2_add_le h 53
    have hscientific : ofScientific Format.binary64 n 0
        = roundWithAccuracy Format.binary64 .positive ((n <<< 53) * 1) (-53) .exact := by
      rw [UnpackedFloat.ofScientific, dif_neg h.ne', if_neg (by decide), if_neg, if_pos (by decide)]
      · rfl
      · simp
    change IsAbove (Float.Model.pack (ofScientific Format.binary64 n 0)).unpack
    rw [hscientific, Nat.shiftLeft_eq, Nat.mul_one]
    exact isAbove_roundWithAccuracy (by positivity) (by omega) _

/-- A positive integer becomes a binary number above nought. -/
theorem zero_lt_ofInt {n : Int} (h : 0 < n) : 0 < Float.ofInt n := by
  obtain ⟨k, rfl⟩ := Int.eq_ofNat_of_zero_le h.le
  exact zero_lt_of_isAbove (isAbove_ofNat (Int.natCast_pos.1 h))

end Otui.Number
