import Otui.Proofs.BinaryNumbers

/-!
# Sums of binary numbers

A binary number is decoded from its bits in two ways: here, for rounding (`exact`), and where sums
and the order are reckoned. The two agree (`exact_eq`). What is not below nought is neither
undefined nor the negative infinity, and so is no sum of such numbers (`zero_le_add`): rounding one
to an integer fails only if it is infinite (`nearest_eq_error`).
-/

namespace Otui.Number

open Float.Model Float.Model.UnpackedFloat

/-- Whether a sign is negative. -/
def isNegative : Sign → Bool
  | .positive => false
  | .negative => true

/-- What an unpacked number stands for. -/
def Exact.ofUnpacked : UnpackedFloat → Exact
  | .notANumber => .nan
  | .infinity s => .infinite (isNegative s)
  | .zero s => .finite (isNegative s) 0 (-1074)
  | .finite s m e _ => .finite (isNegative s) m e

section Bits
variable (b : BitVec 64)

theorem toNat_unpackMantissa :
    (@unpackMantissa Format.binary64 b).toNat = b.toNat % 2 ^ 52 := by
  simp [unpackMantissa]

theorem toNat_unpackExponent :
    (@unpackExponent Format.binary64 b).toNat = (b.toNat >>> 52) % 2048 := by
  simp [unpackExponent]

theorem toNat_unpackSign :
    (@unpackSign Format.binary64 b).toNat = (b.toNat >>> 63) % 2 := by
  simp [unpackSign]

/-- A normal number has one digit more than its mantissa shows. -/
theorem toNat_implicit (m : BitVec 52) : (1#1 ++ m).toNat = m.toNat + 2 ^ 52 := by
  rw [BitVec.toNat_append, ← Nat.shiftLeft_add_eq_or_of_lt m.isLt, Nat.add_comm]
  rfl

theorem isNegative_ofBitVec (s : BitVec 1) : isNegative (Sign.ofBitVec s) = (s.toNat == 1) := by
  revert s
  decide

end Bits

/-- A binary number is decoded as it is unpacked. -/
theorem exact_eq (x : Float) : exact x = Exact.ofUnpacked x.toModel.unpack := by
  change _ = Exact.ofUnpacked (UnpackedFloat.unpack Format.binary64 x.toBits.toBitVec)
  have hbits : x.toBits.toNat = x.toBits.toBitVec.toNat := rfl
  rw [exact, hbits]
  generalize x.toBits.toBitVec = b
  have hexponent := toNat_unpackExponent b
  have hmantissa := toNat_unpackMantissa b
  have hsign : isNegative (Sign.ofBitVec (@unpackSign Format.binary64 b))
      = (b.toNat >>> 63 == 1) := by
    have hlt : b.toNat >>> 63 < 2 := by
      rw [Nat.shiftRight_eq_div_pow]
      have := b.isLt
      omega
    rw [isNegative_ofBitVec, toNat_unpackSign, Nat.mod_eq_of_lt hlt]
  have hpow : Nat.pow 2 52 = 2 ^ 52 := rfl
  simp only [hpow, ← hexponent, ← hmantissa, ← hsign, UnpackedFloat.unpack]
  have hfull : ((@unpackExponent Format.binary64 b).toNat == 2047) = true
      ↔ @unpackExponent Format.binary64 b = -1#11 := by
    rw [beq_iff_eq, ← BitVec.toNat_inj]
    rfl
  have hempty : ((@unpackExponent Format.binary64 b).toNat == 0) = true
      ↔ @unpackExponent Format.binary64 b = 0#11 := by
    rw [beq_iff_eq, ← BitVec.toNat_inj]
    rfl
  have hnone : ((@unpackMantissa Format.binary64 b).toNat == 0) = true
      ↔ @unpackMantissa Format.binary64 b = 0#52 := by
    rw [beq_iff_eq, ← BitVec.toNat_inj]
    rfl
  simp only [hfull, hempty, hnone]
  by_cases he : @unpackExponent Format.binary64 b = -1#11
  · rw [if_pos he, if_pos he]
    split <;> rfl
  · rw [if_neg he, if_neg he]
    split
    · next hsub =>
      by_cases hm : @unpackMantissa Format.binary64 b = 0#52
      · rw [dif_pos hm, hm]
        rfl
      · rw [dif_neg hm, hsub]
        rfl
    · rw [Exact.ofUnpacked, toNat_implicit]
      rfl

/-- A number that is unpacked has a mantissa that is not too large and an exponent that is not too
small. -/
theorem bounds_of_unpack {x : Float} {s : Sign} {m : Nat} {e : Int} {hm : 0 < m}
    (h : x.toModel.unpack = .finite s m e hm) : m < 2 ^ 53 ∧ -1074 ≤ e := by
  have hmantissa := (@unpackMantissa Format.binary64 x.toBits.toBitVec).isLt
  change UnpackedFloat.unpack Format.binary64 x.toBits.toBitVec = _ at h
  simp only [UnpackedFloat.unpack] at h
  split at h
  · split at h <;> cases h
  · split at h
    · next hempty =>
      split at h
      · cases h
      · injection h with _ hm he
        rw [← hm, ← he]
        exact ⟨hmantissa.trans (by decide), by rw [hempty]; decide⟩
    · next hempty =>
      injection h with _ hm he
      have hpos : 0 < (@unpackExponent Format.binary64 x.toBits.toBitVec).toNat := by
        rw [Nat.pos_iff_ne_zero]
        exact fun h => hempty (BitVec.eq_of_toNat_eq h)
      have hbias : (Format.binary64.exponentBias : Int) = 1023 := rfl
      rw [← hm, ← he, toNat_implicit, hbias]
      change (@unpackMantissa Format.binary64 x.toBits.toBitVec).toNat < 2 ^ 52 at hmantissa
      constructor
      · omega
      · push_cast
        omega

/-! ### Sums -/

/-- What is not below nought: nought of either sign, and what is above it. -/
def IsAtLeast : UnpackedFloat → Prop
  | .zero _ => True
  | u => IsAbove u

theorem IsAbove.isAtLeast {u : UnpackedFloat} (h : IsAbove u) : IsAtLeast u := by
  cases u <;> first | exact h | trivial

theorem zero_le_iff {x : Float} : 0 ≤ x ↔ IsAtLeast x.toModel.unpack := by
  rw [le_iff, unpack_zero]
  have hbounds := @bounds_of_unpack x
  generalize x.toModel.unpack = u at hbounds ⊢
  match u with
  | .notANumber => exact iff_of_false (by decide) id
  | .zero _ => exact iff_of_true rfl trivial
  | .infinity .positive => exact iff_of_true rfl trivial
  | .infinity .negative => exact iff_of_false (by decide) id
  | .finite .positive m e hm => exact iff_of_true rfl (hbounds rfl).2
  | .finite .negative m e hm => exact iff_of_false Bool.false_ne_true id

/-- What is not below nought is above it, or nought, or undefined. -/
theorem zero_le_or_isNaN {x : Float} (h : ¬ x < 0) : 0 ≤ x ∨ x.isNaN = true := by
  rw [lt_iff, unpack_zero] at h
  rw [le_iff, unpack_zero]
  change _ ∨ x.toModel.unpack.isNaN = true
  generalize x.toModel.unpack = u at h ⊢
  match u with
  | .notANumber => exact .inr rfl
  | .infinity .positive => exact .inl rfl
  | .infinity .negative => exact absurd rfl h
  | .zero s => exact .inl rfl
  | .finite .positive m e hm => exact .inl rfl
  | .finite .negative m e hm => exact absurd rfl h

theorem isAtLeast_pack_zero (s : Sign) : IsAtLeast (Float.Model.pack (.zero s)).unpack := by
  cases s <;> exact trivial

/-- What is unpacked and not below nought is so after it was packed again. -/
theorem isAtLeast_pack {x : Float} (h : IsAtLeast x.toModel.unpack) :
    IsAtLeast (Float.Model.pack x.toModel.unpack).unpack := by
  have hbounds := @bounds_of_unpack x
  generalize x.toModel.unpack = u at hbounds h ⊢
  match u, h with
  | .zero s, _ => exact isAtLeast_pack_zero s
  | .infinity .positive, _ => exact trivial
  | .finite .positive m e hm, he => exact (isAbove_pack hm (hbounds rfl).1 he).isAtLeast

theorem isAbove_pack_round {m : Nat} {e : Int} (hm : 0 < m) (he : -1074 ≤ e) :
    IsAbove (Float.Model.pack (UnpackedFloat.round Format.binary64 .positive m e)).unpack := by
  have hlog := log2_add_le hm (e - Format.binary64.targetExponent (totalExponent m e)).toNat
  rw [UnpackedFloat.round, decreaseExponent, Nat.shiftLeft_eq]
  exact isAbove_roundWithAccuracy (by positivity) (by omega) _

theorem toModel_add (x y : Float) :
    (x + y).toModel = Float.Model.pack
      (UnpackedFloat.add Format.binary64 x.toModel.unpack y.toModel.unpack) := rfl

/-- **Sums stay above nought**: a sum of binary numbers that are not below nought is not below
nought, and so it is not undefined. -/
theorem zero_le_add {x y : Float} (hx : 0 ≤ x) (hy : 0 ≤ y) : 0 ≤ x + y := by
  rw [zero_le_iff] at hx hy ⊢
  rw [toModel_add]
  have hpackx := isAtLeast_pack hx
  have hpacky := isAtLeast_pack hy
  generalize x.toModel.unpack = u at hx hpackx ⊢
  generalize y.toModel.unpack = v at hy hpacky ⊢
  have hinfinity : IsAtLeast (Float.Model.pack (.infinity .positive)).unpack := trivial
  match u, v, hx, hy with
  | .zero .positive, .zero .positive, _, _ => exact trivial
  | .zero .positive, .zero .negative, _, _ => exact trivial
  | .zero .negative, .zero .positive, _, _ => exact trivial
  | .zero .negative, .zero .negative, _, _ => exact trivial
  | .zero _, .infinity .positive, _, _ => exact hinfinity
  | .infinity .positive, .zero _, _, _ => exact hinfinity
  | .infinity .positive, .infinity .positive, _, _ => exact hinfinity
  | .infinity .positive, .finite .positive _ _ _, _, _ => exact hinfinity
  | .finite .positive _ _ _, .infinity .positive, _, _ => exact hinfinity
  | .zero _, .finite .positive m e hm, _, _ => exact hpacky
  | .finite .positive m e hm, .zero _, _, _ => exact hpackx
  | .finite .positive m e hm, .finite .positive m' e' hm', he, he' =>
    have he : -1074 ≤ e := he
    have he' : -1074 ≤ e' := he'
    -- The mantissas are brought to one exponent, and their sum is not nought.
    obtain ⟨k, hk⟩ : ∃ k, m <<< (e - min e e').toNat = k := ⟨_, rfl⟩
    obtain ⟨k', hk'⟩ : ∃ k', m' <<< (e' - min e e').toNat = k' := ⟨_, rfl⟩
    have hpos : 0 < k + k' := by
      rw [← hk, Nat.shiftLeft_eq]
      positivity
    have hsum : UnpackedFloat.add Format.binary64 (.finite .positive m e hm)
          (.finite .positive m' e' hm')
        = UnpackedFloat.round Format.binary64 .positive (k + k') (min e e') := by
      have hcompare : compare ((k + k' : Nat) : Int) 0 = .gt := by
        rw [Int.compare_eq_gt]
        omega
      rw [← hk, ← hk'] at hcompare ⊢
      change UnpackedFloat.normalize Format.binary64
        ((m <<< (e - min e e').toNat : Nat) + (m' <<< (e' - min e e').toNat : Nat) : Int)
        (min e e') .positive = _
      rw [← Int.natCast_add, UnpackedFloat.normalize, hcompare]
      simp only [Int.toNat_natCast]
    rw [hsum]
    exact (isAbove_pack_round hpos (by omega)).isAtLeast

/-! ### Rounding to integers -/

theorem exact_of_zero_le {x : Float} (h : 0 ≤ x) :
    exact x = .infinite false ∨ ∃ negative m e, exact x = .finite negative m e
      ∧ (negative = true → m = 0) := by
  rw [zero_le_iff] at h
  rw [exact_eq]
  match x.toModel.unpack, h with
  | .zero s, _ => exact .inr ⟨_, 0, _, rfl, fun _ => rfl⟩
  | .infinity .positive, _ => exact .inl rfl
  | .finite .positive m e hm, _ => exact .inr ⟨false, m, e, rfl, fun h => nomatch h⟩

/-- A number that is not below nought is rounded unless it is infinite. -/
theorem nearest_eq_error {x : Float} (h : 0 ≤ x) {why : Unroundable} (hx : nearest x = .error why) :
    why = .infinite := by
  rw [nearest, roundWith] at hx
  obtain hexact | ⟨negative, m, e, hexact, -⟩ := exact_of_zero_le h
  · rw [hexact] at hx
    exact (Except.error.inj hx).symm
  · rw [hexact] at hx
    cases hx

theorem divNearest_zero (den : Nat) : divNearest 0 den = 0 := by
  simp [divNearest]

/-- A number that is not below nought is not rounded to an integer below nought. -/
theorem zero_le_of_nearest {x : Float} (h : 0 ≤ x) {n : Int} (hx : nearest x = .ok n) : 0 ≤ n := by
  rw [nearest, roundWith] at hx
  obtain hexact | ⟨negative, m, e, hexact, hzero⟩ := exact_of_zero_le h
  · rw [hexact] at hx
    cases hx
  · rw [hexact] at hx
    obtain rfl := Except.ok.inj hx
    cases negative with
    | false => exact Int.natCast_nonneg _
    | true =>
      rw [hzero rfl]
      simp only [if_true, Nat.zero_mul]
      rw [divNearest_zero]
      decide

end Otui.Number
