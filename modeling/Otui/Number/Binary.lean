/-!
# The exact value of a binary64 number

A binary64 number is decoded into what it stands for: an integer times a power of two, an infinity,
or no number at all. Rounding to integers is then exact arithmetic on integers, for numbers of any
size: toward zero, down, and to the nearest with ties to even.
-/

namespace Otui.Number

/-- What a binary64 number stands for. -/
inductive Exact where
  /-- No number. -/
  | nan
  /-- An infinity. -/
  | infinite (negative : Bool)
  /-- Plus or minus `mantissa · 2 ^ exponent`. -/
  | finite (negative : Bool) (mantissa : Nat) (exponent : Int)
  deriving DecidableEq

/-- Decodes a binary64 number: one bit of sign, eleven of exponent, fifty-two of fraction. -/
def exact (x : Float) : Exact :=
  let bits := x.toBits.toNat
  let negative := bits >>> 63 == 1
  let e : Nat := (bits >>> 52) % 2048
  let f : Nat := bits % Nat.pow 2 52
  if e == 2047 then (if f == 0 then .infinite negative else .nan)
  else if e == 0 then .finite negative f (-1074)
  else .finite negative (f + Nat.pow 2 52) ((e : Int) - 1075)

/-- Whether the value is an integer or a fraction, not an infinity and not undefined. -/
def isFinite (x : Float) : Bool :=
  match exact x with
  | .finite .. => true
  | _ => false

/-- Why a number has no nearby integer. -/
inductive Unroundable where
  /-- It is no number. -/
  | notANumber
  /-- It is an infinity. -/
  | infinite
  deriving DecidableEq

/-- The message for a number without a nearby integer. -/
def Unroundable.message : Unroundable → String
  | .notANumber => "cannot convert float NaN to integer"
  | .infinite => "cannot convert float infinity to integer"

/-! ### Ratios of naturals -/

/-- The quotient to the nearest integer; a tie goes to the even neighbour. -/
def divNearest (num den : Nat) : Nat :=
  let q := num / den
  let r := num % den
  if den < 2 * r || (2 * r == den && q % 2 == 1) then q + 1 else q

/-- The quotient rounded up. -/
def divUp (num den : Nat) : Nat := (num + den - 1) / den

/-- `mantissa · 2 ^ exponent` as a ratio of naturals. -/
def ratio (mantissa : Nat) (exponent : Int) : Nat × Nat :=
  (mantissa * Nat.pow 2 exponent.toNat, Nat.pow 2 (-exponent).toNat)

/-! ### Rounding -/

/-- Puts a sign on a natural number. -/
def signed (negative : Bool) (n : Nat) : Int := if negative then -(n : Int) else n

/-- Rounds the exact value with one way for each sign. -/
def roundWith (positive negative : Nat → Nat → Nat) (x : Float) : Except Unroundable Int :=
  match exact x with
  | .nan => .error .notANumber
  | .infinite _ => .error .infinite
  | .finite neg m q =>
    let (num, den) := ratio m q
    .ok (signed neg ((if neg then negative else positive) num den))

/-- The integer part: rounds toward zero. -/
def truncate : Float → Except Unroundable Int := roundWith (· / ·) (· / ·)

/-- The greatest integer that is not above the number. -/
def floor : Float → Except Unroundable Int := roundWith (· / ·) divUp

/-- The nearest integer; a tie goes to the even neighbour. -/
def nearest : Float → Except Unroundable Int := roundWith divNearest divNearest

/-- The number as an integer, if it is one. -/
def whole? (x : Float) : Option Int :=
  match exact x with
  | .finite neg m q =>
    let (num, den) := ratio m q
    if num % den == 0 then some (signed neg (num / den)) else none
  | _ => none

end Otui.Number
