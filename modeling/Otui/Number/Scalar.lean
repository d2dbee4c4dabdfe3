import Otui.Number.Decimal

/-!
# Scalars

Placing and measuring widgets is written once over any type of coordinates. `Scalar` lists what that
takes: sums, differences and products, an order that may leave elements incomparable, rounding, and
the way between texts and coordinates. `Float` is the type that programs run with.
-/

namespace Otui

open Number

/-- A type of coordinates. -/
class Scalar (α : Type) extends Zero α, One α, Add α, Sub α, Mul α, LT α, LE α where
  /-- The order can be computed. -/
  decidableLT : DecidableLT α
  /-- The reflexive order can be computed. -/
  decidableLE : DecidableLE α
  /-- One half. -/
  half : α
  /-- Whether an element is neither infinite nor undefined. -/
  isFinite : α → Bool
  /-- The greatest integer not above an element. -/
  floor : α → Except Unroundable Int
  /-- The nearest integer, ties to even. -/
  nearest : α → Except Unroundable Int
  /-- The element for an integer, unless it is beyond all elements. -/
  ofInt? : Int → Option α
  /-- The element for half of an integer, unless that is beyond all elements. -/
  halfOf? : Int → Option α
  /-- The element that a numeral says. -/
  ofNumeral : Numeral → α
  /-- The text of an element in a document. -/
  text : α → String

attribute [instance] Scalar.decidableLT Scalar.decidableLE

instance : Scalar Float where
  zero := 0.0
  one := 1.0
  decidableLT := inferInstance
  decidableLE := inferInstance
  half := 0.5
  isFinite := Number.isFinite
  floor := Number.floor
  nearest := Number.nearest
  ofInt? n :=
    let x := Float.ofInt n
    if Number.isFinite x then some x else none
  -- As a decimal, so that the half of an integer beyond all numbers may still be one.
  halfOf? n :=
    let x := Float.ofScientific (5 * n.natAbs) true 1
    if Number.isFinite x then some (if n < 0 then -x else x) else none
  ofNumeral := Numeral.toFloat
  text := sizeText

namespace Scalar

variable {α : Type} [Scalar α]

/-- The element that a text says, if it is a numeral. -/
def read? (s : String) : Option α := (numeral? s).map ofNumeral

/-- The element that a text says, nought for any other text. -/
def readOrZero (s : String) : α := (read? s).getD 0

/-- The element, or nought where it is not above nought; an undefined element counts as nought. -/
def atLeastZero (x : α) : α := if 0 < x then x else 0

/-- The element, or nought where it is not above nought; an undefined element stays. -/
def positivePart (x : α) : α := if x ≤ 0 then 0 else x

/-- The element without its sign. -/
def abs (x : α) : α := if x < 0 then 0 - x else x

/-- The element, or nought where it is infinite or undefined. -/
def finiteOrZero (x : α) : α := if isFinite x then x else 0

/-- Whether an element is nought; an undefined one is not. -/
def isZero (x : α) : Bool := x ≤ 0 && 0 ≤ x

/-- The nearest integer; a tie goes away from nought. -/
def roundAway (x : α) : Except Unroundable Int :=
  (floor (abs x + half)).map fun n => if x < 0 then -n else n

end Scalar

end Otui
