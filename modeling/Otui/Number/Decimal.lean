import Otui.Number.Binary
import Otui.Number.Numeral

/-!
# Decimal texts of binary64 numbers

A positive ratio is rounded to so many significant digits (`significant`), or gets the fewest digits
that read back as the same binary64 number (`shortest`). `DecimalStyle` says how digits and an
exponent of ten are set: two styles are in use, `DecimalStyle.six` for sizes in documents and
`DecimalStyle.exactly` for values in messages.
-/

namespace Otui.Number

/-- A ratio divided by a power of ten. -/
def scaled (num den : Nat) (p : Int) : Nat × Nat :=
  (num * Nat.pow 10 (-p).toNat, den * Nat.pow 10 p.toNat)

/-- The exponent of the first digit of a positive ratio: the greatest `k` with `10 ^ k` not above
it. -/
def leadingExponent (num den : Nat) : Int :=
  let k : Int := digitCount num - digitCount den
  let (n, d) := scaled num den k
  if d ≤ n then k else k - 1

/-- A positive ratio to `n` significant digits, ties to even: the digits as a number, and the
exponent of the first of them. -/
def significant (n : Nat) (num den : Nat) : Nat × Int :=
  let k := leadingExponent num den
  let (a, b) := scaled num den (k - n + 1)
  let d := divNearest a b
  if d == Nat.pow 10 n then (Nat.pow 10 (n - 1), k + 1) else (d, k)

/-- Whether `d · 10 ^ p` rounds to the binary64 number `m · 2 ^ q`. The numbers that do lie between
the midpoints to its neighbours, and the midpoints themselves count when `m` is even. -/
def roundsTo (m : Nat) (q : Int) (d : Nat) (p : Int) : Bool :=
  let low := if m == Nat.pow 2 52 && q != -1074 then 4 * m - 1 else 4 * m - 2
  let high := 4 * m + 2
  let (u, v) := ratio 1 (q - 2)
  let (a, b) := scaled 1 1 (-p)
  let x := d * a * v
  let l := low * u * b
  let h := high * u * b
  if m % 2 == 0 then l ≤ x && x ≤ h else l < x && x < h

/-- With `n` digits, the decimal nearest to `m · 2 ^ q` that rounds to it, as digits and the
exponent of the last of them. -/
def withDigits? (m : Nat) (q : Int) (n : Nat) : Option (Nat × Int) :=
  let (num, den) := ratio m q
  let p := leadingExponent num den - n + 1
  let (a, b) := scaled num den p
  let below := a / b
  let nearer := divNearest a b
  let other := if nearer == below then below + 1 else below
  if roundsTo m q nearer p then some (nearer, p)
  else if roundsTo m q other p then some (other, p)
  else none

/-- The fewest digits that read back as `m · 2 ^ q`, and of those the nearest: digits and the
exponent of the last of them. Seventeen digits always read back. -/
def shortest (m : Nat) (q : Int) : Nat × Int :=
  match (List.range 16).findSome? fun i => withDigits? m q (i + 1) with
  | some r => r
  | none =>
    let (num, den) := ratio m q
    let (d, k) := significant 17 num den
    (d, k - 16)

/-! ### Setting digits -/

/-- How digits and an exponent of ten are set. -/
structure DecimalStyle where
  /-- The least exponent of the first digit that is set with a point in place. -/
  least : Int
  /-- The first exponent from which on an exponent is written. -/
  bound : Int
  /-- Whether an integer gets a point and a nought. -/
  pointed : Bool

/-- Six significant digits, as sizes are written. -/
def DecimalStyle.six : DecimalStyle := ⟨-4, 6, false⟩

/-- All digits, as values are written in messages. -/
def DecimalStyle.exactly : DecimalStyle := ⟨-4, 16, true⟩

/-- Digits without the noughts at their end; at least one digit stays. -/
def trimNoughts : List Char → List Char
  | [] => []
  | d :: ds => d :: (ds.reverse.dropWhile (· == '0')).reverse

/-- Sets digits whose first has exponent `k`. -/
def DecimalStyle.set (style : DecimalStyle) (digits : List Char) (k : Int) : String :=
  let ds := trimNoughts digits
  if style.least ≤ k && k < style.bound then
    if k < 0 then
      "0." ++ String.ofList (List.replicate (-k - 1).toNat '0' ++ ds)
    else
      let n := k.toNat + 1
      let whole := ds.take n ++ List.replicate (n - ds.length) '0'
      let fraction := ds.drop n
      let tail := if fraction.isEmpty then (if style.pointed then ".0" else "")
        else "." ++ String.ofList fraction
      String.ofList whole ++ tail
  else
    let fraction := ds.drop 1
    let point := if fraction.isEmpty then "" else "." ++ String.ofList fraction
    let e := toString k.natAbs
    let e := if e.length < 2 then "0" ++ e else e
    String.ofList (ds.take 1) ++ point ++ "e" ++ (if k < 0 then "-" else "+") ++ e

/-- The sign in front of a text. -/
def withSign (negative : Bool) (s : String) : String := if negative then "-" ++ s else s

/-- The text of a number with six significant digits. -/
def sixDigits (x : Float) : String :=
  match exact x with
  | .nan => "nan"
  | .infinite neg => withSign neg "inf"
  | .finite neg 0 _ => withSign neg "0"
  | .finite neg m q =>
    let (num, den) := ratio m q
    let (d, k) := significant 6 num den
    withSign neg (DecimalStyle.six.set (Nat.toDigits 10 d) k)

/-- The text of a number with the fewest digits that read back. -/
def shortestText (x : Float) : String :=
  match exact x with
  | .nan => "nan"
  | .infinite neg => withSign neg "inf"
  | .finite neg 0 _ => withSign neg "0.0"
  | .finite neg m q =>
    let (d, p) := shortest m q
    let ds := Nat.toDigits 10 d
    withSign neg (DecimalStyle.exactly.set ds (p + ds.length - 1))

/-- The text of a size: an integer as it is, anything else with six significant digits. -/
def sizeText (x : Float) : String :=
  match whole? x with
  | some n => toString n
  | none => sixDigits x

end Otui.Number
