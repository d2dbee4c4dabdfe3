import Otui.Text.Blank
import Otui.Text.Digit

/-!
# Numerals

The texts that stand for numbers. A numeral has an optional sign, digits of any script with single
underscores between digits, optionally a fraction and an exponent of ten; or it is one of the words
`inf`, `infinity` and `nan` in any letter case. White space around it does not count, the separators
of records apart. An integer numeral has a sign and digits only, and there is a limit to how many.
-/

namespace Otui.Number

open Otui.Text

/-- What a numeral says. -/
inductive Numeral where
  /-- The word for no number. -/
  | nan
  /-- The word for an infinity. -/
  | infinite (negative : Bool)
  /-- Plus or minus `digits · 10 ^ exponent`. -/
  | decimal (negative : Bool) (digits : Nat) (exponent : Int)
  deriving DecidableEq

/-- The white space that may stand around a numeral: all but the separators of files, groups,
records and units. -/
def isNumeralPadding (c : Char) : Bool := isBlank c && !(0x1C ≤ c.toNat && c.toNat ≤ 0x1F)

/-- Characters without the white space that may stand around a numeral. -/
def unpadded (cs : List Char) : List Char :=
  dropEndWhile isNumeralPadding (cs.dropWhile isNumeralPadding)

/-- Drops an underscore in front of a digit. -/
def skipUnderscore : List Char → List Char
  | '_' :: c :: cs => if isDigit c then c :: cs else '_' :: c :: cs
  | cs => cs

theorem skipUnderscore_length (cs : List Char) : (skipUnderscore cs).length ≤ cs.length := by
  unfold skipUnderscore
  split
  · split <;> simp
  · exact Nat.le_refl _

/-- The digits in front, single underscores between them skipped, and the rest of the text. -/
def digitRun : List Char → List Nat × List Char
  | [] => ([], [])
  | c :: cs =>
    match digitValue? c with
    | none => ([], c :: cs)
    | some d =>
      let (ds, r) := digitRun (skipUnderscore cs)
      (d :: ds, r)
  termination_by cs => cs.length
  decreasing_by
    have := skipUnderscore_length cs
    simp only [List.length_cons]
    omega

/-- The number that digits write. -/
def natOfDigits (ds : List Nat) : Nat := ds.foldl (fun n d => 10 * n + d) 0

/-- Splits a sign off: whether it is a minus, and the rest. -/
def splitSign : List Char → Bool × List Char
  | '-' :: cs => (true, cs)
  | '+' :: cs => (false, cs)
  | cs => (false, cs)

/-- A text of ASCII letters in lower case; other characters stay. -/
def asciiLower (cs : List Char) : List Char := cs.map Char.toLower

/-- The exponent part of a numeral, which must be all of the text. -/
def exponentPart? : List Char → Option Int
  | [] => some 0
  | c :: cs =>
    if c == 'e' || c == 'E' then
      let (neg, cs) := splitSign cs
      match digitRun cs with
      | ([], _) => none
      | (ds, []) => some (if neg then -(natOfDigits ds : Int) else natOfDigits ds)
      | (_, _ :: _) => none
    else none

/-- The fraction part of a numeral, if there is one, and the rest. -/
def fractionPart : List Char → List Nat × List Char
  | '.' :: cs => digitRun cs
  | cs => ([], cs)

/-- A numeral without a sign. -/
def unsigned? (negative : Bool) (cs : List Char) : Option Numeral :=
  let word := asciiLower cs
  if word == "nan".toList then some .nan
  else if word == "inf".toList || word == "infinity".toList then some (.infinite negative)
  else
    let (whole, cs) := digitRun cs
    let (fraction, cs) := fractionPart cs
    if whole.isEmpty && fraction.isEmpty then none
    else
      (exponentPart? cs).map fun e =>
        .decimal negative (natOfDigits (whole ++ fraction)) (e - fraction.length)

/-- Reads a numeral. -/
def numeral? (s : String) : Option Numeral :=
  let (neg, cs) := splitSign (unpadded s.toList)
  unsigned? neg cs

/-- The number of digits that an integer numeral may have; noughts in front count. -/
def digitLimit : Nat := 4300

/-- Why a text is read as no integer. -/
inductive NoInteger where
  /-- It is no integer numeral. -/
  | malformed
  /-- There are more digits in front than an integer numeral may have. -/
  | tooLong (digits : Nat)
  deriving DecidableEq

/-- Reads an integer numeral. The digits in front are counted before the rest of the text is looked
at, a stray underscore apart. -/
def readInteger (s : String) : Except NoInteger Int :=
  let (neg, cs) := splitSign (unpadded s.toList)
  match digitRun cs with
  | ([], _) => .error .malformed
  | (_, '_' :: _) => .error .malformed
  | (ds, rest) =>
    if digitLimit < ds.length then .error (.tooLong ds.length)
    else if rest.isEmpty then .ok (if neg then -(natOfDigits ds : Int) else natOfDigits ds)
    else .error .malformed

/-- The integer that a text says, if it is an integer numeral. -/
def integer? (s : String) : Option Int := (readInteger s).toOption

/-- How many decimal digits a natural number has. -/
def digitCount (n : Nat) : Nat := (Nat.toDigits 10 n).length

/-- The binary64 number nearest to a numeral. Numbers beyond every binary64 number are infinite,
those below every positive one are nought; the bounds spare the work on huge exponents. -/
def Numeral.toFloat : Numeral → Float
  | .nan => 0.0 / 0.0
  | .infinite neg => if neg then -1.0 / 0.0 else 1.0 / 0.0
  | .decimal neg digits e =>
    let top := e + digitCount digits
    let x : Float :=
      if digits == 0 || top < -400 then 0.0
      else if 400 < top then 1.0 / 0.0
      else Float.ofScientific digits (e < 0) e.natAbs
    if neg then -x else x

/-- The binary64 number nearest to what a text says, if it is a numeral. -/
def float? (s : String) : Option Float := (numeral? s).map Numeral.toFloat

end Otui.Number
