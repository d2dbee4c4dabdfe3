import Otui.Data
import Otui.Fault
import Otui.Number.Scalar

/-!
# Numbers and texts in data

Where a number is wanted, data may say it in several ways: as a number, as a truth value, which
counts as nought or one, or as a numeral in a text or in bytes. Where a text is wanted, any value will
do, unless there is an integer in it that is too long to be written.
-/

namespace Otui.Data

/-! ### Numbers -/

/-- The text of ASCII bytes. -/
def asciiText? (bs : List UInt8) : Option String :=
  if bs.all (· < 128) then some (String.ofList (bs.map fun b => Char.ofNat b.toNat)) else none

/-- The integer that a text says, given with how messages show what it was taken from. -/
def integerOf (shown s : String) : Except Fault Int :=
  (Number.readInteger s).mapError fun
    | .malformed => .notAnInteger shown
    | .tooLong digits => .tooManyDigits digits

/-- The integer that a value says; a fraction is cut off, a text must be an integer numeral. -/
def toInt : Data → Except Fault Int
  | .bool b => .ok (if b then 1 else 0)
  | .int n => .ok n
  | .float x => (Number.truncate x).mapError .unroundable
  | .text s => integerOf (Text.quoted s) s
  | .bytes bs =>
    match asciiText? bs with
    | some s => integerOf (Text.quotedBytes bs) s
    | none => .error (.notAnInteger (Text.quotedBytes bs))
  | d => .error (.noInteger d.kind)

/-- The binary64 number that a text says, given with how messages show what it was taken from. -/
def floatOf (shown s : String) : Except Fault Float :=
  match Number.float? s with
  | some x => .ok x
  | none => .error (.notANumeral shown)

/-- The binary64 number that a value says. -/
def toFloat : Data → Except Fault Float
  | .bool b => .ok (if b then 1.0 else 0.0)
  | .int n =>
    match Scalar.ofInt? n with
    | some x => .ok x
    | none => .error .integerTooLarge
  | .float x => .ok x
  | .text s => floatOf (Text.quoted s) s
  | .bytes bs =>
    match asciiText? bs with
    | some s => floatOf (Text.quotedBytes bs) s
    | none => .error (.notANumeral (Text.quotedBytes bs))
  | d => .error (.noNumber d.kind)

/-! ### Texts -/

mutual

/-- Whether there is an integer in a value with more digits than are written. -/
def hasLongInteger : Data → Bool
  | .int n => Number.digitLimit < Number.digitCount n.natAbs
  | .pair first second => hasLongInteger first || hasLongInteger second
  | .list items | .set items => anyHasLongInteger items
  | .mapping es => someEntryHasLongInteger es
  | _ => false

/-- Whether there is such an integer in a value of a list. -/
def anyHasLongInteger : List Data → Bool
  | [] => false
  | d :: ds => hasLongInteger d || anyHasLongInteger ds

/-- Whether there is such an integer in a name or a value of a mapping. -/
def someEntryHasLongInteger : List (Data × Data) → Bool
  | [] => false
  | (k, d) :: es => hasLongInteger k || hasLongInteger d || someEntryHasLongInteger es

end

/-- The text of a value. -/
def toText (d : Data) : Except Fault String :=
  if d.hasLongInteger then .error .tooLongToWrite else .ok d.display

end Otui.Data
