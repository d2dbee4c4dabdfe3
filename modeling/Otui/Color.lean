import Otui.Color.Names
import Otui.Number.Binary
import Otui.Number.Numeral
import Otui.Text.Blank
import Otui.Text.Digit
import Otui.Text.LetterCase
import Otui.Text.Lines
import Otui.Text.Quoted

/-!
# Colors

A color is written by its name, as hexadecimal digits after a number sign, as `rgb(…)` or `rgba(…)`
with numbers, those of `rgb` also as percentages, or by its hue: as `hsl(…)` with saturation and
lightness, as `hsv(…)` or `hsb(…)` with saturation and value. Case does not matter, and neither does
white space around the numbers. Numbers are taken as they are, however large.
-/

namespace Otui

/-- A color with its opacity. -/
structure Color where
  /-- The red part. -/
  red : Int
  /-- The green part. -/
  green : Int
  /-- The blue part. -/
  blue : Int
  /-- The opacity. -/
  alpha : Int := 255
  deriving DecidableEq

namespace Color

open Text

/-- The color for red, green and blue as the digits of one number to base 256. -/
def ofNumber (n : Nat) : Color := ⟨n / 65536 % 256, n / 256 % 256, n % 256, 255⟩

/-! ### Hexadecimal digits -/

/-- The value of a hexadecimal digit in lower case. -/
def hexValue? (c : Char) : Option Nat :=
  let n := c.toNat
  if 48 ≤ n && n ≤ 57 then some (n - 48)
  else if 97 ≤ n && n ≤ 102 then some (n - 87)
  else none

/-- The color for the digits after a number sign: one or two for each part. -/
def ofHex? (digits : List Char) : Option Color := do
  match ← digits.mapM hexValue? with
  | [r, g, b] => some ⟨17 * r, 17 * g, 17 * b, 255⟩
  | [r, g, b, a] => some ⟨17 * r, 17 * g, 17 * b, 17 * a⟩
  | [r, r', g, g', b, b'] => some ⟨16 * r + r', 16 * g + g', 16 * b + b', 255⟩
  | [r, r', g, g', b, b', a, a'] =>
    some ⟨16 * r + r', 16 * g + g', 16 * b + b', 16 * a + a'⟩
  | _ => none

/-! ### Numbers -/

/-- The number that digits say. -/
def number? (cs : List Char) : Option Nat :=
  if cs.isEmpty then none
  else cs.foldlM (fun n c => (digitValue? c).map fun d => 10 * n + d) 0

/-- The numbers between parentheses, each with its sign after it if it has one. -/
def operands? (cs : List Char) : Option (List (List Char)) :=
  if cs.getLast? == some ')' then some ((cutChars ',' cs.dropLast).map trimChars) else none

/-- The part of a color for a percentage: the nearest part of 255, a half upward. -/
def ofPercentage (n : Nat) : Int :=
  ((Number.truncate (Float.ofNat (n * 255) / 100.0 + 0.5)).toOption).getD 0

/-- The part of a color that a percentage says. -/
def percentage? (cs : List Char) : Option Int :=
  if cs.getLast? == some '%' then (number? cs.dropLast).map ofPercentage else none

/-- The part of a color that a number says. -/
def part? (cs : List Char) : Option Int := (number? cs).map Int.ofNat

/-- The color for the operands of `rgb`. -/
def ofRgb? (operands : List (List Char)) : Option Color := do
  let parts ← (operands.mapM part?).orElse fun _ => operands.mapM percentage?
  match parts with
  | [r, g, b] => some ⟨r, g, b, 255⟩
  | _ => none

/-- The color for the operands of `rgba`. -/
def ofRgba? (operands : List (List Char)) : Option Color := do
  match ← operands.mapM part? with
  | [r, g, b, a] => some ⟨r, g, b, a⟩
  | _ => none

/-! ### Colors by their hue

A hue counts in turns of the circle; saturation, lightness and value are parts of one. -/

/-- The number that digits with at most one point in or after them say. -/
def fraction? (cs : List Char) : Option Float :=
  let rest := cs.dropWhile isDigit
  let isPlain := match rest with
    | [] => true
    | c :: digits => c == '.' && digits.all isDigit
  if isPlain && (cs.head?.map isDigit).getD false then
    (Number.numeral? (String.ofList cs)).map Number.Numeral.toFloat
  else none

/-- The number before a percent sign. -/
def hundredths? (cs : List Char) : Option Float :=
  if cs.getLast? == some '%' then (fraction? cs.dropLast).map (· / 100.0) else none

/-- Hue, saturation, and lightness or value. -/
def hueOperands? : List (List Char) → Option (Float × Float × Float)
  | [h, s, x] => do return ((← fraction? h) / 360.0, ← hundredths? s, ← hundredths? x)
  | _ => none

/-- The part of a color for a part of one: the nearest part of 255, a half upward. -/
def ofUnit (x : Float) : Int := ((Number.truncate (x * 255.0 + 0.5)).toOption).getD 0

/-- The color for parts of one. -/
def ofUnits (r g b : Float) : Color := ⟨ofUnit r, ofUnit g, ofUnit b, 255⟩

/-- What one part of a color has between the darkest and the lightest part, for the hue that is as
far from its own as the turn says. -/
def ramp (low high turn : Float) : Float :=
  let x := turn - Float.ofInt (((Number.floor turn).toOption).getD 0)
  if x < 1.0 / 6.0 then low + (high - low) * x * 6.0
  else if x < 0.5 then high
  else if x < 2.0 / 3.0 then low + (high - low) * (2.0 / 3.0 - x) * 6.0
  else low

/-- The color of a hue with saturation and lightness. -/
def ofLightness (h s l : Float) : Color :=
  if s == 0.0 then ofUnits l l l
  else
    let high := if l <= 0.5 then l * (1.0 + s) else l + s - l * s
    let low := 2.0 * l - high
    ofUnits (ramp low high (h + 1.0 / 3.0)) (ramp low high h) (ramp low high (h - 1.0 / 3.0))

/-- The color of a hue with saturation and value. -/
def ofValue (h s v : Float) : Color :=
  if s == 0.0 then ofUnits v v v
  else
    let i := ((Number.truncate (h * 6.0)).toOption).getD 0
    let f := h * 6.0 - Float.ofInt i
    let p := v * (1.0 - s)
    let q := v * (1.0 - s * f)
    let t := v * (1.0 - s * (1.0 - f))
    match (i % 6).toNat with
    | 0 => ofUnits v t p
    | 1 => ofUnits q v p
    | 2 => ofUnits p v t
    | 3 => ofUnits p q v
    | 4 => ofUnits t p v
    | _ => ofUnits v p q

/-- The color for the operands of `hsl`. -/
def ofHsl? (operands : List (List Char)) : Option Color :=
  (hueOperands? operands).map fun (h, s, l) => ofLightness h s l

/-- The color for the operands of `hsv` and `hsb`. -/
def ofHsv? (operands : List (List Char)) : Option Color :=
  (hueOperands? operands).map fun (h, s, v) => ofValue h s v

/-! ### Colors -/

/-- The color that characters in lower case say. One line feed may follow any form but a name. -/
def ofLower? (cs : List Char) : Option Color :=
  match names.lookup (String.ofList cs) with
  | some n => some (ofNumber n)
  | none =>
    match if cs.getLast? == some '\n' then cs.dropLast else cs with
    | '#' :: digits => ofHex? digits
    | 'r' :: 'g' :: 'b' :: '(' :: rest => (operands? rest).bind ofRgb?
    | 'r' :: 'g' :: 'b' :: 'a' :: '(' :: rest => (operands? rest).bind ofRgba?
    | 'h' :: 's' :: 'l' :: '(' :: rest => (operands? rest).bind ofHsl?
    | 'h' :: 's' :: 'v' :: '(' :: rest => (operands? rest).bind ofHsv?
    | 'h' :: 's' :: 'b' :: '(' :: rest => (operands? rest).bind ofHsv?
    | _ => none

/-- Reads a color, or says why a text is none. A text of more than a hundred characters is none. -/
def read (s : String) : Except String Color :=
  if 100 < s.toList.length then .error "color specifier is too long"
  else
    match ofLower? (lowerChars s.toList) with
    | some color => .ok color
    | none => .error ("unknown color specifier: " ++ quoted (lower s))

end Color

end Otui
