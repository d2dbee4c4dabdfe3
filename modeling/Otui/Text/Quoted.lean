import Otui.Text.PrintableTable

/-!
# Quoted texts in messages

How a message shows a text: between single quotes, or between double quotes when only single ones
occur in it; the quote, the backslash and what does not show are written as escapes.
-/

namespace Otui.Text

/-- The hexadecimal digits of `n`, with noughts in front up to `width`. -/
def hex (width n : Nat) : String :=
  let ds := Nat.toDigits 16 n
  String.ofList (List.replicate (width - ds.length) '0' ++ ds)

/-- The quote that stands around a text. -/
def quoteOf (cs : List Char) : Char :=
  if cs.contains '\'' && !cs.contains '"' then '"' else '\''

/-- A character inside quotes. -/
def quoteChar (quote c : Char) : String :=
  let n := c.toNat
  if c == quote || c == '\\' then String.ofList ['\\', c]
  else if c == '\n' then "\\n"
  else if c == '\r' then "\\r"
  else if c == '\t' then "\\t"
  else if isPrintable c then String.singleton c
  else if n < 0x100 then "\\x" ++ hex 2 n
  else if n < 0x10000 then "\\u" ++ hex 4 n
  else "\\U" ++ hex 8 n

/-- A text between quotes, as messages show it. -/
def quoted (s : String) : String :=
  let q := quoteOf s.toList
  String.singleton q ++ String.join (s.toList.map (quoteChar q)) ++ String.singleton q

/-- Bytes between quotes, as messages show them: those of ASCII texts as text. -/
def quotedBytes (bytes : List UInt8) : String :=
  let cs := bytes.map fun b => Char.ofNat b.toNat
  let q := quoteOf cs
  let byte (c : Char) : String :=
    if c.toNat < 0x7F then quoteChar q c else "\\x" ++ hex 2 c.toNat
  "b" ++ String.singleton q ++ String.join (cs.map byte) ++ String.singleton q

end Otui.Text
