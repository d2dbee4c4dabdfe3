import Otui.Data

/-!
# The notation of data

Data is written and read in the flow style that all readers of such files share: braces and
brackets, double quotes, `true`, `false` and `null`. `Data.write` prints a value, `Data.read?` reads
one; names keep their order. The names that are read are texts. What this style has no form for is
written as a text or as a list.
-/

namespace Otui.Data

/-! ### Writing -/

/-- A character between double quotes. -/
def escaped (c : Char) : String :=
  if c == '"' then "\\\""
  else if c == '\\' then "\\\\"
  else if c == '\n' then "\\n"
  else if c == '\r' then "\\r"
  else if c == '\t' then "\\t"
  else if c.toNat < 0x20 || c.toNat == 0x7F then "\\u" ++ Text.hex 4 c.toNat
  else String.singleton c

/-- A text between double quotes. -/
def writeText (s : String) : String := "\"" ++ String.join (s.toList.map escaped) ++ "\""

mutual

/-- The notation of a value. -/
def write : Data → String
  | .null => "null"
  | .bool b => if b then "true" else "false"
  | .int n => toString n
  | .float x =>
    match Number.exact x with
    | .nan => "NaN"
    | .infinite neg => Number.withSign neg "Infinity"
    | _ => Number.shortestText x
  | .list items | .set items => "[" ++ Text.join ", " (writeAll items) ++ "]"
  | .pair first second => "[" ++ write first ++ ", " ++ write second ++ "]"
  | .mapping es => "\x7b" ++ Text.join ", " (writeEntries es) ++ "\x7d"
  | .text s => writeText s
  | .bytes bs => writeText (display (.bytes bs))
  | .day d => writeText d.text
  | .moment m => writeText m.text

/-- The notations of the values of a list. -/
def writeAll : List Data → List String
  | [] => []
  | d :: ds => write d :: writeAll ds

/-- The notations of the entries of a mapping. -/
def writeEntries : List (Data × Data) → List String
  | [] => []
  | (k, d) :: es => (write k ++ ": " ++ write d) :: writeEntries es

end

/-! ### Reading -/

/-- Drops the white space between the parts of a value. -/
def skipSpace (cs : List Char) : List Char :=
  cs.dropWhile fun c => c == ' ' || c == '\n' || c == '\r' || c == '\t'

/-- The value of a hexadecimal digit. -/
def hexValue? (c : Char) : Option Nat :=
  let n := c.toNat
  if c.isDigit then some (n - 0x30)
  else if 'a' ≤ c && c ≤ 'f' then some (n - 0x61 + 10)
  else if 'A' ≤ c && c ≤ 'F' then some (n - 0x41 + 10)
  else none

/-- A number of four hexadecimal digits, and the rest. -/
def hexFour? : List Char → Option (Nat × List Char)
  | a :: b :: c :: d :: rest =>
    match hexValue? a, hexValue? b, hexValue? c, hexValue? d with
    | some a, some b, some c, some d => some (((a * 16 + b) * 16 + c) * 16 + d, rest)
    | _, _, _, _ => none
  | _ => none

/-- The character of an escape by number, where a pair of surrogates is one character. -/
def escapedChar? (cs : List Char) : Option (Char × List Char) :=
  match hexFour? cs with
  | none => none
  | some (n, rest) =>
    if 0xD800 ≤ n && n < 0xDC00 then
      match rest with
      | '\\' :: 'u' :: more =>
        match hexFour? more with
        | some (m, rest') =>
          if 0xDC00 ≤ m && m < 0xE000 then
            some (Char.ofNat (0x10000 + (n - 0xD800) * 0x400 + (m - 0xDC00)), rest')
          else some (Char.ofNat 0xFFFD, rest)
        | none => some (Char.ofNat 0xFFFD, rest)
      | _ => some (Char.ofNat 0xFFFD, rest)
    else if 0xDC00 ≤ n && n < 0xE000 then some (Char.ofNat 0xFFFD, rest)
    else some (Char.ofNat n, rest)

/-- The character that a one-letter escape stands for. -/
def shortEscape? : Char → Option Char
  | '"' => some '"'
  | '\\' => some '\\'
  | '/' => some '/'
  | 'b' => some '\x08'
  | 'f' => some '\x0c'
  | 'n' => some '\n'
  | 'r' => some '\r'
  | 't' => some '\t'
  | _ => none

/-- The characters up to the closing quote, and the rest; each step uses up some of `fuel`. -/
def readQuoted? : Nat → List Char → Option (List Char × List Char)
  | 0, _ => none
  | _, [] => none
  | _ + 1, '"' :: rest => some ([], rest)
  | fuel + 1, '\\' :: 'u' :: rest => do
    let (c, rest) ← escapedChar? rest
    let (cs, rest) ← readQuoted? fuel rest
    return (c :: cs, rest)
  | fuel + 1, '\\' :: e :: rest => do
    let c ← shortEscape? e
    let (cs, rest) ← readQuoted? fuel rest
    return (c :: cs, rest)
  | _ + 1, ['\\'] => none
  | fuel + 1, c :: rest => do
    let (cs, rest) ← readQuoted? fuel rest
    return (c :: cs, rest)

/-- The characters that numbers are written with. -/
def isNumberChar (c : Char) : Bool :=
  c.isDigit || c == '-' || c == '+' || c == '.' || c == 'e' || c == 'E'

/-- The value that a number writes: an integer unless it has a point or an exponent. -/
def number? (cs : List Char) : Option Data :=
  let s := String.ofList cs
  if cs.any fun c => c == '.' || c == 'e' || c == 'E' then (Number.float? s).map .float
  else (Number.integer? s).map .int

/-- Splits a word off the front of a text. -/
def afterWord? (word : String) (cs : List Char) : Option (List Char) :=
  if word.toList.isPrefixOf cs then some (cs.drop word.length) else none

mutual

/-- A value and the rest of the text. -/
def readValue? : Nat → List Char → Option (Data × List Char)
  | 0, _ => none
  | fuel + 1, cs =>
    match skipSpace cs with
    | [] => none
    | '"' :: rest => (readQuoted? (rest.length + 1) rest).map fun r => (.text (String.ofList r.1), r.2)
    | '[' :: rest =>
      match skipSpace rest with
      | ']' :: rest => some (.list [], rest)
      | rest => (readItems? fuel rest).map fun r => (.list r.1, r.2)
    | '{' :: rest =>
      match skipSpace rest with
      | '}' :: rest => some (.mapping [], rest)
      | rest => (readFields? fuel rest).map fun r => (ofEntries r.1, r.2)
    | c :: rest =>
      if c.isDigit || c == '-' then
        let digits := c :: rest.takeWhile isNumberChar
        match afterWord? "-Infinity" (c :: rest) with
        | some rest => some (.float (-1.0 / 0.0), rest)
        | none => (number? digits).map fun d => (d, rest.dropWhile isNumberChar)
      else
        match afterWord? "true" (c :: rest), afterWord? "false" (c :: rest),
          afterWord? "null" (c :: rest) with
        | some rest, _, _ => some (.bool true, rest)
        | _, some rest, _ => some (.bool false, rest)
        | _, _, some rest => some (.null, rest)
        | _, _, _ =>
          match afterWord? "NaN" (c :: rest), afterWord? "Infinity" (c :: rest) with
          | some rest, _ => some (.float (0.0 / 0.0), rest)
          | _, some rest => some (.float (1.0 / 0.0), rest)
          | _, _ => none

/-- The values of a list up to its bracket, and the rest. -/
def readItems? : Nat → List Char → Option (List Data × List Char)
  | 0, _ => none
  | fuel + 1, cs => do
    let (d, rest) ← readValue? fuel cs
    match skipSpace rest with
    | ',' :: rest =>
      let (ds, rest) ← readItems? fuel rest
      return (d :: ds, rest)
    | ']' :: rest => return ([d], rest)
    | _ => none

/-- The entries of a mapping up to its brace, and the rest. -/
def readFields? : Nat → List Char → Option (List (String × Data) × List Char)
  | 0, _ => none
  | fuel + 1, cs =>
    match skipSpace cs with
    | '"' :: rest => do
      let (k, rest) ← readQuoted? (rest.length + 1) rest
      match skipSpace rest with
      | ':' :: rest =>
        let (d, rest) ← readValue? fuel rest
        match skipSpace rest with
        | ',' :: rest =>
          let (es, rest) ← readFields? fuel rest
          return ((String.ofList k, d) :: es, rest)
        | '}' :: rest => return ([(String.ofList k, d)], rest)
        | _ => none
      | _ => none
    | _ => none

end

/-- Reads the notation of one value, which must be all of the text. -/
def read? (s : String) : Option Data :=
  match readValue? (2 * s.length + 2) s.toList with
  | some (d, rest) => if (skipSpace rest).isEmpty then some d else none
  | none => none

/-- Reads the content of a file of data; an empty file holds nothing. -/
def readFile? (s : String) : Option Data :=
  if (skipSpace s.toList).isEmpty then some .null else read? s

end Otui.Data
