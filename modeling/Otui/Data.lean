import Otui.Data.Moment
import Otui.Ledger
import Otui.Number.Decimal
import Otui.Text.Lines
import Otui.Text.Quoted

/-!
# Free-form data

Configuration files, registry files and dumps hold data of any shape: `Data`. A mapping is one from
values to values and keeps its entries in the order in which they came. Mostly its names are texts:
`Data.record` makes such a mapping, and `Data.get?` looks a text up among the names. No two entries
have one name as long as the mapping is made by `Data.ofEntries`.
-/

namespace Otui

/-- A value of any shape. -/
inductive Data where
  /-- Nothing. -/
  | null
  /-- A truth value. -/
  | bool (b : Bool)
  /-- An integer of any size. -/
  | int (n : Int)
  /-- A number that is not written as an integer. -/
  | float (x : Float)
  /-- A text. -/
  | text (s : String)
  /-- Bytes. -/
  | bytes (bs : List UInt8)
  /-- A day of the calendar. -/
  | day (d : Day)
  /-- A moment of a day. -/
  | moment (m : Moment)
  /-- Two values, as a list of entries has them. -/
  | pair (first second : Data)
  /-- A list. -/
  | list (items : List Data)
  /-- A set, with its members in the order in which they are gone through. -/
  | set (items : List Data)
  /-- A mapping. -/
  | mapping (entries : List (Data × Data))

namespace Data

instance : Inhabited Data := ⟨.null⟩

/-- The mapping with some entries, whose names are texts. -/
def record (es : List (String × Data)) : Data := .mapping (es.map fun e => (.text e.1, e.2))

/-- The mapping that entries write; of two with one name the later one counts, at the place of the
first. -/
def ofEntries (es : List (String × Data)) : Data := .record (Ledger.ofList es).entries

/-- The mapping with the entries of a ledger. -/
def ofLedger {ν : Type} (f : ν → Data) (m : Ledger ν) : Data :=
  .record (m.entries.map fun e => (e.1, f e.2))

/-- An optional value. -/
def ofOption {ν : Type} (f : ν → Data) : Option ν → Data
  | none => .null
  | some v => f v

/-- The text that a value is. -/
def text? : Data → Option String
  | .text s => some s
  | _ => none

/-- The entries whose names are texts. -/
def textEntries {ν : Type} (es : List (Data × ν)) : List (String × ν) :=
  es.filterMap fun e => e.1.text?.map fun name => (name, e.2)

/-- The entry of a mapping with a text as its name. -/
def get? : Data → String → Option Data
  | .mapping es, key => Ledger.lookIn (textEntries es) key
  | _, _ => none

/-- The values that one comes upon when going through a value: the names of a mapping, the characters
of a text, the numbers of bytes. Numbers, days and moments cannot be gone through. -/
def members? : Data → Option (List Data)
  | .text s => some (s.toList.map fun c => .text (String.singleton c))
  | .bytes bs => some (bs.map fun b => .int b.toNat)
  | .pair first second => some [first, second]
  | .list items | .set items => some items
  | .mapping es => some (es.map Prod.fst)
  | .null | .bool _ | .int _ | .float _ | .day _ | .moment _ => none

/-- The word for the kind of a value in messages. -/
def kind : Data → String
  | .null => "NoneType"
  | .bool _ => "bool"
  | .int _ => "int"
  | .float _ => "float"
  | .text _ => "str"
  | .bytes _ => "bytes"
  | .day _ => "datetime.date"
  | .moment _ => "datetime.datetime"
  | .pair .. => "tuple"
  | .list _ => "list"
  | .set _ => "set"
  | .mapping _ => "dict"

/-- The word for the kind of a value, without the part of the language that it belongs to. -/
def bareKind : Data → String
  | .day _ => "date"
  | .moment _ => "datetime"
  | d => d.kind

/-- Whether a value counts as true: nothing, nought and what is empty do not. -/
def truthy : Data → Bool
  | .null => false
  | .bool b => b
  | .int n => n != 0
  | .float x => x != 0.0
  | .text s => s != ""
  | .bytes bs => !bs.isEmpty
  | .day _ | .moment _ | .pair .. => true
  | .list items | .set items => !items.isEmpty
  | .mapping es => !es.isEmpty

/-! ### Values as text -/

mutual

/-- A value inside another one, as messages show it. -/
def shown : Data → String
  | .null => "None"
  | .bool b => if b then "True" else "False"
  | .int n => toString n
  | .float x => Number.shortestText x
  | .text s => Text.quoted s
  | .bytes bs => Text.quotedBytes bs
  | .day d => d.shown
  | .moment m => m.shown
  | .pair first second => "(" ++ shown first ++ ", " ++ shown second ++ ")"
  | .list items => "[" ++ Text.join ", " (shownAll items) ++ "]"
  | .set items =>
    if items.isEmpty then "set()" else "\x7b" ++ Text.join ", " (shownAll items) ++ "\x7d"
  | .mapping es => "\x7b" ++ Text.join ", " (shownEntries es) ++ "\x7d"

/-- The values of a list, as messages show them. -/
def shownAll : List Data → List String
  | [] => []
  | d :: ds => shown d :: shownAll ds

/-- The entries of a mapping, as messages show them. -/
def shownEntries : List (Data × Data) → List String
  | [] => []
  | (k, d) :: es => (shown k ++ ": " ++ shown d) :: shownEntries es

end

/-- A value as text: a text is itself. -/
def display : Data → String
  | .text s => s
  | .day d => d.text
  | .moment m => m.text
  | d => shown d

end Data

end Otui
