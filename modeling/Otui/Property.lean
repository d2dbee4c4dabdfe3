import Otui.Property.Key
import Otui.Text.Blank

/-!
# Property lines and what they store

A widget, and a template as well, keeps its properties in three views: the lines as they were
written, the map of stored values, and for each translated value the key as written. Lines enter
through `Properties.record?`, which keeps the three together: the first line of a stored key counts,
later ones are dropped.
-/

namespace Otui

/-- A property line as it was written. -/
structure PropertyLine where
  /-- The key, with its mark. -/
  key : String
  /-- The value, with its quotes. -/
  value : String
  /-- The number of the line, nought when it comes from no text. -/
  line : Int := 0
  deriving DecidableEq

/-- The properties of a widget or a template. -/
structure Properties where
  /-- The lines in order. -/
  lines : List PropertyLine := []
  /-- The stored values. -/
  values : Ledger String := {}
  /-- For stored keys, the key as written. -/
  written : Ledger String := {}
  deriving DecidableEq

instance : Inhabited Properties := ⟨{}⟩

namespace Properties

/-- Whether some key has the mark of an event. -/
def hasEvents (p : Properties) : Bool :=
  p.values.keys.any (Text.startsWith "@") || p.lines.any fun l => Text.startsWith "@" l.key

/-- Stores a line whose key stands for two stored keys. A value of fewer than two words stores
nothing, yet the line is kept. -/
def recordCompound? (p : Properties) (first second value : String) (line : PropertyLine) :
    Option Properties :=
  if p.values.contains first || p.values.contains second then none
  else
    let values := match Text.words value with
      | a :: b :: _ => (p.values.insert first a).insert second b
      | _ => p.values
    some { p with lines := p.lines ++ [line], values }

/-- Stores a line whose key stands for itself. -/
def recordPlain? (p : Properties) (value : String) (line : PropertyLine) : Option Properties :=
  let key := Key.stored line.key
  if key == "" || p.values.contains key then none
  else
    some
      { lines := p.lines ++ [line]
        values := p.values.insert key value
        written := if Key.isMarked line.key then p.written.insert key line.key else p.written }

/-- Stores a line with its value without quotes; `none` when the line is dropped. -/
def record? (p : Properties) (value : String) (line : PropertyLine) : Option Properties :=
  match Key.parts? line.key with
  | some (first, second) => p.recordCompound? first second value line
  | none => p.recordPlain? value line

end Properties

end Otui
