import Otui.Data
import Otui.Notice
import Otui.Text.Affix

/-!
# The registry of widget types

The registry knows the canonical types of widgets, other names for them, and the style names to try
for a type. A name in a document is resolved to a canonical type; a type that nobody has defined is
given a definition on first use, so that no document fails for want of one.
-/

namespace Otui

/-- What is known about a type of widgets. -/
structure Definition where
  /-- The canonical name. -/
  name : String
  /-- The category in the palette, as given. -/
  category : Data := .text "Display"
  /-- Whether widgets of the type hold other widgets. -/
  isContainer : Bool := false
  /-- The default properties. -/
  props : Ledger Data := {}
  /-- The events, each with the signature of its handler. -/
  events : Ledger String := {}
  /-- Whether the definition was made up for an unknown type. -/
  madeUp : Bool := false

instance : Inhabited Definition := ⟨{ name := "" }⟩

/-- The known types, the other names for types, and the style names of types. -/
structure Registry where
  /-- The definitions by canonical name. -/
  definitions : Ledger Definition := {}
  /-- Other names for types. -/
  aliases : Ledger String := {}
  /-- The style names to try for a type, best first. -/
  styleNames : Ledger (List String) := {}

instance : Inhabited Registry := ⟨{}⟩

namespace Registry

/-- Whether a type has a definition. -/
def knows (r : Registry) (name : String) : Bool := r.definitions.contains name

/-- The definition of a type. -/
def get? (r : Registry) (name : String) : Option Definition := r.definitions.get? name

/-- The canonical type for a name: what the name is another name for, else the name itself when it
has a definition, else the name with `UI` in front. -/
def resolve (r : Registry) (name : String) : String :=
  match r.aliases.get? name with
  | some type => type
  | none =>
    if r.knows name then name
    else if Text.startsWith "UI" name then name
    else "UI" ++ name

/-- What the names of types that hold other widgets have in them. -/
def containerHints : List String :=
  ["Panel", "Window", "Area", "Layout", "Container", "Scroll", "Loot", "Category"]

/-- The definition that is made up for an unknown type. -/
def makeUp (name : String) : Definition :=
  let isContainer := containerHints.any (Text.contains · name)
  { name
    category := .text (if isContainer then "Layout" else "Display")
    isContainer
    madeUp := true }

/-- The definition of a type, made up if there is none. -/
def definitionOf (r : Registry) (name : String) : Definition := (r.get? name).getD (makeUp name)

/-- The registry with a definition for a type, made up if there was none. -/
def ensure (r : Registry) (name : String) : Noted Registry :=
  if r.knows name then pure r
  else ⟨{ r with definitions := r.definitions.insert name (makeUp name) }, [.madeUpType name]⟩

/-- The definition of a template: that of its base under another name. -/
def templateDefinition (base : Definition) (name : String) : Definition :=
  { base with name, madeUp := false }

/-- The registry in which a template is a type too; its base gets a definition if it has none. -/
def registerTemplate (r : Registry) (name base : String) : Noted Registry := do
  let r ← r.ensure base
  let definition := templateDefinition (r.definitionOf base) name
  return { r with definitions := r.definitions.insert name definition }

end Registry

end Otui
