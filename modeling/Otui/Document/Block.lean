import Otui.Anchor.Inference
import Otui.Config
import Otui.Document.GeneratedId
import Otui.Fault
import Otui.Translation

/-!
# Blocks of a document

What is written for one widget or template, its children apart, is a block: a header and property
lines. Lines are written in the order in which they were read; a widget that was never written has
its stored properties instead. Whatever a block says, it says once: `Block` remembers the keys that
it has, and both parts of a compound key count as said with it.
-/

namespace Otui.Document

open Otui.Text

variable {α : Type}

/-! ### Lines -/

/-- What a written line says. -/
inductive Said where
  /-- The header of a widget or a template, with the base that it names. -/
  | header (name : String) (base : Option String)
  /-- The id of a widget. -/
  | id (name : String)
  /-- A property. -/
  | property (key value : String)
  /-- The size of a widget whose properties do not say it. -/
  | size (width height : String)
  deriving DecidableEq

/-- The text of a line. White space at the end of a property is not written. -/
def Said.text : Said → String
  | .header name none => name
  | .header name (some base) => name ++ " < " ++ base
  | .id name => "id: " ++ name
  | .property key value => trimEnd (key ++ ": " ++ value)
  | .size width height => "size: " ++ width ++ " " ++ height

/-- The lines of a block and the keys that it has. -/
structure Block where
  /-- The lines. -/
  lines : List Said := []
  /-- The keys, anchors in the spelling that is in use. -/
  keys : List String := []
  deriving DecidableEq

namespace Block

/-- Whether a block has a key. -/
def has (b : Block) (key : String) : Bool := b.keys.contains (Key.spelling key)

/-- The keys that a block has with a key: the key and its parts. -/
def covered (key : String) : List String :=
  match Key.parts? key with
  | some (first, second) => [Key.spelling key, first, second]
  | none => [Key.spelling key]

/-- Adds a property line, written with a key, that gives a stored key. -/
def add (b : Block) (key written value : String) : Block :=
  { lines := b.lines ++ [.property written value], keys := b.keys ++ covered key }

/-- Adds a property line unless the block has its key. -/
def addNew (b : Block) (key written value : String) : Block :=
  if b.has key then b else b.add key written value

/-- A value as it is written under a key: a marked key takes a call. -/
def writtenValue (written value : String) : String :=
  if Key.isMarked written then Translation.wrap value else value

/-- Adds a property line as it was read. Keys with an underscore in front are not written. -/
def addLine (b : Block) (l : PropertyLine) : Block :=
  let key := Key.stored l.key
  if startsWith "_" key then b else b.addNew key l.key (writtenValue l.key l.value)

/-- Adds property lines as they were read. -/
def addLines (b : Block) (ls : List PropertyLine) : Block := ls.foldl addLine b

/-- The value of a compound key whose parts are both stored and not empty. -/
def joined? (values : Ledger String) (first second : String) : Option String :=
  match values.get? first, values.get? second with
  | some a, some b => if a == "" || b == "" then none else some (a ++ " " ++ b)
  | _, _ => none

/-- The compound line that a stored key belongs to, with its value. -/
def compoundLine? (values : Ledger String) (key : String) : Option (String × String) :=
  (Key.compoundOf? key).bind fun (compound, first, second) =>
    (joined? values first second).map fun value => (compound, value)

/-- Adds the line for a stored property: both parts of a compound key together, any other property
under the key as it was written. -/
def addStored (values written : Ledger String) (b : Block) (key value : String) : Block :=
  if startsWith "_" key || value == "" || b.has key then b
  else
    match compoundLine? values key with
    | some (compound, value) => b.add compound compound value
    | none =>
      let key' := (written.get? key).getD key
      b.add key key' (writtenValue key' value)

/-- Adds the lines for stored properties. -/
def addValues (b : Block) (values written : Ledger String) : Block :=
  values.entries.foldl (fun b (key, value) => addStored values written b key value) b

end Block

/-! ### Templates -/

/-- The block of a template. -/
def templateBlock (t : Template α) : Block :=
  let b : Block := ⟨[.header t.name (some t.base)], []⟩
  if t.properties.lines.isEmpty then b.addValues t.properties.values t.properties.written
  else b.addLines t.properties.lines

/-! ### Widgets -/

/-- The header of a widget: the template of an instance, else the type as written with the base if
that is another one. -/
def header (e : Element α) : Said :=
  match e.template with
  | some t => .header t.name none
  | none =>
    let name := e.displayType
    let base := textOrEmpty e.base
    if base != "" && bareType base != bareType name then .header name (some (bareType base))
    else .header name none

/-- Whether the id of a widget is written: that of a root, of a widget with events, and any id that
does not look generated. -/
def writesId (isRoot : Bool) (e : Element α) : Bool :=
  isRoot || e.hasEvents || !looksGenerated (textOrEmpty e.id)

/-- The header, the id and the properties of a widget. -/
def propertyBlock (isRoot : Bool) (e : Element α) : Block :=
  let idLine := if writesId isRoot e then [.id (textOrEmpty e.id)] else []
  let b : Block := ⟨header e :: idLine, []⟩
  if e.properties.lines.isEmpty then
    b.addValues (e.properties.values.erase "id") e.properties.written
  else b.addLines (e.properties.lines.filter fun l => Key.stored l.key != "id")

variable [Scalar α]

/-- The extent of a widget as text: that of its placement, else that of a property, else the
default. -/
def extentText (placed : Option α) (stored : Option String) (default : Int) :
    Except Fault String :=
  match placed.filter fun x => !Scalar.isZero x with
  | some x => .ok (Scalar.text x)
  | none =>
    let s := textOrEmpty stored
    if s != "" then
      match (Scalar.read? s : Option α) with
      | some x => .ok (Scalar.text x)
      | none => .ok s
    else
      match (Scalar.ofInt? default : Option α) with
      | some x => .ok (Scalar.text x)
      | none => .error .integerTooLarge

/-- Whether a block says something about the size. -/
def saysSize (b : Block) : Bool := ["size", "width", "height"].any b.keys.contains

/-- Adds a size line to the block of a widget that says no size, unless it never had one. -/
def withSize (config : Config α) (e : Element α) (b : Block) : Except Fault Block :=
  if saysSize b || e.sized == some false then .ok b
  else do
    let value (key : String) := e.properties.values.get? key
    let width ← extentText (e.placement.map (·.width)) (value "width") config.defaultWidth
    let height ← extentText (e.placement.map (·.height)) (value "height") config.defaultHeight
    return { b with lines := b.lines ++ [.size width height] }

/-- The anchors and margins of a widget: those that it was read with, else those that its placement
suggests, unless its block has some. -/
def anchorsFor (config : Config α) (e : Element α) (b : Block) :
    Except Fault (List (String × String) × List (String × Int)) :=
  if e.anchors.isSome || e.margins.isSome then
    .ok (e.anchors.getD [], ((e.margins.getD {}).entries))
  else if b.keys.any Key.isAnchor then .ok ([], [])
  else
    match e.placement with
    | none => .ok ([], [])
    | some p => do
      match ← (p.fit? config.threshold).mapError Fault.unroundable with
      | none => return ([], [])
      | some fit => return (fit.directives, fit.margins.map fun m => (m.1.name, m.2))

/-- Adds anchors and margins to a block; margins go around from the left. -/
def Block.addAnchors (b : Block) (anchors : List (String × String))
    (margins : List (String × Int)) : Block :=
  let b := anchors.foldl (fun b (key, value) => b.addNew key key value) b
  Sides.edges.foldl (fun b edge =>
    match margins.lookup edge.name with
    | some margin =>
      let key := Key.marginFront ++ edge.name
      b.addNew key key (toString margin)
    | none => b) b

/-- The block of a widget. The anchors of a root are not written after the others. -/
def widgetBlock (config : Config α) (isRoot : Bool) (e : Element α) : Except Fault Block := do
  let b ← withSize config e (propertyBlock isRoot e)
  if isRoot then return b
  let (anchors, margins) ← anchorsFor config e b
  return b.addAnchors anchors margins

end Otui.Document
