import Otui.Data.Numbers
import Otui.Fault
import Otui.Registry

/-!
# Registries from data

A registry file is a mapping with the definitions, the other names and the style names. A definition
that says nothing is an empty one; whether a type is a container is any value that counts as true.
Types, properties and other names are looked up by texts, so that what stands under any other name is
read and checked, but not kept.
-/

namespace Otui

namespace Data

/-- An entry of a mapping, or nothing when it is absent or counts as false. -/
def orNothing (d : Data) (key : String) : Option Data :=
  match d.get? key with
  | some v => if v.truthy then some v else none
  | none => none

/-- The entries of a value that must be a mapping. -/
def entriesOf : Option Data → Except Fault (List (Data × Data))
  | none => .ok []
  | some (.mapping es) => .ok es
  | some _ => .error .notAMapping

/-- The first kind of value in a value that cannot be a name. -/
def unhashable? : Data → Option String
  | .list _ => some "list"
  | .set _ => some "set"
  | .mapping _ => some "dict"
  | .pair first second => (unhashable? first).orElse fun _ => unhashable? second
  | _ => none

/-- A value that is to be a name. -/
def asName (d : Data) : Except Fault Data :=
  match d.unhashable? with
  | some kind => .error (.notAName kind)
  | none => .ok d

/-- A pair of a name and a value, as the member at an index: a value with two members. -/
def pairAt (index : Nat) (d : Data) : Except Fault (Data × Data) :=
  match d.members? with
  | some [k, v] => (asName k).map fun k => (k, v)
  | some ds => .error (.pairLength index ds.length)
  | none => .error (.notAPair index)

/-- The pairs of a list from an index on. -/
def pairsFrom (index : Nat) : List Data → Except Fault (List (Data × Data))
  | [] => .ok []
  | d :: ds => do
    let e ← pairAt index d
    let es ← pairsFrom (index + 1) ds
    return e :: es

/-- The entries of a value that is a mapping or has pairs as members. -/
def pairsOf : Option Data → Except Fault (List (Data × Data))
  | none => .ok []
  | some (.mapping es) => .ok es
  | some d =>
    match d.members? with
    | some ds => pairsFrom 0 ds
    | none => .error (.noMembers d.kind)

/-- The members of a value as texts. -/
def memberTexts (d : Data) : Except Fault (List String) :=
  match d.members? with
  | some ds => ds.mapM toText
  | none => .error (.noMembers d.kind)

end Data

/-- Reads an event: its name and the signature of its handler, both as texts. -/
def Definition.eventOfData (name signature : Data) : Except Fault (String × String) := do
  let name ← name.toText
  let signature ← signature.toText
  return (name, signature)

/-- Reads the definition of a type. -/
def Definition.ofData (name : Data) (d : Data) : Except Fault Definition := do
  let d ← match d with
    | .mapping es => .ok (.mapping es)
    | d =>
      if d.truthy then (name.toText).bind fun name => .error (.definitionNotAMapping name)
      else .ok (Data.mapping [])
  let props ← Data.pairsOf (d.orNothing "props")
  let events ← Data.entriesOf (d.orNothing "events")
  let events ← events.mapM fun e => eventOfData e.1 e.2
  return {
    name := name.display
    category := (d.get? "category").getD (.text "Display")
    isContainer := ((d.get? "container").getD (.bool false)).truthy
    props := .ofList (Data.textEntries props)
    events := .ofList events }

/-- Reads the style names of a type: one name, or the members of a value. -/
def styleNamesOfData : Data → Except Fault (List String)
  | .text s => .ok [s]
  | d => d.memberTexts

/-- Reads the values of entries; each is given with its name. -/
def Registry.readEntries {ν : Type} (read : Data → Data → Except Fault ν)
    (es : List (Data × Data)) : Except Fault (List (Data × ν)) :=
  es.mapM fun e => (read e.1 e.2).map fun v => (e.1, v)

/-- Reads a registry: the definitions, then the style names, then the other names. -/
def Registry.ofData (d : Data) : Except Fault Registry := do
  let d ← match d with
    | .null => .ok (Data.mapping [])
    | .mapping es => .ok (.mapping es)
    | _ => .error Fault.registryNotAMapping
  let widgets ← Data.entriesOf (d.orNothing "widgets")
  let definitions ← readEntries Definition.ofData widgets
  let styles ← Data.entriesOf (d.orNothing "style_names")
  let styleNames ← readEntries (fun _ => styleNamesOfData) styles
  let aliases ← Data.pairsOf (d.orNothing "aliases")
  return {
    definitions := .ofList (Data.textEntries definitions)
    aliases := .ofList ((Data.textEntries aliases).map fun e => (e.1, e.2.display))
    styleNames := .ofList (Data.textEntries styleNames) }

end Otui
