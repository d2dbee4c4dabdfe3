import Otui.Document.Outline
import Otui.Notice
import Otui.Registry
import Otui.Widget

/-!
# Reading documents

A text is cut into content lines, the lines make an outline, and the outline becomes widgets and
templates: `Document.read`. Types are resolved from top to bottom, because a template is a type from
its opening on and an unknown type is defined where it first occurs. Two things wait until all is
read: widgets without an id get one, and widgets whose type names a template are marked as its
instances, also those that stand before it.
-/

namespace Otui

variable {α : Type}

/-! ### Properties of a widget -/

namespace Element

/-- Stores a property line in a widget: besides the property views, the id, the anchors, the margins
and the size keep theirs. A margin that is no number is reported. -/
def store (e : Element α) (key value raw : String) (number : Nat) :
    Element α × List (Nat × Notice) :=
  match e.properties.record? value ⟨key, raw, number⟩ with
  | none => (e, [])
  | some properties =>
    let e := { e with properties }
    if (Key.parts? key).isSome then
      if key == "size" && 2 ≤ (Text.words value).length then ({ e with sized := some true }, [])
      else (e, [])
    else if key == "id" then ({ e with id := some value }, [])
    else if Key.isAnchor key then
      ({ e with anchors := some (e.anchors.getD [] ++ [(Key.anchorSpelling key, value)]) }, [])
    else
      match Key.marginEdge? key with
      | none => (e, [])
      | some edge =>
        match Key.wholePart? value with
        | some margin => ({ e with margins := some ((e.margins.getD {}).insert edge margin) }, [])
        | none => (e, [(number, .strangeMargin number key value)])

/-- Stores property lines in order. -/
def storeAll (e : Element α) (ls : List (String × String × String × Nat)) :
    Element α × List (Nat × Notice) :=
  ls.foldl (fun (e, notices) (key, value, raw, number) =>
    let (e, more) := e.store key value raw number
    (e, notices ++ more)) (e, [])

end Element

/-- Stores property lines in order, as a template does. -/
def Properties.recordAll (p : Properties) (ls : List (String × String × String × Nat)) :
    Properties :=
  ls.foldl (fun p (key, value, raw, number) => (p.record? value ⟨key, raw, number⟩).getD p) p

namespace Document

/-! ### From the outline to widgets -/

/-- What a part of an outline reads as. -/
structure Reading (α : Type) where
  /-- The widgets that are not in others. -/
  widgets : List (Widget α)
  /-- All templates, in the order of their openings. -/
  templates : List (Template α)
  /-- The registry after the part. -/
  registry : Registry
  /-- The notices, each with the number of its line. -/
  notices : List (Nat × Notice)

/-- Puts the number of a line on notices. -/
def atLine (number : Nat) (notices : List Notice) : List (Nat × Notice) :=
  notices.map fun n => (number, n)

mutual

/-- Reads a part of an outline. A template inside a widget is a template like any other; a property
line outside of all openings is dropped. -/
def readPart : Outline → Registry → Reading α
  | .property .., r => ⟨[], [], r, []⟩
  | .block name none number body, r =>
    let type := r.resolve name
    let known := r.ensure type
    let inner := readParts body known.value
    let (e, own) := Element.storeAll { type, surface := some name, sized := some false }
      (ownProperties body)
    ⟨[.node e inner.widgets], inner.templates, inner.registry,
      atLine number known.notices ++ own ++ inner.notices⟩
  | .block name (some base) number body, r =>
    let resolved := r.resolve base
    let known := r.registerTemplate name resolved
    let inner := readParts body known.value
    let template : Template α :=
      { name, base
        resolvedBase := some resolved
        properties := Properties.recordAll {} (ownProperties body)
        children := inner.widgets }
    ⟨[], template :: inner.templates, inner.registry, atLine number known.notices ++ inner.notices⟩

/-- Reads the parts of an outline in order. -/
def readParts : List Outline → Registry → Reading α
  | [], r => ⟨[], [], r, []⟩
  | o :: os, r =>
    let first := readPart o r
    let rest := readParts os first.registry
    ⟨first.widgets ++ rest.widgets, first.templates ++ rest.templates, rest.registry,
      first.notices ++ rest.notices⟩

end

/-! ### Ids and instances -/

/-- The small letters of a type in lower case, or a word for none. -/
def idStem (type : String) : String :=
  let stem := String.ofList ((Text.lowerChars type.toList).filter Char.isLower)
  if stem == "" then "widget" else stem

/-- Gives an id to a widget without one: the stem of its type and how many of that stem there are. -/
def withId (e : Element α) (counts : Ledger Nat) : Element α × Ledger Nat :=
  match e.id with
  | some _ => (e, counts)
  | none =>
    let surface := textOrEmpty e.surface
    let stem := idStem (if surface != "" then surface else e.type)
    let n := (counts.get? stem).getD 0 + 1
    ({ e with id := some (stem ++ "_" ++ toString n) }, counts.insert stem n)

/-- Marks a widget whose type names a template as its instance. -/
def withTemplate (templates : List (Template α)) (e : Element α) : Element α :=
  match Template.find? templates (textOrEmpty e.surface) with
  | none => e
  | some t => { e with template := some ⟨t.name, t.instanceBase⟩, base := some t.instanceBase }

/-- Gives ids to the widgets of templates, one template after the other. -/
def finishTemplates (finish : Element α → Ledger Nat → Element α × Ledger Nat) :
    List (Template α) → Ledger Nat → List (Template α)
  | [], _ => []
  | t :: ts, counts =>
    let (children, counts) := Tree.forestMapState finish t.children counts
    { t with children } :: finishTemplates finish ts counts

/-- Gives ids and marks instances: the root widgets first, then the bodies of the templates. -/
def finish (widgets : List (Widget α)) (templates : List (Template α)) : Document α :=
  let step (e : Element α) (counts : Ledger Nat) :=
    let (e, counts) := withId e counts
    (withTemplate templates e, counts)
  let (widgets, counts) := Tree.forestMapState step widgets {}
  { widgets, templates := finishTemplates step templates counts }

/-! ### The reader -/

/-- A document with the registry of the types that it uses. -/
structure Parsed (α : Type) where
  /-- The document. -/
  document : Document α
  /-- The registry after reading. -/
  registry : Registry

/-- Reads a text, starting from a registry. Notices stand in the order of their lines. -/
def read (registry : Registry) (text : String) : Noted (Parsed α) :=
  let reading : Reading α := readParts (outline (lines text)) registry
  ⟨⟨finish reading.widgets reading.templates, reading.registry⟩,
    (reading.notices.mergeSort fun a b => a.1 ≤ b.1).map Prod.snd⟩

end Document

end Otui
