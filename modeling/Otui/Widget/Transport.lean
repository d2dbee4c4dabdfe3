import Otui.Data.Numbers
import Otui.Widget

/-!
# Widgets as data

Widgets and templates travel as free-form data: in dumps, and between a program and its editors.
`Widget.toData` writes one and `Widget.ofData` reads one. Absent and empty stay apart on the way.
-/

namespace Otui

namespace PropertyLine

/-- A property line as data. -/
def toData (l : PropertyLine) : Data :=
  .record [("key", .text l.key), ("value", .text l.value), ("line", .int l.line)]

end PropertyLine

namespace Placement

/-- The names of the measures of a placement, in order. -/
def names : List String :=
  ["left", "top", "width", "height", "parent_width", "parent_height", "parent_padding_left",
   "parent_padding_top", "parent_padding_right", "parent_padding_bottom"]

/-- The measures of a placement, in order. -/
def measures {α : Type} (p : Placement α) : List α :=
  [p.left, p.top, p.width, p.height, p.parentWidth, p.parentHeight, p.paddingLeft, p.paddingTop,
   p.paddingRight, p.paddingBottom]

/-- A placement as data. -/
def toData (p : Placement Float) : Data := .record (names.zip (p.measures.map .float))

end Placement

/-! ### Writing -/

/-- A map of texts as data. -/
def textsToData (m : Ledger String) : Data := .ofLedger .text m

/-- What an element says, as the entries of data around those of its children. -/
def Element.toEntries (e : Element Float) (children : Data) : List (String × Data) :=
  [("type", .text e.type),
   ("surface_type", .ofOption .text e.surface),
   ("base_type", .ofOption .text e.base),
   ("id", .ofOption .text e.id),
   ("property_list", .list (e.properties.lines.map PropertyLine.toData)),
   ("properties", textsToData e.properties.values),
   ("original_keys", textsToData e.properties.written),
   ("children", children),
   ("template", .ofOption
      (fun t => .record [("name", .text t.name), ("base_type", .text t.base)]) e.template),
   ("layout", .ofOption Placement.toData e.placement),
   ("original_anchors", .ofOption
      (fun as => .list (as.map fun a => .list [.text a.1, .text a.2])) e.anchors),
   ("original_margins", .ofOption (.ofLedger .int) e.margins),
   ("size_defined", .ofOption .bool e.sized),
   ("inherited", .bool e.inherited)]

namespace Widget

mutual

/-- A widget as data. -/
def toData : Widget Float → Data
  | .node e cs => .record (e.toEntries (.list (allToData cs)))

/-- The widgets of a list as data. -/
def allToData : List (Widget Float) → List Data
  | [] => []
  | w :: ws => toData w :: allToData ws

end

end Widget

/-- A template as data. -/
def Template.toData (t : Template Float) : Data :=
  .record
    [("name", .text t.name),
     ("base_type", .text t.base),
     ("resolved_base", .ofOption .text t.resolvedBase),
     ("property_list", .list (t.properties.lines.map PropertyLine.toData)),
     ("properties", textsToData t.properties.values),
     ("original_keys", textsToData t.properties.written),
     ("children", .list (Widget.allToData t.children))]

/-! ### Reading -/

namespace Data

/-- An entry that must be there. -/
def require (d : Data) (key : String) : Except Fault Data :=
  match d.get? key with
  | some v => .ok v
  | none => .error (.missingEntry key)

/-- The text of a value; any other value is shown. -/
def asText (d : Data) : String := d.display

/-- An optional text. -/
def asText? : Option Data → Option String
  | none | some .null => none
  | some d => some d.asText

/-- The members of a list; an absent one is empty. -/
def asList : Option Data → Except Fault (List Data)
  | none => .ok []
  | some (.list ds) => .ok ds
  | some d => .error (.noMembers d.kind)

/-- The entries of a mapping, their names as texts; an absent one is empty. -/
def asEntries : Option Data → Except Fault (List (String × Data))
  | none => .ok []
  | some (.mapping es) => .ok (es.map fun e => (e.1.asText, e.2))
  | some d => .error (.noMembers d.kind)

/-- A map of texts; an absent one is empty. -/
def asTexts (d : Option Data) : Except Fault (Ledger String) :=
  (asEntries d).map fun es => .ofList (es.map fun e => (e.1, e.2.asText))

/-- A truth value. -/
def asBool? : Option Data → Option Bool
  | none | some .null => none
  | some d => some d.truthy

/-- A number, nought when it is absent or none. -/
def asFloat (d : Option Data) : Float :=
  match d with
  | some d => d.toFloat.toOption.getD 0.0
  | none => 0.0

end Data

/-- Reads a property line: its key, then its value, then its number. -/
def PropertyLine.ofData (d : Data) : Except Fault PropertyLine := do
  let key ← d.require "key"
  let value ← d.require "value"
  let line ← ((d.get? "line").getD (.int 0)).toInt
  return ⟨key.asText, value.asText, line⟩

/-- Reads a placement. -/
def Placement.ofData (d : Data) : Placement Float :=
  let m (name : String) := Data.asFloat (d.get? name)
  { left := m "left"
    top := m "top"
    width := m "width"
    height := m "height"
    parentWidth := m "parent_width"
    parentHeight := m "parent_height"
    paddingLeft := m "parent_padding_left"
    paddingTop := m "parent_padding_top"
    paddingRight := m "parent_padding_right"
    paddingBottom := m "parent_padding_bottom" }

/-- Reads the lines, the values and the written keys of properties. -/
def Properties.ofData (d : Data) : Except Fault Properties := do
  let lines ← (← Data.asList (d.get? "property_list")).mapM PropertyLine.ofData
  let values ← Data.asTexts (d.get? "properties")
  let written ← Data.asTexts (d.get? "original_keys")
  return { lines, values, written }

/-- Reads a reference to a template; nothing and what is empty is no reference. -/
def TemplateRef.ofData? (d : Option Data) : Option TemplateRef :=
  match d with
  | some d =>
    if d.truthy then
      some ⟨(d.get? "name").elim "" Data.asText, (d.get? "base_type").elim "" Data.asText⟩
    else none
  | none => none

/-- Reads the anchors of an element. -/
def Element.anchorsOfData? (d : Option Data) : Except Fault (Option (List (String × String))) :=
  match d with
  | none | some .null => .ok none
  | some d => do
    let as ← Data.asList (some d)
    let as ← as.mapM fun a =>
      match a with
      | .list [k, v] => .ok (k.asText, v.asText)
      | a => .error (.noMembers a.kind)
    return some as

/-- Reads the margins of an element. -/
def Element.marginsOfData? (d : Option Data) : Except Fault (Option (Ledger Int)) :=
  match d with
  | none | some .null => .ok none
  | some d => do
    let es ← Data.asEntries (some d)
    let es ← es.mapM fun (k, v) => v.toInt.map fun n => (k, n)
    return some (.ofList es)

/-- Reads an element: its type, its properties, the checks on its children, and the rest. -/
def Element.ofData (d : Data) (type : Data) (properties : Properties) :
    Except Fault (Element Float) := do
  let anchors ← Element.anchorsOfData? (d.get? "original_anchors")
  let margins ← Element.marginsOfData? (d.get? "original_margins")
  return {
    type := type.asText
    surface := Data.asText? (d.get? "surface_type")
    base := Data.asText? (d.get? "base_type")
    id := Data.asText? (d.get? "id")
    properties
    template := TemplateRef.ofData? (d.get? "template")
    placement := match d.get? "layout" with
      | some l => if l.truthy then some (Placement.ofData l) else none
      | none => none
    anchors
    margins
    sized := Data.asBool? (d.get? "size_defined")
    inherited := (Data.asBool? (d.get? "inherited")).getD false }

namespace Widget

mutual

/-- Reads a widget: its type, its property lines, its children, its anchors and margins. -/
def ofData : Data → Except Fault (Widget Float)
  | .mapping es => do
    let d := Data.mapping es
    let type ← d.require "type"
    let properties ← Properties.ofData d
    let children ← childrenIn es
    let e ← Element.ofData d type properties
    return .node e children
  | _ => .error (.missingEntry "type")

/-- Reads the children among the entries of a widget; absent ones are none. -/
def childrenIn : List (Data × Data) → Except Fault (List (Widget Float))
  | [] => .ok []
  | (key, d) :: es => if key.text? = some "children" then ofList d else childrenIn es

/-- Reads the widgets of a value that must be a list. -/
def ofList : Data → Except Fault (List (Widget Float))
  | .list ds => allOfData ds
  | d => .error (.noMembers d.kind)

/-- Reads a list of widgets. -/
def allOfData : List Data → Except Fault (List (Widget Float))
  | [] => .ok []
  | d :: ds => do
    let w ← ofData d
    let ws ← allOfData ds
    return w :: ws

end

end Widget

/-- Reads a template: its name and base, its property lines, its children. -/
def Template.ofData (d : Data) : Except Fault (Template Float) := do
  let name ← d.require "name"
  let base ← d.require "base_type"
  let properties ← Properties.ofData d
  let children ← match d with
    | .mapping es => Widget.childrenIn es
    | _ => .ok []
  return {
    name := name.asText
    base := base.asText
    resolvedBase := Data.asText? (d.get? "resolved_base")
    properties
    children }

end Otui
