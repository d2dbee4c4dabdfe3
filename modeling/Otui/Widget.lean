import Otui.Number.Scalar
import Otui.Property
import Otui.Text.Quoted
import Otui.Tree

/-!
# Widgets, templates and documents

A widget is a tree of elements. An element has its canonical type and the type as written, its
properties, and what reading, expanding and placing have found out about it. Some of that may be
absent, and absent differs from empty: a widget that never had anchors may get inferred ones, one
whose anchors were all removed may not.

A template is a named definition with a body of widgets; a document is a list of widgets and a list
of templates.
-/

namespace Otui

/-- Where a widget stands, measured from the outer corner of its parent. -/
structure Placement (α : Type) where
  /-- Distance from the left. -/
  left : α
  /-- Distance from the top. -/
  top : α
  /-- Width of the widget. -/
  width : α
  /-- Height of the widget. -/
  height : α
  /-- Width of the parent; nought for a root. -/
  parentWidth : α
  /-- Height of the parent. -/
  parentHeight : α
  /-- Padding of the parent on the left. -/
  paddingLeft : α
  /-- Padding of the parent at the top. -/
  paddingTop : α
  /-- Padding of the parent on the right. -/
  paddingRight : α
  /-- Padding of the parent at the bottom. -/
  paddingBottom : α
  deriving DecidableEq

namespace Placement

variable {α : Type} [Scalar α]

/-- The width of the parent inside its padding. -/
def contentWidth (p : Placement α) : α :=
  Scalar.atLeastZero (p.parentWidth - p.paddingLeft - p.paddingRight)

/-- The height of the parent inside its padding. -/
def contentHeight (p : Placement α) : α :=
  Scalar.atLeastZero (p.parentHeight - p.paddingTop - p.paddingBottom)

end Placement

/-- The template that a widget is an instance of. -/
structure TemplateRef where
  /-- The name of the template. -/
  name : String
  /-- The type that the template is based on. -/
  base : String
  deriving DecidableEq

/-- What a widget is apart from its children. -/
structure Element (α : Type) where
  /-- The canonical type. -/
  type : String
  /-- The type as written. -/
  surface : Option String := none
  /-- The type that an instance of a template is based on. -/
  base : Option String := none
  /-- The id. -/
  id : Option String := none
  /-- The properties. -/
  properties : Properties := {}
  /-- The template that the widget is an instance of. -/
  template : Option TemplateRef := none
  /-- Where the widget stands. -/
  placement : Option (Placement α) := none
  /-- The anchors as written, keys in the spelling in use. -/
  anchors : Option (List (String × String)) := none
  /-- The margins as written, by edge. -/
  margins : Option (Ledger Int) := none
  /-- Whether the widget was given a size. -/
  sized : Option Bool := none
  /-- Whether the widget comes from the body of a template. -/
  inherited : Bool := false

instance {α : Type} : Inhabited (Element α) := ⟨{ type := "" }⟩

/-- A widget with its children. -/
abbrev Widget (α : Type) := Tree (Element α)

/-- A named definition. -/
structure Template (α : Type) where
  /-- The name that instances use as their type. -/
  name : String
  /-- The base as declared. -/
  base : String
  /-- The canonical type of the base. -/
  resolvedBase : Option String := none
  /-- The properties of the body. -/
  properties : Properties := {}
  /-- The widgets of the body. -/
  children : List (Widget α) := []

instance {α : Type} : Inhabited (Template α) := ⟨{ name := "", base := "" }⟩

/-- Widgets and templates, each in order. -/
structure Document (α : Type) where
  /-- The root widgets. -/
  widgets : List (Widget α) := []
  /-- The templates. -/
  templates : List (Template α) := []

/-! ### Names of types -/

/-- A type without the front that canonical types have. -/
def bareType (type : String) : String :=
  if Text.startsWith "UI" type && 2 < type.toList.length then Text.dropFront 2 type else type

/-- An optional text, empty when it is absent. -/
def textOrEmpty (s : Option String) : String := s.getD ""

variable {α : Type}

namespace Element

/-- The type as it stands in a document. -/
def displayType (e : Element α) : String :=
  let surface := textOrEmpty e.surface
  if surface != "" then surface else bareType e.type

/-- The word for a widget in notices: its id, or its type when the id is absent or empty. -/
def label (e : Element α) : String :=
  let id := textOrEmpty e.id
  if id != "" then id else e.type

/-- Whether the widget has an event. -/
def hasEvents (e : Element α) : Bool := e.properties.hasEvents

/-- Whether a widget can be written: it has a type and an id. -/
def isWritable (e : Element α) : Bool := e.type != "" && textOrEmpty e.id != ""

end Element

namespace Template

/-- The type that instances of a template are based on. -/
def instanceBase (t : Template α) : String :=
  let resolved := textOrEmpty t.resolvedBase
  if resolved != "" then resolved else t.base

/-- The first template of a name. -/
def find? (templates : List (Template α)) (name : String) : Option (Template α) :=
  templates.find? (·.name == name)

end Template

namespace Document

/-- The first widget of a forest, depth first, with an id. -/
def findById? (widgets : List (Widget α)) (id : String) : Option (Widget α) :=
  (Tree.forestNodes widgets).find? fun w => w.label.id == some id

end Document

/-- The short description of a widget in notices. -/
def describe (w : Widget α) : String :=
  let id := textOrEmpty w.label.id
  let idPart := if id != "" then s!", id={Text.quoted id}" else ""
  let children := w.children.length
  let childPart := if children != 0 then s!", children={children}" else ""
  s!"WidgetNode({Text.quoted w.label.displayType}{idPart}{childPart})"

end Otui
