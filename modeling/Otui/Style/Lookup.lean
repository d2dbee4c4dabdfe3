import Otui.Registry
import Otui.Style.Inheritance
import Otui.Widget

/-!
# The style of a widget

A type of widgets has style names: those that the registry lists, then the type without the front
that canonical types have, then the type itself. The first of them that a sheet has is the style of
the type.
-/

namespace Otui.Sheet

/-- The style names of a type, best first. -/
def candidates (registry : Option Registry) (type : String) : List String :=
  let listed := registry.bind fun r => r.styleNames.get? type
  listed.getD [] ++ [bareType type, type]

/-- The style of a name with inheritance resolved. -/
def resolved? (sheet : Sheet) (name : String) : Option Style :=
  (sheet.get? name).bind fun style =>
    if style.flattened.isSome then some style else sheet.resolve.value.get? name

/-- The style of a type, with inheritance resolved. -/
def styleFor? (sheet : Sheet) (registry : Option Registry) (type : String) : Option Style :=
  if type == "" then none
  else ((candidates registry type).find? sheet.contains).bind sheet.resolved?

/-- The properties of the style of a widget with its own on top. The style goes by the base of the
widget, or its type; failing that, by the name of its template. -/
def effectiveProperties {α : Type} (sheet : Sheet) (registry : Option Registry) (e : Element α) :
    Ledger String :=
  let base := textOrEmpty e.base
  let style := (sheet.styleFor? registry (if base != "" then base else e.type)).orElse fun _ =>
    e.template.bind fun t => sheet.styleFor? registry t.name
  match style with
  | some s => s.inForce.overlay e.properties.values
  | none => e.properties.values

end Otui.Sheet
