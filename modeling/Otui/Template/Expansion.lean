import Otui.Notice
import Otui.Widget

/-!
# Expanding templates

A widget whose type as written names a template takes over what the template has: properties below
its own, and copies of the widgets of its body before its own children. This goes on inside the
copies. A template is applied at most once on the way from a root to a widget; where it would be
applied again inside itself, the widget stays as it is and a notice says so.

`Widget.expanded` keeps the templates that have not been applied on the way. Each application takes
one of them, so expanding ends for any templates.
-/

namespace Otui

variable {α : Type}

namespace Template

/-- A widget of the body of a template as a child of an instance. -/
def inheritedChild (w : Widget α) : Widget α :=
  w.withLabel { w.label with inherited := true }

/-- An instance with the properties of its template below its own. -/
def applyTo (t : Template α) (e : Element α) : Element α :=
  { e with
    properties :=
      { e.properties with
        values := t.properties.values.overlay e.properties.values
        written := t.properties.written.overlay e.properties.written }
    template := some ⟨t.name, t.instanceBase⟩
    base := some t.instanceBase }

/-- The templates of other names. -/
def others (templates : List (Template α)) (name : String) : List (Template α) :=
  templates.filter fun t => t.name != name

theorem length_others_lt {templates : List (Template α)} {t : Template α} {name : String}
    (h : find? templates name = some t) : (others templates t.name).length < templates.length := by
  have hm : t ∈ templates := List.mem_of_find?_eq_some h
  unfold others
  exact List.length_filter_lt_length_iff_exists.2 ⟨t, hm, by simp⟩

end Template

namespace Widget

mutual

/-- The widget with all templates applied in it. The first argument has the templates that were not
applied on the way to it, the second the names of those that were. -/
def expanded (unused : List (Template α)) (applied : List String) :
    Widget α → Noted (Widget α)
  | .node e cs =>
    let type := textOrEmpty e.surface
    match h : Template.find? unused type with
    | some t => do
      let rest := Template.others unused t.name
      let inherited ← allExpanded rest (t.name :: applied) (t.children.map Template.inheritedChild)
      let own ← allExpanded rest (t.name :: applied) cs
      return .node (t.applyTo e) (inherited ++ own)
    | none => do
      if applied.contains type then Noted.say (.selfContaining type)
      let cs ← allExpanded unused applied cs
      return .node e cs
  termination_by w => (unused.length, sizeOf w)
  decreasing_by
    · exact Prod.Lex.left _ _ (Template.length_others_lt h)
    · exact Prod.Lex.left _ _ (Template.length_others_lt h)
    · exact Prod.Lex.right _ (by simp only [Tree.node.sizeOf_spec]; omega)

/-- The widgets of a list with all templates applied in them. -/
def allExpanded (unused : List (Template α)) (applied : List String) :
    List (Widget α) → Noted (List (Widget α))
  | [] => pure []
  | w :: ws => do
    let w ← expanded unused applied w
    let ws ← allExpanded unused applied ws
    return w :: ws
  termination_by ws => (unused.length, sizeOf ws)
  decreasing_by
    · exact Prod.Lex.right _ (by simp only [List.cons.sizeOf_spec]; omega)
    · exact Prod.Lex.right _ (by simp only [List.cons.sizeOf_spec]; omega)

end

end Widget

/-- Root widgets with all templates applied in them; the first template of a name counts. -/
def expand (templates : List (Template α)) (widgets : List (Widget α)) : Noted (List (Widget α)) :=
  Widget.allExpanded templates [] widgets

end Otui
