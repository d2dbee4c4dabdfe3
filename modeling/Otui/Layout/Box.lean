import Otui.Anchor.Edge
import Otui.Config
import Otui.Fault
import Otui.Widget

/-!
# What placing needs to know of a widget

The properties of a widget say how large it is, how far it keeps from others, how far its children
keep from its own sides, and which anchors it has. A measure that is no numeral counts as nought, or
as a default size.
-/

namespace Otui

variable {α : Type} [Scalar α]

open Scalar

/-! ### Sides and sizes -/

/-- The padding for the values of the property `padding`: one for all sides, one for top and bottom
and one for left and right, one each for top, both and bottom, or one each from the top on around. -/
def Sides.ofPadding : List α → Sides α
  | [] => ⟨0, 0, 0, 0⟩
  | [a] => ⟨a, a, a, a⟩
  | [a, b] => ⟨b, a, b, a⟩
  | [a, b, c] => ⟨b, a, b, c⟩
  | a :: b :: c :: d :: _ => ⟨d, a, b, c⟩

/-- The padding of a widget; a side that has a property of its own goes by that. -/
def padding (values : Ledger String) : Sides α :=
  let all : Sides α := .ofPadding ((Text.words ((values.get? "padding").getD "")).map readOrZero)
  let side (name : String) (otherwise : α) : α :=
    match values.get? ("padding-" ++ name) with
    | some s => readOrZero s
    | none => otherwise
  ⟨side "left" all.left, side "top" all.top, side "right" all.right, side "bottom" all.bottom⟩

/-- The margins of a widget. -/
def margins (values : Ledger String) : Sides α :=
  let side (name : String) : α := readOrZero ((values.get? (Key.marginFront ++ name)).getD "")
  ⟨side "left", side "top", side "right", side "bottom"⟩

/-- The extent that a property gives, if it is a numeral above nought. -/
def extent? (text : Option String) : Option α := (text.bind read?).filter fun x => 0 < x

/-- The extent of a child that says none. -/
def childExtent : α := ofNumeral (.decimal false 100 0)

/-- The extent of a root widget: what a property gives, else the default. -/
def rootExtent (text : Option String) (default : Int) : Except Fault α :=
  match extent? text with
  | some x => .ok x
  | none =>
    match ofInt? default with
    | some x => .ok x
    | none => .error .integerTooLarge

/-! ### Boxes -/

/-- What placing needs to know of a child. -/
structure Box (α : Type) where
  /-- The word for the child in notices. -/
  label : String
  /-- The id in lower case, which siblings hook the child by. -/
  id : Option String
  /-- The width. -/
  width : α
  /-- The height. -/
  height : α
  /-- The margins. -/
  margins : Sides α
  /-- The edges as written that are anchored, each with what to. -/
  anchors : List (String × String)

namespace Box

/-- The anchors among properties: the edges as written, with the values. -/
def anchorsOf (values : Ledger String) : List (String × String) :=
  values.entries.filterMap fun (key, value) =>
    if Key.isAnchor key then some (Key.anchorEdge key, value) else none

/-- The box of a child. -/
def ofElement (e : Element α) : Box α :=
  let values := e.properties.values
  { label := e.label
    id := e.id.map Text.lower
    width := (extent? (values.get? "width")).getD childExtent
    height := (extent? (values.get? "height")).getD childExtent
    margins := Otui.margins values
    anchors := anchorsOf values }

/-- A box before it is placed: at the corner. -/
def frame (b : Box α) : Rect α := ⟨0, 0, b.width, b.height⟩

end Box

end Otui
