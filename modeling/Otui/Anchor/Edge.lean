import Otui.Number.Scalar
import Otui.Text.Blank
import Otui.Text.LetterCase
import Otui.Text.Lines

/-!
# Edges

A rectangle has six edges that a widget can be anchored by: on each of the two axes the near edge,
the far edge and the line through the middle. An edge has a name, which is read without regard to
case, white space and dashes, and stands for a coordinate of a rectangle.
-/

namespace Otui

/-- The axes. -/
inductive Axis where
  /-- From left to right. -/
  | horizontal
  /-- From top to bottom. -/
  | vertical
  deriving DecidableEq

/-- The places on an axis. -/
inductive Spot where
  /-- The edge that comes first. -/
  | near
  /-- The middle. -/
  | middle
  /-- The edge that comes last. -/
  | far
  deriving DecidableEq

/-- An edge of a rectangle. -/
structure Edge where
  /-- The axis that the edge has a coordinate on. -/
  axis : Axis
  /-- The place of the edge on its axis. -/
  spot : Spot
  deriving DecidableEq

namespace Edge

/-- The edge on the left. -/
def left : Edge := ⟨.horizontal, .near⟩

/-- The edge on the right. -/
def right : Edge := ⟨.horizontal, .far⟩

/-- The edge at the top. -/
def top : Edge := ⟨.vertical, .near⟩

/-- The edge at the bottom. -/
def bottom : Edge := ⟨.vertical, .far⟩

/-- The name of an edge in documents. -/
def name : Edge → String
  | ⟨.horizontal, .near⟩ => "left"
  | ⟨.horizontal, .middle⟩ => "horizontalCenter"
  | ⟨.horizontal, .far⟩ => "right"
  | ⟨.vertical, .near⟩ => "top"
  | ⟨.vertical, .middle⟩ => "verticalCenter"
  | ⟨.vertical, .far⟩ => "bottom"

/-- All edges. -/
def all : List Edge :=
  [left, right, top, bottom, ⟨.horizontal, .middle⟩, ⟨.vertical, .middle⟩]

/-- A name in lower case, without white space and dashes. -/
def plainName (s : String) : List Char :=
  (Text.lower (Text.join "" (Text.words s))).toList.filter (· != '-')

/-- The edge of a name. -/
def read? (s : String) : Option Edge :=
  all.find? fun e => plainName e.name == plainName s

end Edge

/-! ### Rectangles -/

/-- A rectangle. -/
structure Rect (α : Type) where
  /-- Where the rectangle starts from left to right. -/
  left : α
  /-- Where the rectangle starts from top to bottom. -/
  top : α
  /-- The extent from left to right. -/
  width : α
  /-- The extent from top to bottom. -/
  height : α
  deriving DecidableEq

namespace Rect

variable {α : Type}

/-- Where a rectangle starts on an axis. -/
def start (r : Rect α) : Axis → α
  | .horizontal => r.left
  | .vertical => r.top

/-- The extent of a rectangle on an axis. -/
def extent (r : Rect α) : Axis → α
  | .horizontal => r.width
  | .vertical => r.height

/-- The rectangle moved on one axis so that it starts at `x`. -/
def startingAt (r : Rect α) (x : α) : Axis → Rect α
  | .horizontal => { r with left := x }
  | .vertical => { r with top := x }

variable [Scalar α]

/-- The share of the extent that lies before a place. -/
def share : Spot → α
  | .near => 0
  | .middle => Scalar.half
  | .far => 1

/-- The coordinate of an edge. -/
def point (r : Rect α) (e : Edge) : α := r.start e.axis + share e.spot * r.extent e.axis

end Rect

/-! ### Sides -/

/-- A measure for each side of a rectangle. -/
structure Sides (α : Type) where
  /-- On the left. -/
  left : α
  /-- At the top. -/
  top : α
  /-- On the right. -/
  right : α
  /-- At the bottom. -/
  bottom : α
  deriving DecidableEq

namespace Sides

variable {α : Type}

/-- The edges of a rectangle that are sides, in the order in which margins are written. -/
def edges : List Edge := [.left, .top, .right, .bottom]

/-- The measure on the side where an axis starts. -/
def near (s : Sides α) : Axis → α
  | .horizontal => s.left
  | .vertical => s.top

/-- The measure on the side where an axis ends. -/
def far (s : Sides α) : Axis → α
  | .horizontal => s.right
  | .vertical => s.bottom

end Sides

end Otui
