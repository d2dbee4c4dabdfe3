import Otui.Color
import Otui.Data
import Otui.Outcome

/-!
# Painters

A preview is drawn by a painter, who reads colors, measures texts and carries drawing commands out.
A painter may fail at any of these, each time for reasons of its own; the preview goes on without a
color that makes no sense, and ends with any other fault. The painter of the program draws nothing:
the commands themselves are what it leaves.
-/

namespace Otui

/-- A rectangle of pixels; the right and the bottom are just outside of it. -/
structure PixelBox where
  /-- The first column. -/
  left : Int
  /-- The first row. -/
  top : Int
  /-- The column after the last. -/
  right : Int
  /-- The row after the last. -/
  bottom : Int
  deriving DecidableEq

namespace PixelBox

/-- Whether there is no pixel in a rectangle. -/
def isEmpty (b : PixelBox) : Bool := b.right ≤ b.left || b.bottom ≤ b.top

/-- How many columns there are. -/
def width (b : PixelBox) : Int := b.right - b.left

/-- How many rows there are. -/
def height (b : PixelBox) : Int := b.bottom - b.top

end PixelBox

/-- A coordinate in a drawing: a pixel, or a point that need not be one. -/
inductive Coordinate (α : Type) where
  /-- A pixel. -/
  | pixel (n : Int)
  /-- A point. -/
  | point (x : α)
  deriving DecidableEq

/-- A drawing command. -/
inductive Drawing (α : Type) where
  /-- A new canvas. -/
  | canvas (width height : Int) (color : Color)
  /-- A filled rectangle. -/
  | fill (box : PixelBox) (color : Color)
  /-- The border of a rectangle. -/
  | outline (box : PixelBox) (color : Color) (width : Int)
  /-- A part of an image, or all of it, brought to a size. -/
  | image (source : String) (clip : Option PixelBox) (width height left top : Int)
  /-- A text, in a color if there is one. -/
  | text (left : Coordinate α) (top : α) (text : String) (color : Option Color)

namespace Drawing

/-- A color as data. -/
def colorData (c : Color) : Data := .list ([c.red, c.green, c.blue, c.alpha].map .int)

/-- A rectangle as data. -/
def boxData (b : PixelBox) : Data := .list ([b.left, b.top, b.right, b.bottom].map .int)

/-- A coordinate as data. -/
def coordinateData : Coordinate Float → Data
  | .pixel n => .int n
  | .point x => .float x

/-- A drawing command as data: its name, and what it says. -/
def toData : Drawing Float → Data
  | .canvas width height color =>
    .list [.text "canvas", .int width, .int height, colorData color]
  | .fill box color => .list [.text "fill", boxData box, colorData color]
  | .outline box color width => .list [.text "outline", boxData box, colorData color, .int width]
  | .image source clip width height left top =>
    .list [.text "image", .text source, .ofOption boxData clip, .int width, .int height, .int left,
      .int top]
  | .text left top s color =>
    .list [.text "text", coordinateData left, .float top, .text s, .ofOption colorData color]

end Drawing

/-- Who draws previews. -/
structure Painter (α : Type) where
  /-- The color that a text says. -/
  color : String → Except Fault Color
  /-- The rectangle that a text takes up when it starts at the corner. -/
  extent : String → Except Fault PixelBox
  /-- Carries a command out. -/
  carryOut : Drawing α → Except Fault Unit

namespace Painter

variable {α : Type}

/-- Has a command carried out; the commands that this leaves are the command itself. -/
def issue (painter : Painter α) (d : Drawing α) : Outcome (List (Drawing α)) := do
  Outcome.ofExcept (painter.carryOut d)
  return [d]

/-- The painter of the program. All characters have one width, and there is nothing that it does not
carry out. -/
def standard : Painter α where
  color s := (Color.read s).mapError (.outside .badValue)
  extent s := .ok ⟨1, 2, 1 + 6 * s.toList.length, 13⟩
  carryOut _ := .ok ()

end Painter

end Otui
