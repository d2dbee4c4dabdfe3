import Otui.Layout
import Otui.Preview.Painter
import Otui.Style.Lookup
import Otui.Translation

/-!
# Previews

A preview shows root widgets from left to right with a gap between them. Its painter is given drawing
commands: the canvas first, then every widget, a widget before those in it, each with its
background, its image, its border and its text. What a widget looks like is said by the style of
its type with its own properties on top.
-/

namespace Otui

/-- What comes of opening an image. -/
inductive OpenedImage where
  /-- There is an image. -/
  | found
  /-- There is a file that is no image. -/
  | broken (reason : String)
  /-- There is nothing. -/
  | missing
  deriving DecidableEq

/-- What a preview is drawn with. -/
structure Palette (α : Type) where
  /-- The styles. -/
  sheet : Sheet := {}
  /-- The registry with the style names of types. -/
  registry : Option Registry := none
  /-- How to open images, if there are any. -/
  openImage : Option (String → OpenedImage) := none
  /-- Who draws. -/
  painter : Painter α
  /-- The settings. -/
  config : Config α

namespace Preview

/-- The extensions of the pictures that a preview can be saved as. -/
def pictureExtensions : List String :=
  [".png", ".apng", ".webp", ".gif", ".bmp", ".dib", ".tif", ".tiff", ".tga", ".ico", ".icns",
   ".sgi", ".im", ".jp2"]

/-- The color of the canvas. -/
def canvasColor : Color := ⟨32, 32, 32, 255⟩

/-- What the color of a text is that says none. -/
def standardTextColor : String := "#dfdfdf"

/-- The gap between root widgets. -/
def gap : Int := 10

/-! ### Values of properties -/

/-- The integer that a property says, a default for what is no number; an infinity is a fault. -/
def wholeNumber (default : Int) (text : Option String) : Except Fault Int :=
  match text.bind Number.float? with
  | none => .ok default
  | some x =>
    match Number.truncate x with
    | .ok n => .ok n
    | .error .notANumber => .ok default
    | .error .infinite => .error (.unroundable .infinite)

variable {α : Type}

/-- The color that a property says; one that makes no sense is reported. -/
def colorOf (painter : Painter α) (text : Option String) : Outcome (Option Color) := do
  let text := textOrEmpty text
  if text == "" then return none
  match painter.color (Text.trim text) with
  | .ok color => return some color
  | .error fault =>
    if fault.isBadValue then
      Outcome.ofNoted (Noted.say (.strangeColor text))
      return none
    else throw fault

/-- The color that a text is drawn in, if there is one. -/
def textColor (painter : Painter α) (text : Option String) : Outcome (Option Color) := do
  match ← colorOf painter text with
  | some color => return some color
  | none => colorOf painter (some standardTextColor)

variable [Scalar α]

/-- The coordinate for an integer. -/
def coordinate (n : Int) : Except Fault α :=
  match Scalar.ofInt? n with
  | some x => .ok x
  | none => .error .integerTooLarge

/-- The coordinate for half of an integer. -/
def halfOf (n : Int) : Except Fault α :=
  match Scalar.halfOf? n with
  | some x => .ok x
  | none => .error .quotientTooLarge

/-- The nearest pixel. -/
def pixel (x : α) : Except Fault Int := (Scalar.nearest x).mapError .unroundable

/-! ### Boxes -/

/-- The pixels of a widget that stands at a point. -/
def pixelBox (left top : α) (p : Placement α) : Except Fault PixelBox := do
  let x₀ ← pixel left
  let y₀ ← pixel top
  let x₁ ← pixel (left + p.width)
  let y₁ ← pixel (top + p.height)
  return ⟨x₀, y₀, x₁, y₁⟩

/-- The extents of root widgets in pixels. -/
def rootExtents (measure : Placement α → α) (ps : List (Placement α)) : Except Fault (List Int) :=
  ps.mapM fun p => pixel (measure p)

/-- Where root widgets of some widths start, and where the next one would. -/
def rootOffsets (start : Int) : List Int → List Int × Int
  | [] => ([], start)
  | w :: ws =>
    let (offsets, next) := rootOffsets (start + w + gap) ws
    (start :: offsets, next)

/-- The greatest of some integers, one if there are none. -/
def greatest : List Int → Int
  | [] => 1
  | [n] => n
  | n :: ns => max n (greatest ns)

/-! ### Painting a widget -/

/-- The commands for the background of a widget. -/
def background (painter : Painter α) (props : Ledger String) (box : PixelBox) :
    Outcome (List (Drawing α)) := do
  let own := textOrEmpty (props.get? "background-color")
  match ← colorOf painter (if own != "" then some own else props.get? "background") with
  | none => return []
  | some color => painter.issue (.fill box color)

/-- The part of an image that a property names, if it names one: where it starts and its size. -/
def clipOf (props : Ledger String) : Except Fault (Option PixelBox) := do
  let numbers ← (Text.words (textOrEmpty (props.get? "image-clip"))).mapM fun w =>
    wholeNumber 0 (some w)
  match numbers with
  | [x, y, w, h] => return if 0 < w && 0 < h then some ⟨x, y, x + w, y + h⟩ else none
  | _ => return none

/-- The commands for the image of a widget. -/
def image (palette : Palette α) (props : Ledger String) (box : PixelBox) :
    Outcome (List (Drawing α)) := do
  let source := textOrEmpty (props.get? "image-source")
  match palette.openImage with
  | none => return []
  | some openImage =>
    if source == "" then return []
    match openImage source with
    | .broken reason =>
      Outcome.ofNoted (Noted.say (.brokenImage source reason))
      return []
    | .missing =>
      Outcome.ofNoted (Noted.say (.noImage source))
      return []
    | .found =>
      let clip ← Outcome.ofExcept (clipOf props)
      palette.painter.issue
        (.image source clip box.width box.height (max 0 box.left) (max 0 box.top))

/-- The commands for the border of a widget. -/
def border (painter : Painter α) (props : Ledger String) (box : PixelBox) :
    Outcome (List (Drawing α)) := do
  match ← colorOf painter (props.get? "border-color") with
  | none => return []
  | some color =>
    let width ← Outcome.ofExcept (wholeNumber 1 (props.get? "border-width"))
    painter.issue (.outline box color width)

/-- Where a text starts so that it is in the middle of an extent. -/
def centred (first last extent : Int) : Except Fault α := do
  let space ← halfOf (last - first - extent)
  return (← coordinate first) + space

/-- Where a text of some width starts from left to right. -/
def textLeft (align : String) (box : PixelBox) (width : Int) : Except Fault (Coordinate α) :=
  if Text.endsWith "left" align then .ok (.pixel (box.left + 2))
  else if Text.endsWith "right" align then .ok (.pixel (box.right - width - 2))
  else (centred box.left box.right width).map .point

/-- A point moved by some pixels. -/
def movedPoint (x : α) (n : Int) : Except Fault α := (coordinate n).map fun d => x + d

/-- A coordinate moved by some pixels. -/
def moved (n : Int) : Coordinate α → Except Fault (Coordinate α)
  | .pixel m => .ok (.pixel (m + n))
  | .point x => (movedPoint x n).map .point

/-- The commands for the text of a widget. -/
def text (painter : Painter α) (props : Ledger String) (box : PixelBox) :
    Outcome (List (Drawing α)) := do
  let value := textOrEmpty (props.get? "text")
  if value == "" then return []
  let shown := Translation.shown value
  let color ← textColor painter (props.get? "color")
  let extent ← Outcome.ofExcept (painter.extent shown)
  let align := Text.lower ((props.get? "text-align").getD "center")
  let left ← Outcome.ofExcept (textLeft align box extent.width)
  let top ← Outcome.ofExcept (centred box.top box.bottom extent.height)
  let right ← Outcome.ofExcept (wholeNumber 0 (props.get? "text-offset-x"))
  let left ← Outcome.ofExcept (moved right left)
  let down ← Outcome.ofExcept (wholeNumber 0 (props.get? "text-offset-y"))
  let top ← Outcome.ofExcept (movedPoint top down)
  painter.issue (.text left top shown color)

/-- The commands for a widget alone. -/
def paintBox (palette : Palette α) (e : Element α) (box : PixelBox) :
    Outcome (List (Drawing α)) := do
  if box.isEmpty then return []
  let props := palette.sheet.effectiveProperties palette.registry e
  let inner : PixelBox := { box with right := box.right - 1, bottom := box.bottom - 1 }
  let background ← background palette.painter props inner
  let image ← image palette props box
  let border ← border palette.painter props inner
  let text ← text palette.painter props box
  return background ++ image ++ border ++ text

/-! ### Painting trees -/

/-- A widget without a placement stands at the corner and has no extent. -/
def placementOf (e : Element α) : Placement α :=
  e.placement.getD ⟨0, 0, 0, 0, 0, 0, 0, 0, 0, 0⟩

mutual

/-- The commands for a widget whose parent stands at a point, and for all below it. -/
def paint (palette : Palette α) (left top : α) : Widget α → Outcome (List (Drawing α))
  | .node e cs => do
    let p := placementOf e
    let left := left + p.left
    let top := top + p.top
    let box ← Outcome.ofExcept (pixelBox left top p)
    let own ← paintBox palette e box
    let below ← paintAll palette left top cs
    return own ++ below

/-- The commands for the children of a widget that stands at a point. -/
def paintAll (palette : Palette α) (left top : α) : List (Widget α) → Outcome (List (Drawing α))
  | [] => return []
  | w :: ws => do
    let first ← paint palette left top w
    let rest ← paintAll palette left top ws
    return first ++ rest

end

/-- The commands for root widgets that start at offsets. -/
def paintRoots (palette : Palette α) : List (Widget α) → List Int → Outcome (List (Drawing α))
  | w :: ws, offset :: offsets => do
    let left ← Outcome.ofExcept (coordinate offset)
    let first ← paint palette left 0 w
    let rest ← paintRoots palette ws offsets
    return first ++ rest
  | _, _ => return []

/-- A canvas that root widgets fit on, and where they start on it. -/
structure Canvas where
  /-- The width. -/
  width : Int
  /-- The height. -/
  height : Int
  /-- The first columns of the root widgets. -/
  offsets : List Int
  deriving DecidableEq

/-- The canvas for root widgets that have been placed. -/
def canvas (roots : List (Widget α)) : Except Fault Canvas := do
  let placements := roots.map fun w => placementOf w.label
  let widths ← rootExtents (·.width) placements
  let (offsets, next) := rootOffsets 0 widths
  let heights ← rootExtents (·.height) placements
  return ⟨max 1 (next - gap), greatest heights, offsets⟩

/-- A preview of root widgets: places them, and draws them on a canvas. -/
def draw (palette : Palette α) (widgets : List (Widget α)) :
    Outcome (Canvas × List (Drawing α)) := do
  let roots ← layout palette.config (0, 0) widgets
  let canvas ← Outcome.ofExcept (canvas roots)
  let empty ← palette.painter.issue (.canvas canvas.width canvas.height canvasColor)
  let commands ← paintRoots palette roots canvas.offsets
  return (canvas, empty ++ commands)

/-- The references to images among the properties of widgets and their styles. -/
def imageSources (palette : Palette α) (widgets : List (Widget α)) : List String :=
  (Tree.forestNodes widgets).filterMap fun w =>
    (palette.sheet.effectiveProperties palette.registry w.label).get? "image-source"

end Preview

end Otui
