import Otui.Document.Block
import Otui.Outcome

/-!
# Writing documents

A document is written as blocks with an empty line between them: first the templates, then the root
widgets. A name is defined once. Instances of a template that the document does not define bring a
definition of their own. What a widget has from its template is not written with it, and a widget
without a type or an id is passed over with all below it.
-/

namespace Otui

variable {α : Type}

namespace Document

/-! ### Templates to be written -/

/-- The first template of each name. -/
def firstTemplates : List (Template α) → List (Template α)
  | [] => []
  | t :: ts => t :: (firstTemplates ts).filter fun u => u.name != t.name

/-- The definition that an instance brings: its own lines, its id apart, and the children that it
has from its template. -/
def templateOfInstance (ref : TemplateRef) (w : Widget α) : Template α :=
  let p := w.label.properties
  { name := ref.name
    base := ref.base
    resolvedBase := some ref.base
    properties :=
      { lines := p.lines.filter fun l => l.key != "id"
        values := p.values.erase "id"
        written := p.written }
    children := (w.children.filter fun c => c.label.inherited).map fun c =>
      c.withLabel { c.label with inherited := false } }

/-- The definitions that widgets bring for names that are not known, one for each name. -/
def broughtTemplates (known : List String) : List (Widget α) → List (Template α)
  | [] => []
  | w :: ws =>
    match w.label.template with
    | some ref =>
      if known.contains ref.name then broughtTemplates known ws
      else templateOfInstance ref w :: broughtTemplates (ref.name :: known) ws
    | none => broughtTemplates known ws

/-- The templates that are written for a document. -/
def writtenTemplates (d : Document α) : List (Template α) :=
  let own := firstTemplates d.templates
  own ++ broughtTemplates (own.map Template.name) (Tree.forestNodes d.widgets)

/-! ### Lines -/

/-- A line of a document: its level and what it says. -/
structure WrittenLine where
  /-- The level. -/
  level : Nat
  /-- What the line says. -/
  said : Said
  deriving DecidableEq

/-- The text of a line: two blanks for each level in front. -/
def WrittenLine.text (l : WrittenLine) : String :=
  String.ofList (List.replicate (2 * l.level) ' ') ++ l.said.text

/-- The lines of a block whose header is at a level; the other lines are one level deeper. -/
def blockLines (level : Nat) (b : Block) : List WrittenLine :=
  match b.lines with
  | [] => []
  | h :: rest => ⟨level, h⟩ :: rest.map fun s => ⟨level + 1, s⟩

end Document

variable [Scalar α]

namespace Widget

open Document

mutual

/-- Writes a widget and all below it. A widget that cannot be written is reported and has no lines. -/
def write (config : Config α) (isRoot : Bool) (level : Nat) :
    Widget α → Outcome (List WrittenLine)
  | .node e cs =>
    if e.isWritable then do
      let b ← Outcome.ofExcept (widgetBlock config isRoot e)
      let below ← writeAmong config (level + 1) cs
      return blockLines level b ++ below
    else do
      Outcome.ofNoted (Noted.say (.unwritable (describe (.node e cs))))
      return []

/-- Writes the children of a widget, those apart that it has from its template. -/
def writeAmong (config : Config α) (level : Nat) : List (Widget α) → Outcome (List WrittenLine)
  | [] => return []
  | w :: ws =>
    if w.label.inherited then writeAmong config level ws
    else do
      let first ← write config false level w
      let rest ← writeAmong config level ws
      return first ++ rest

end

/-- The lines of a widget and of all below it. -/
def lines (config : Config α) (isRoot : Bool) (level : Nat) (w : Widget α) :
    Except Fault (List WrittenLine) :=
  (write config isRoot level w).result

/-- The lines of the children of a widget. -/
def linesAmong (config : Config α) (level : Nat) (ws : List (Widget α)) :
    Except Fault (List WrittenLine) :=
  (writeAmong config level ws).result

theorem lines_node (config : Config α) (isRoot : Bool) (level : Nat) (e : Element α)
    (cs : List (Widget α)) :
    lines config isRoot level (.node e cs)
      = if e.isWritable then do
          let b ← widgetBlock config isRoot e
          let below ← linesAmong config (level + 1) cs
          return blockLines level b ++ below
        else .ok [] := by
  rw [lines, write]
  split
  · simp only [Outcome.result_bind, Outcome.result_ofExcept, Outcome.result_pure]
    rfl
  · rfl

theorem linesAmong_cons (config : Config α) (level : Nat) (w : Widget α) (ws : List (Widget α)) :
    linesAmong config level (w :: ws)
      = if w.label.inherited then linesAmong config level ws
        else do
          let first ← lines config false level w
          let rest ← linesAmong config level ws
          return first ++ rest := by
  rw [linesAmong, writeAmong]
  split
  · rfl
  · simp only [Outcome.result_bind, Outcome.result_pure]
    rfl

end Widget

namespace Template

/-- Writes a template and all widgets in its body. -/
def write (config : Config α) (t : Template α) : Outcome (List Document.WrittenLine) := do
  let body ← t.children.mapM (Widget.write config false 1)
  return Document.blockLines 0 (Document.templateBlock t) ++ body.flatten

/-- The lines of a template and of all widgets in its body. -/
def lines (config : Config α) (t : Template α) : Except Fault (List Document.WrittenLine) :=
  (write config t).result

theorem lines_def (config : Config α) (t : Template α) :
    lines config t = do
      let body ← t.children.mapM (Widget.lines config false 1)
      return Document.blockLines 0 (Document.templateBlock t) ++ body.flatten := by
  simp only [lines, write, Outcome.result_bind, Outcome.result_mapM, Outcome.result_pure]
  rfl

end Template

namespace Document

/-! ### Documents -/

/-- The document that is written when there is nothing to write: a template of a window. -/
def starterLines (config : Config α) : Except Fault (List String) := do
  let title ← match config.moduleTitle with
    | .text s => .ok (Translation.wrap s)
    | d => if d.truthy then .error .titleNotText else .ok ""
  return ["MainWindow < UIWindow",
    "  id: " ++ config.moduleName.display,
    "  !text: " ++ title,
    "  size: " ++ toString config.defaultWidth ++ " " ++ toString config.defaultHeight]

/-- Writes the blocks of a document, those of templates first. A widget that is passed over has
none. -/
def writeBlocks (config : Config α) (d : Document α) : Outcome (List (List WrittenLine)) := do
  let templates ← d.writtenTemplates.mapM (Template.write config)
  let widgets ← d.widgets.mapM (Widget.write config true 0)
  return templates ++ widgets.filter fun ls => !ls.isEmpty

/-- The text of blocks, with an empty line between them. -/
def textOf (blocks : List (List WrittenLine)) : String :=
  Text.join "\n\n" (blocks.map fun ls => Text.join "\n" (ls.map WrittenLine.text)) ++ "\n"

/-- Writes a document; every widget that is passed over on the way is reported. -/
def print (config : Config α) (d : Document α) : Outcome String := do
  match ← d.writeBlocks config with
  | [] =>
    let ls ← Outcome.ofExcept (starterLines config)
    return Text.join "\n" ls ++ "\n"
  | b :: bs => return textOf (b :: bs)

/-- The blocks of a document. -/
def blocks (config : Config α) (d : Document α) : Except Fault (List (List WrittenLine)) :=
  (d.writeBlocks config).result

/-- The text of a document. -/
def text (config : Config α) (d : Document α) : Except Fault String := (d.print config).result

theorem blocks_def (config : Config α) (d : Document α) :
    d.blocks config = do
      let templates ← d.writtenTemplates.mapM (Template.lines config)
      let widgets ← d.widgets.mapM (Widget.lines config true 0)
      return templates ++ widgets.filter fun ls => !ls.isEmpty := by
  simp only [blocks, writeBlocks, Outcome.result_bind, Outcome.result_mapM, Outcome.result_pure]
  rfl

theorem text_def (config : Config α) (d : Document α) :
    d.text config = do
      match ← d.blocks config with
      | [] =>
        let ls ← starterLines config
        return Text.join "\n" ls ++ "\n"
      | b :: bs => return textOf (b :: bs) := by
  rw [text, print, Outcome.result_bind]
  refine congrArg (d.blocks config >>= ·) (funext fun bs => ?_)
  cases bs with
  | nil =>
    simp only [Outcome.result_bind, Outcome.result_ofExcept, Outcome.result_pure]
    rfl
  | cons b bs => rfl

end Document

end Otui
