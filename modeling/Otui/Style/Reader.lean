import Otui.Document.Line
import Otui.Style

/-!
# Reading style sheets

A style sheet is cut into sections at its headers: content lines without white space in front that
have the form `Name` or `Name < Parent`. What stands before the first header does not count. Each
section is a style, and a later style of a name takes the place of an earlier one.

In a section, a line `$state` opens a state, which lasts as long as lines stand deeper than it. A
deeper line that looks like the opening of a widget starts a block of its own, which lasts as long
as lines stand deeper than it and says nothing about the style.
-/

namespace Otui.Sheet

open Otui.Text

/-! ### Sections -/

/-- The name and the parent of a line that is a header. -/
def header? (l : ContentLine) : Option (String × Option String) :=
  if l.indent == 0 then Document.typeLine? l.text else none

/-- A header with the lines below it. -/
structure Section where
  /-- The name of the style. -/
  name : String
  /-- The parent. -/
  parent : Option String
  /-- The lines up to the next header. -/
  body : List ContentLine

/-- The lines before the first header, and the sections. -/
def sections : List ContentLine → List ContentLine × List Section
  | [] => ([], [])
  | l :: ls =>
    let (before, rest) := sections ls
    match header? l with
    | some (name, parent) => ([], ⟨name, parent, before⟩ :: rest)
    | none => (l :: before, rest)

/-! ### Lines of a section -/

/-- The characters of keys in the form `key value`. -/
def isKeyChar (c : Char) : Bool := c.isAlpha || c == '.' || c == '-'

/-- The characters of keys in the form `key: value`. -/
def isColonKeyChar (c : Char) : Bool := isKeyChar c || c == '!'

/-- The name of the state that a line opens. -/
def stateName? (cs : List Char) : Option String :=
  match cs with
  | '$' :: c :: rest =>
    let name := if rest.getLast? == some ':' then c :: rest.dropLast else c :: rest
    some (Text.join " " (Text.words (String.ofList name)))
  | _ => none

/-- What a property line does to properties. -/
inductive Setting where
  /-- Gives a key a value. -/
  | set (key value : String)
  /-- Gives a key the value `true` unless it has a value. -/
  | enable (key : String)
  deriving DecidableEq

/-- Carries a setting out. -/
def Setting.apply (properties : Ledger String) : Setting → Ledger String
  | .set key value => properties.insert key value
  | .enable key => properties.insertNew key "true"

/-- The form `key: value`. -/
def colonSetting? (cs : List Char) : Option Setting :=
  let key := cs.takeWhile isColonKeyChar
  match cs.dropWhile isColonKeyChar with
  | ':' :: rest =>
    let value := trimChars rest
    if key.isEmpty || value.isEmpty then none
    else some (.set (String.ofList key) (stripQuotes (String.ofList value)))
  | _ => none

/-- The form `key value`. -/
def spaceSetting? (cs : List Char) : Option Setting :=
  let key := cs.takeWhile isKeyChar
  match cs.dropWhile isKeyChar with
  | c :: rest =>
    let value := trimChars rest
    if key.isEmpty || !isBlank c || value.isEmpty then none
    else some (.set (String.ofList key) (String.ofList value))
  | [] => none

/-- The form `key`, with white space in front of it. -/
def bareSetting? (indent : Nat) (cs : List Char) : Option Setting :=
  if cs.all Document.isBareKeyChar && 0 < indent then some (.enable (String.ofList cs)) else none

/-- What a line sets. -/
def setting? (l : ContentLine) : Option Setting :=
  (colonSetting? l.text).orElse fun _ =>
    (spaceSetting? l.text).orElse fun _ => bareSetting? l.indent l.text

/-! ### Sections as styles -/

/-- How far the lines of a section have been read. -/
structure Progress where
  /-- The style so far. -/
  style : Style
  /-- The open state and its depth. -/
  state : Option (String × Nat) := none
  /-- The depth of the widget that is being passed over. -/
  passing : Option Nat := none

namespace Progress

/-- Whether a line belongs to the widget that is being passed over. -/
def passes (p : Progress) (l : ContentLine) : Bool :=
  match p.passing with
  | some depth => depth < l.indent
  | none => false

/-- Opens a state; what it says already stays. -/
def openState (p : Progress) (state : String) (depth : Nat) : Progress :=
  { style := { p.style with states := p.style.states.insertNew state {} }
    state := some (state, depth) }

/-- The open state, unless a line of some depth ends it. -/
def stateAt (p : Progress) (depth : Nat) : Option (String × Nat) :=
  p.state.filter fun s => s.2 < depth

/-- Carries a setting out, in the open state or in the style itself. -/
def set (style : Style) (state : Option (String × Nat)) (setting : Setting) : Style :=
  match state with
  | some (name, _) => { style with states := style.states.modify name fun m => setting.apply m }
  | none => { style with properties := setting.apply style.properties }

/-- Reads a line. -/
def read (p : Progress) (l : ContentLine) : Progress :=
  if p.passes l then p
  else
    match stateName? l.text with
    | some state => p.openState state l.indent
    | none =>
      let state := p.stateAt l.indent
      if 0 < l.indent && (Document.opening? l.text).isSome then
        { p with state, passing := some l.indent }
      else
        match setting? l with
        | some setting => { style := set p.style state setting, state }
        | none => { style := p.style, state }

end Progress

/-- The style of a section. -/
def Section.style (s : Section) : Style :=
  (s.body.foldl Progress.read { style := { name := s.name, parent := s.parent } }).style

/-! ### Sheets -/

/-- The styles of sections, written one after the other into a sheet. -/
def ofSections (sections : List Section) : Sheet :=
  .ofList (sections.map fun s => (s.name, s.style))

/-- Reads a style sheet. -/
def read (text : String) : Sheet := ofSections (sections (contentLines text)).2

end Otui.Sheet
