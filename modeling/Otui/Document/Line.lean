import Otui.Text.Affix
import Otui.Text.ContentLine

/-!
# The lines of a document

A document is read content line by content line. What a line says is decided by its text without the
white space around it, alone:

* an opening `Name` or `Name < Base`, which starts a widget or a template;
* a property, in one of the three forms `key: value`, `key value` and `key`;
* something else, which says nothing.

The white space in front decides the level of a line, two characters a level.
-/

namespace Otui.Document

open Otui.Text

/-- What a content line says. -/
inductive Content where
  /-- The start of a widget, or of a template when there is a base. -/
  | opening (name : String) (base : Option String)
  /-- A property: its key, its value, and the value as written. -/
  | property (key value raw : String)
  /-- Nothing that a document can hold. -/
  | other
  deriving DecidableEq

/-- A content line of a document. -/
structure Line where
  /-- The number of the line in the text, from one on. -/
  number : Nat
  /-- How much white space stands in front. -/
  indent : Nat
  /-- What the line says. -/
  content : Content
  deriving DecidableEq

/-- The level of a line. -/
def Line.level (l : Line) : Nat := l.indent / 2

/-! ### Openings -/

/-- The characters of names of types. -/
def isNameChar (c : Char) : Bool := c.isAlphanum || c == '_'

/-- Whether characters are a name of a type: a letter, then letters, digits and underscores. -/
def isTypeName : List Char → Bool
  | [] => false
  | c :: cs => c.isAlpha && cs.all isNameChar

/-- What follows a name in an opening: nothing, or a sign and the base. -/
def baseAfter? (cs : List Char) : Option (Option String) :=
  if cs.isEmpty then some none
  else
    match trimStartChars cs with
    | '<' :: rest =>
      let base := trimStartChars rest
      if isTypeName base then some (some (String.ofList base)) else none
    | _ => none

/-- The name and the base of a line that has the form of an opening, whatever the first letter. -/
def typeLine? (cs : List Char) : Option (String × Option String) :=
  let name := cs.takeWhile isNameChar
  if isTypeName name then
    (baseAfter? (cs.dropWhile isNameChar)).map fun base => (String.ofList name, base)
  else none

/-- The name and the base of an opening; the name starts with a capital letter. -/
def opening? (cs : List Char) : Option (String × Option String) :=
  match cs with
  | [] => none
  | c :: _ => if c.isUpper then typeLine? cs else none

/-! ### Properties -/

/-- The characters of keys in the form `key value`. -/
def isKeyChar (c : Char) : Bool := c.isAlpha || c == '@' || c == '.' || c == '-'

/-- The characters of keys in the form `key: value`. -/
def isColonKeyChar (c : Char) : Bool := isKeyChar c || c == '!'

/-- The characters of keys that stand alone. -/
def isBareKeyChar (c : Char) : Bool := c.isLower || c == '-'

/-- The form `key: value`. One pair of quotes around the value does not belong to it. -/
def colonProperty? (cs : List Char) : Option Content :=
  let key := cs.takeWhile isColonKeyChar
  match cs.dropWhile isColonKeyChar with
  | ':' :: rest =>
    if key.isEmpty then none
    else
      let raw := String.ofList (trimChars rest)
      some (.property (String.ofList key) (stripQuotes raw) raw)
  | _ => none

/-- The form `key value`. -/
def spaceProperty? (cs : List Char) : Option Content :=
  let key := cs.takeWhile isKeyChar
  match cs.dropWhile isKeyChar with
  | c :: rest =>
    let raw := trimChars rest
    if key.isEmpty || !isBlank c || raw.isEmpty then none
    else some (.property (String.ofList key) (String.ofList raw) (String.ofList raw))
  | [] => none

/-- The form `key`, which says `true`. It counts only with white space in front of it. -/
def bareProperty? (indent : Nat) (cs : List Char) : Option Content :=
  if !cs.isEmpty && cs.all isBareKeyChar && 0 < indent then
    some (.property (String.ofList cs) "true" "true")
  else none

/-- What the text of a content line says. -/
def contentOf (indent : Nat) (cs : List Char) : Content :=
  match opening? cs with
  | some (name, base) => .opening name base
  | none =>
    ((colonProperty? cs).orElse fun _ =>
      (spaceProperty? cs).orElse fun _ => bareProperty? indent cs).getD .other

/-! ### Lines -/

/-- The content line of a document for a content line of text. -/
def Line.ofText (l : ContentLine) : Line := ⟨l.number, l.indent, contentOf l.indent l.text⟩

/-- The content lines of a document. -/
def lines (text : String) : List Line := (contentLines text).map Line.ofText

end Otui.Document
