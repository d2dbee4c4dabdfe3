import Otui.Text.Blank
import Otui.Text.Lines

/-!
# Content lines

Documents and style sheets are read line by line. A line that is blank or a comment does not count;
any other is a content line. It has a number, a depth, which is the count of white space in front of
it, and the text between the white space at its ends.
-/

namespace Otui.Text

/-- A line that counts. -/
structure ContentLine where
  /-- The number of the line in the text, from one on. -/
  number : Nat
  /-- How much white space stands in front. -/
  indent : Nat
  /-- The text without the white space at its ends. -/
  text : List Char
  deriving DecidableEq

/-- Whether a trimmed line does not count: it is empty or a comment. -/
def isTrivia : List Char → Bool
  | [] => true
  | '#' :: _ => true
  | '/' :: '/' :: _ => true
  | _ => false

/-- A line of text as a content line, unless it does not count. -/
def ContentLine.read? (number : Nat) (cs : List Char) : Option ContentLine :=
  let text := trimChars cs
  if isTrivia text then none else some ⟨number, blanksInFront cs, text⟩

/-- The content lines among lines of text, numbered from `number` on. -/
def contentLinesFrom (number : Nat) : List (List Char) → List ContentLine
  | [] => []
  | cs :: rest =>
    match ContentLine.read? number cs with
    | some l => l :: contentLinesFrom (number + 1) rest
    | none => contentLinesFrom (number + 1) rest

/-- The content lines of a text. -/
def contentLines (text : String) : List ContentLine := contentLinesFrom 1 (lines text)

end Otui.Text
