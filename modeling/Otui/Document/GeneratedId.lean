import Otui.Text.Digit

/-!
# Ids that look generated

A widget that is read without an id gets one made of letters, an underscore and a number. Ids of
that form are not written, because reading makes them again.
-/

namespace Otui.Document

open Otui.Text

/-- The letters of generated ids, in either case. Four letters outside of ASCII are a case form of
an ASCII letter, or fold to one, and count too. -/
def isIdLetter (c : Char) : Bool :=
  c.isAlpha || c == '\u0130' || c == '\u0131' || c == '\u017f' || c == '\u212a'

/-- Whether characters are digits, at least one, with at most one line feed after them. -/
def isNumberTail (cs : List Char) : Bool :=
  let digits := if cs.getLast? == some '\n' then cs.dropLast else cs
  !digits.isEmpty && digits.all isDigit

/-- Whether an id looks generated: letters, an underscore and digits. -/
def looksGenerated (id : String) : Bool :=
  let cs := id.toList
  !(cs.takeWhile isIdLetter).isEmpty &&
    match cs.dropWhile isIdLetter with
    | '_' :: rest => isNumberTail rest
    | _ => false

end Otui.Document
