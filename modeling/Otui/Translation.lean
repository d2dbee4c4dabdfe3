import Otui.Text.Affix
import Otui.Text.Blank

/-!
# Translated values

The value of a property with the mark of a translation is written as a call `tr('…')`. Writing wraps
a value in such a call unless it is one already; showing takes the text out of the call again.
-/

namespace Otui.Translation

open Otui.Text

/-- What follows `tr (` in characters that start so, in any case of the two letters and with any
white space between. -/
def afterCall? : List Char → Option (List Char)
  | t :: r :: cs =>
    if (t == 't' || t == 'T') && (r == 'r' || r == 'R') then
      match trimStartChars cs with
      | '(' :: rest => some rest
      | _ => none
    else none
  | _ => none

/-- Characters with a backslash in front of every backslash and every single quote. -/
def escape : List Char → List Char
  | [] => []
  | c :: cs => if c == '\\' || c == '\'' then '\\' :: c :: escape cs else c :: escape cs

/-- A value as a call: a call stays, a quoted text is its operand, any other text is quoted. -/
def wrap (value : String) : String :=
  if value == "" then ""
  else
    let trimmed := trimChars value.toList
    if (afterCall? trimmed).isSome then String.ofList trimmed
    else if (insideQuotes? trimmed).isSome then "tr(" ++ String.ofList trimmed ++ ")"
    else "tr('" ++ String.ofList (escape value.toList) ++ "')"

/-- The text between the quotes of a trimmed call whose one operand is quoted. -/
def operand? (cs : List Char) : Option (List Char) :=
  match afterCall? cs with
  | none => none
  | some rest =>
    if rest.getLast? == some ')' then
      insideQuotes? (trimChars rest.dropLast)
    else none

/-- The text that a value shows: that of a call, that between quotes, or the value itself. -/
def shown (value : String) : String :=
  let trimmed := trimChars value.toList
  match operand? trimmed with
  | some cs => String.ofList cs
  | none => stripQuotes (String.ofList trimmed)

end Otui.Translation
