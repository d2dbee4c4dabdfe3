/-!
# Fronts, ends and insides of texts

The tests and cuts at the ends of a text that the rest of the library needs, on the characters of
the text.
-/

namespace Otui.Text

/-- Whether a text starts with another. -/
def startsWith (front s : String) : Bool := front.toList.isPrefixOf s.toList

/-- Whether a text ends with another. -/
def endsWith (tail s : String) : Bool := tail.toList.isSuffixOf s.toList

/-- The text without its first characters. -/
def dropFront (n : Nat) (s : String) : String := String.ofList (s.toList.drop n)

/-- The text without its last characters. -/
def dropTail (n : Nat) (s : String) : String := String.ofList (s.toList.take (s.toList.length - n))

/-- Whether characters occur beside each other in others. -/
def occursIn (part : List Char) : List Char → Bool
  | [] => part.isEmpty
  | c :: cs => part.isPrefixOf (c :: cs) || occursIn part cs

/-- Whether a text occurs in another. -/
def contains (part s : String) : Bool := occursIn part.toList s.toList

/-- The text with one character put for another. -/
def replaceChar (old new : Char) (s : String) : String :=
  String.ofList (s.toList.map fun c => if c == old then new else c)

/-- The text inside one pair of quotes of a kind around all of it, if there is such a pair. -/
def insideQuotes? : List Char → Option (List Char)
  | q :: c :: cs =>
    if (q == '\'' || q == '"') && (c :: cs).getLast? == some q then some (c :: cs).dropLast else none
  | _ => none

/-- The text without one pair of quotes of a kind around all of it. -/
def stripQuotes (s : String) : String :=
  match insideQuotes? s.toList with
  | some cs => String.ofList cs
  | none => s

end Otui.Text
