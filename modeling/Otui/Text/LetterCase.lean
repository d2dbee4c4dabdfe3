import Otui.Text.CaseTable
import Otui.Text.CasedTable

/-!
# Lower case

The lower-case form of a text, by the full rules: the dotted capital I becomes two characters, and
a capital sigma becomes the final sigma at the end of a word.
-/

namespace Otui.Text

/-- Whether the first character that is not looked through is a letter with case. -/
def meetsCased (cs : List Char) : Bool :=
  match cs.dropWhile isSeeThrough with
  | [] => false
  | c :: _ => isCased c

/-- The lower-case form of a character between the characters before it, nearest first, and
those after it. -/
def lowerAt (before : List Char) (c : Char) (after : List Char) : List Char :=
  if c.toNat = 0x3A3 then
    [Char.ofNat (if meetsCased before && !meetsCased after then 0x3C2 else 0x3C3)]
  else if c.toNat = 0x130 then ['i', Char.ofNat 0x307]
  else [(lowerCase? c).getD c]

/-- The lower-case form of what follows the characters `before`, nearest first. -/
def lowerFrom (before : List Char) : List Char → List Char
  | [] => []
  | c :: cs => lowerAt before c cs ++ lowerFrom (c :: before) cs

/-- The lower-case form of a list of characters. -/
def lowerChars (cs : List Char) : List Char := lowerFrom [] cs

/-- The lower-case form of a text. -/
def lower (s : String) : String := String.ofList (lowerChars s.toList)

end Otui.Text
