import Otui.Ledger
import Otui.Number.Numeral
import Otui.Number.Binary
import Otui.Text.Affix
import Otui.Text.LetterCase

/-!
# Property keys

A property line has a key as it is written and a key under which it is stored. A mark `!` in front
says that the value is to be translated; it is not stored. The keys `size` and `text-offset` stand
for two stored keys each. The keys `anchors.*` have several spellings for some edges; documents are
compared and written in one of them.
-/

namespace Otui.Key

open Otui.Text

/-- The mark of a translated value. -/
def mark : String := "!"

/-- Whether a key has the mark of a translated value. -/
def isMarked (key : String) : Bool := startsWith mark key

/-- The key under which a property is stored: the key without one mark. -/
def stored (key : String) : String := if isMarked key then dropFront 1 key else key

/-- The keys that stand for two stored keys, each with these. -/
def compounds : List (String × String × String) :=
  [("size", "width", "height"), ("text-offset", "text-offset-x", "text-offset-y")]

/-- The stored keys that a key stands for, if it stands for two. -/
def parts? (key : String) : Option (String × String) :=
  (compounds.find? (·.1 == key)).map (·.2)

/-- The key that stands for a stored key and another one. -/
def compoundOf? (part : String) : Option (String × String × String) :=
  compounds.find? fun c => c.2.1 == part || c.2.2 == part

/-- What the keys of anchors start with. -/
def anchorFront : String := "anchors."

/-- Whether a key is that of an anchor. -/
def isAnchor (key : String) : Bool := startsWith anchorFront key

/-- The edge that the key of an anchor names. -/
def anchorEdge (key : String) : String := dropFront anchorFront.length key

/-- The spellings that have another one in use, in lower case. -/
def spellings : List (String × String) :=
  [("centerin", "centerIn"), ("center-in", "centerIn"),
   ("horizontalcenter", "horizontalCenter"), ("horizontal-center", "horizontalCenter"),
   ("verticalcenter", "verticalCenter"), ("vertical-center", "verticalCenter")]

/-- The key of an anchor in the spelling that is in use. -/
def anchorSpelling (key : String) : String :=
  let edge := anchorEdge key
  anchorFront ++ ((spellings.lookup (lower edge)).getD edge)

/-- A key in the spelling that is in use. -/
def spelling (key : String) : String := if isAnchor key then anchorSpelling key else key

/-- What the keys of margins start with. -/
def marginFront : String := "margin-"

/-- The edge whose margin a key gives. -/
def marginEdge? (key : String) : Option String :=
  if startsWith marginFront key then some (dropFront marginFront.length key) else none

/-- The integer part of a numeral. -/
def wholePart? (value : String) : Option Int :=
  (Number.float? value).bind fun x => (Number.truncate x).toOption

end Otui.Key
