import Otui.Text.Affix
import Otui.Text.Lines

/-!
# Paths

A path is the list of its parts, with a root in front when it is absolute. Reading a path drops
empty parts and single dots; a part `..` stays, because what it means hangs on the directories.
-/

namespace Otui

/-- A path to a file or a directory. -/
structure Path where
  /-- Empty for a relative path, else one slash or two. -/
  root : String
  /-- The names on the way, outermost first. -/
  parts : List String
  deriving DecidableEq

namespace Path

instance : Inhabited Path := ⟨⟨"", []⟩⟩

/-- The directory that relative paths start from. -/
def here : Path := ⟨"", []⟩

/-- Reads a path. Exactly two slashes in front are a root of their own. -/
def ofString (s : String) : Path :=
  let slashes := (s.toList.takeWhile (· == '/')).length
  let root := if slashes == 0 then "" else if slashes == 2 then "//" else "/"
  ⟨root, (Text.cut '/' s).filter fun p => p != "" && p != "."⟩

/-- The text of a path; that of the directory that paths start from is a dot. -/
def toString (p : Path) : String :=
  if p.root == "" && p.parts.isEmpty then "." else p.root ++ Text.join "/" p.parts

instance : ToString Path := ⟨toString⟩

/-- Whether a path starts from a root. -/
def isAbsolute (p : Path) : Bool := p.root != ""

/-- A path seen from a directory; an absolute path stays. -/
def under (base p : Path) : Path :=
  if p.isAbsolute then p else ⟨base.root, base.parts ++ p.parts⟩

/-- The directory of a path. -/
def parent (p : Path) : Path := ⟨p.root, p.parts.dropLast⟩

/-- The last part of a path. -/
def name (p : Path) : String := p.parts.getLast?.getD ""

/-- The end of a name from its last dot on, unless the dot is first or last. -/
def extension (p : Path) : String :=
  let cs := p.name.toList
  let tail := cs.reverse.takeWhile (· != '.')
  if tail.isEmpty || cs.length ≤ tail.length + 1 then ""
  else String.ofList ('.' :: tail.reverse)

/-- Whether the parts of a path stand before those of another in the order of paths: part by part,
a part by its characters. -/
def partsBefore : List String → List String → Bool
  | [], _ => true
  | _ :: _, [] => false
  | a :: as, b :: bs => if a == b then partsBefore as bs else a < b

end Path

end Otui
