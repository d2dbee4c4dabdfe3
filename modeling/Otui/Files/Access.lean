import Otui.Data.Notation
import Otui.Fault
import Otui.Image.Header

/-!
# Access to files

What the program asks of a file system, as a class over the monad that it runs in: `FileAccess`. How
files of data are written is up to the monad too. The rest is built on it: reading texts, images and
files of data, and searching directories.
-/

namespace Otui

/-- Something below a directory. -/
structure FoundFile where
  /-- The names on the way from the directory. -/
  parts : List String
  /-- Whether it is a file. -/
  isFile : Bool
  deriving DecidableEq

/-- Access to a file system. -/
class FileAccess (m : Type → Type) where
  /-- Whether a path leads to a file. -/
  isFile : Path → m Bool
  /-- Whether a path leads to a directory. -/
  isDirectory : Path → m Bool
  /-- The bytes of a file. -/
  readBytes : Path → m (Except Fault (List UInt8))
  /-- Everything below a directory, in any order. -/
  below : Path → m (List FoundFile)
  /-- Writes a file. -/
  writeText : Path → String → m (Except Fault Unit)
  /-- Makes a directory and those around it, unless it is there. -/
  makeDirectory : Path → m (Except Fault Unit)
  /-- The data that the text of a file of data stands for. -/
  dataOf : String → Except Fault Data := fun text =>
    match Data.readFile? text with
    | some d => .ok d
    | none => .error .badNotation

namespace FileAccess

variable {m : Type → Type} [Monad m] [FileAccess m]

/-- Whether a path leads to anything. -/
def isThere (p : Path) : m Bool := do
  if ← isFile p then return true
  isDirectory p

/-- The text of a file with every line end a line feed. -/
def readText (p : Path) : m (Except Fault String) := do
  return (← readBytes p).bind fun bytes =>
    ((Text.decodeUtf8 bytes).mapError Fault.notUtf8).map Text.unifyLineEnds

/-- The size of the image in a file. -/
def imageSize (p : Path) : m (Except Fault (Nat × Nat)) := do
  return (← readBytes p).bind fun bytes =>
    match ImageHeader.size? bytes with
    | some size => .ok size
    | none => .error (.notAnImage p.toString)

/-- The content of a file of data. -/
def readData (p : Path) : m (Except Fault Data) := do
  return (← readText p).bind (dataOf m)

/-- Everything below a directory that satisfies a test, in the order of paths, as paths that start
with that of the directory. -/
def search (directory : Path) (p : FoundFile → Bool) : m (List (Path × FoundFile)) := do
  let found ← below directory
  let kept := (found.filter p).mergeSort fun a b => Path.partsBefore a.parts b.parts
  return kept.map fun f => (directory.under ⟨"", f.parts⟩, f)

end FileAccess

end Otui
