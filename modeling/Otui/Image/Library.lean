import Otui.Image.Index
import Otui.Work

/-!
# The library of images

The library has the index of the images below some directories, and remembers the sizes that it was
asked for until it is refreshed.
-/

namespace Otui

/-- The images below directories. -/
structure ImageLibrary where
  /-- The directories. -/
  directories : List Path
  /-- The index. -/
  index : ImageIndex := {}
  /-- The sizes that are known. -/
  sizes : List (Path × Nat × Nat) := []

namespace ImageLibrary

variable {m : Type → Type} [Monad m] [FileAccess m]

open FileAccess

/-- What is found below directories; one that is not there is reported. -/
def find {σ : Type} : List Path → Work σ m (List (List (Path × FoundFile)))
  | [] => pure []
  | p :: ps => do
    if ← Work.lift (isDirectory p) then
      let found ← Work.lift (search p ImageIndex.isImage)
      let rest ← find ps
      return found :: rest
    else
      Work.say (.noImagePath p.toString)
      find ps

/-- Searches the directories anew. -/
def refresh : Work ImageLibrary m Unit := do
  let library ← get
  let index := ImageIndex.ofFound (← find library.directories)
  Work.say (.indexedImages index.size)
  set { library with index, sizes := [] }

/-- The file for a reference. -/
def resolve? (library : ImageLibrary) (reference : String) : Option Path :=
  library.index.resolve? reference

/-- The size of the image for a reference, if there is one. -/
def size? (reference : String) : Work ImageLibrary m (Option (Nat × Nat)) := do
  let library ← get
  match library.resolve? reference with
  | none => return none
  | some p =>
    match library.sizes.lookup p with
    | some size => return some size
    | none =>
      let size ← Work.liftExcept (imageSize p)
      set { library with sizes := (p, size) :: library.sizes }
      return some size

/-- Opens the image for a reference, if there is one: its size. -/
def open? (library : ImageLibrary) (reference : String) : m (Except Fault (Option (Nat × Nat))) :=
  match library.resolve? reference with
  | none => pure (.ok none)
  | some p => return (← imageSize p).map some

end ImageLibrary

end Otui
