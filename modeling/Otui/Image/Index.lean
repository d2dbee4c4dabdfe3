import Otui.Files.Access
import Otui.Ledger
import Otui.Text.LetterCase

/-!
# The index of images

Styles name images by references such as `/images/ui/button`. The index has every image file below
the directories that are searched, under its path from there; of two with one path the one found
first counts. A reference is looked up in four ways, the exact ones first: as it is, without an
image extension, with `.png` in its place, and at last by the end of either of the two.
-/

namespace Otui

/-- Image files by their references. -/
abbrev ImageIndex := Ledger Path

namespace ImageIndex

open Text

/-- The extensions of image files. -/
def extensions : List String := [".png", ".jpg", ".jpeg"]

/-- A reference in the form in which the index has it: slashes only, none in front, lower case. -/
def normalize (reference : String) : String :=
  lower (String.ofList ((replaceChar '\\' '/' reference).toList.dropWhile (· == '/')))

/-- A path without an image extension. -/
def withoutExtension (path : String) : String :=
  match extensions.find? fun e => endsWith e path with
  | some e => dropTail e.toList.length path
  | none => path

/-! ### Filling -/

/-- Whether something found below a directory is an image file. -/
def isImage (f : FoundFile) : Bool :=
  f.isFile && extensions.contains (lower (Path.extension ⟨"", f.parts⟩))

/-- The reference for something found below a directory. -/
def referenceOf (f : FoundFile) : String := normalize (join "/" f.parts)

/-- The index with what was found below one more directory. -/
def addAll (index : ImageIndex) (found : List (Path × FoundFile)) : ImageIndex :=
  found.foldl (fun index (path, f) => index.insertNew (referenceOf f) path) index

/-- The index of what was found below directories, in order. -/
def ofFound (found : List (List (Path × FoundFile))) : ImageIndex := found.foldl addAll {}

/-! ### Looking up -/

/-- The reference without its extension and with `.png`, unless it has that already. -/
def withPng? (normalized : String) : Option String :=
  if endsWith ".png" normalized then none else some (withoutExtension normalized ++ ".png")

/-- Whether a reference and one of the index end alike. -/
def resembles (normalized key : String) : Bool :=
  endsWith normalized key || endsWith key normalized
    || endsWith (withoutExtension normalized) (withoutExtension key)

/-- The file for a normalized reference. -/
def resolveNormalized? (index : ImageIndex) (normalized : String) : Option Path :=
  (index.get? normalized).orElse fun _ =>
    (index.get? (withoutExtension normalized)).orElse fun _ =>
      ((withPng? normalized).bind index.get?).orElse fun _ =>
        (index.entries.find? fun e => resembles normalized e.1).map (·.2)

/-- The file for a reference. -/
def resolve? (index : ImageIndex) (reference : String) : Option Path :=
  let normalized := normalize reference
  if normalized == "" then none else index.resolveNormalized? normalized

end ImageIndex

end Otui
