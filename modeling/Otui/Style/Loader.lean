import Otui.Style.Inheritance
import Otui.Style.Reader
import Otui.Work

/-!
# Loading style sheets

Style sheets are files whose names end in `.otui`. They are found by their names in directories, or
all at once, and every file is read only once.
-/

namespace Otui

/-- The style sheets that have been read, by path. -/
abbrev ReadSheets := List (Path × Sheet)

namespace Sheet

/-- What the names of style sheets end in. -/
def extension : String := ".otui"

/-- The directories to search; without any it is the directory that paths start from. -/
def searched (paths : List Path) : List Path := if paths.isEmpty then [.here] else paths

variable {m : Type → Type} [Monad m] [FileAccess m]

open FileAccess

/-- Loads the style sheet of a path, without resolving inheritance. -/
def loadFile (p : Path) : Work ReadSheets m Sheet := do
  match (← get).lookup p with
  | some sheet => return sheet
  | none =>
    if !(← Work.lift (isFile p)) then throw (.noSheetFile p.toString)
    let bytes ← Work.liftExcept (readBytes p)
    match Text.decodeUtf8 bytes with
    | .error fault => throw (.sheetNotUtf8 p.toString fault)
    | .ok text =>
      let sheet := read (Text.unifyLineEnds text)
      Work.say (.readSheet sheet.size p.toString)
      modify fun sheets => (p, sheet) :: sheets
      return sheet

/-- The file of a style sheet in the first directory that has it. -/
def fileNamed? (file : Path) : List Path → m (Option Path)
  | [] => pure none
  | directory :: rest => do
    let p := directory.under file
    if ← isFile p then return some p
    fileNamed? file rest

/-- Loads a style sheet by its name, with or without the end of it. -/
def load (paths : List Path) (name : String) : Work ReadSheets m Sheet := do
  let file := Path.ofString (if Text.endsWith extension name then name else name ++ extension)
  match ← Work.lift (fileNamed? file (searched paths)) with
  | some p => loadFile p
  | none => throw (.noSheetNamed name ((searched paths).map Path.toString))

/-- Loads style sheets on top of each other: a later style of a name wins. -/
def loadFiles (sheet : Sheet) : List Path → Work ReadSheets m Sheet
  | [] => pure sheet
  | p :: ps => do
    let top ← loadFile p
    loadFiles (sheet.overlay top) ps

/-- Loads what a path leads to on top of a sheet: a style sheet, or all below a directory. -/
def loadPath (sheet : Sheet) (p : Path) : Work ReadSheets m Sheet := do
  if ← Work.lift (isFile p) then loadFiles sheet [p]
  else if ← Work.lift (isDirectory p) then
    let found ← Work.lift (search p fun f => Text.endsWith extension (f.parts.getLast?.getD ""))
    loadFiles sheet (found.map (·.1))
  else
    Work.say (.noStylePath p.toString)
    return sheet

/-- Loads what paths lead to on top of a sheet. -/
def loadPaths (sheet : Sheet) : List Path → Work ReadSheets m Sheet
  | [] => pure sheet
  | p :: ps => do
    let sheet ← loadPath sheet p
    loadPaths sheet ps

/-- Loads all style sheets that paths lead to, and resolves inheritance across them. -/
def loadAll (paths : List Path) : Work ReadSheets m Sheet := do
  let sheet ← loadPaths {} (searched paths)
  Work.ofNoted sheet.resolve

end Sheet

end Otui
