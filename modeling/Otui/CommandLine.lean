import Otui.CommandLine.Invocation
import Otui.Config.Loading
import Otui.Document.Printer
import Otui.Document.Reader
import Otui.Image.Library
import Otui.Module.Manifest
import Otui.Module.Script
import Otui.Preview
import Otui.Registry.Loading
import Otui.Registry.Packaged
import Otui.Style.Loader
import Otui.Template.Expansion
import Otui.Widget.Transport

/-!
# The command line

What the commands do, in any monad with files. A run ends with a report: an exit code, what was
printed, and the lines of the log. Free-form data is printed as data.
-/

namespace Otui.CommandLine

/-- Something printed. -/
inductive Printed where
  /-- A text. -/
  | text (s : String)
  /-- A value. -/
  | data (d : Data)

/-- Work of a command: what it has printed so far is its state. -/
abbrev Working (m : Type → Type) := Work (List Printed) m

/-- A complaint about what was asked for; there is none when all is well. -/
abbrev Complaint := Option String

variable {m : Type → Type} [Monad m] [FileAccess m]

/-- Prints a text. -/
def printText (s : String) : Working m Unit := modify fun out => out ++ [.text s]

/-- Prints a value. -/
def printData (d : Data) : Working m Unit := modify fun out => out ++ [.data d]

/-! ### Reading files -/

/-- The data of a file that must be there. -/
def dataFile (p : Path) (missing : String → Fault) : m (Except Fault Data) := do
  if ← FileAccess.isThere p then FileAccess.readData p
  else return .error (missing p.toString)

/-- Loads a configuration file; its relative paths are seen from where it is. -/
def loadConfig (p : Path) : m (Except Fault (Config Float)) := do
  return ((← dataFile p .noConfigFile).bind Config.ofData).map (Config.seenFrom p.parent)

/-- Loads a registry file. -/
def loadRegistry (p : Path) : m (Except Fault Registry) := do
  return (← dataFile p .noRegistryFile).bind Registry.ofData

/-- The registry that a configuration names, or the packaged one. -/
def registryFor (config : Config Float) : Working m Registry :=
  match config.registryPath with
  | some p => Work.liftExcept (loadRegistry p)
  | none => pure .packaged

/-- Reads a document with the registry of a configuration. -/
def readDocument (config : Config Float) (file : String) : Working m (Document.Parsed Float) := do
  let registry ← registryFor config
  let text ← Work.liftExcept (FileAccess.readText (Path.ofString file))
  let parsed ← Work.ofNoted (Document.read registry text)
  let d := parsed.document
  Work.say (.readDocument file d.widgets.length d.templates.length)
  return parsed

/-! ### Trees of widgets -/

/-- The line for a widget at a level. -/
def treeLine (level : Nat) (e : Element Float) : String :=
  let front := String.ofList (List.replicate (2 * level) ' ')
  let template := match e.template with
    | some t => " [template " ++ t.name ++ "]"
    | none => ""
  front ++ "- " ++ e.displayType ++ " #" ++ textOrEmpty e.id ++ " (" ++ e.type ++ ")" ++ template

mutual

/-- The lines for a widget at a level and all below it. -/
def treeLines (level : Nat) : Widget Float → List String
  | .node e cs => treeLine level e :: forestLines (level + 1) cs

/-- The lines for widgets at a level and all below them. -/
def forestLines (level : Nat) : List (Widget Float) → List String
  | [] => []
  | w :: ws => treeLines level w ++ forestLines level ws

end

/-- The lines for a document: first the templates with their bodies. -/
def documentLines (d : Document Float) : List String :=
  (d.templates.flatMap fun t =>
    ("template " ++ t.name ++ " < " ++ t.base) :: forestLines 1 t.children)
    ++ forestLines 0 d.widgets

/-! ### Commands -/

/-- Prints a document as it is written. -/
def format (config : Config Float) (file : String) : Working m Unit := do
  let parsed ← readDocument config file
  printText (← Work.ofOutcome (Document.print config parsed.document))

/-- Prints the tree of widgets of a document. -/
def tree (config : Config Float) (file : String) : Working m Unit := do
  let parsed ← readDocument config file
  for line in documentLines parsed.document do
    printText (line ++ "\n")

/-- Prints a document as data. -/
def dump (config : Config Float) (file : String) (expanded : Bool) : Working m Unit := do
  let parsed ← readDocument config file
  let d := parsed.document
  let widgets ← if expanded then Work.ofNoted (expand d.templates d.widgets) else pure d.widgets
  printData (.record
    [("templates", .list (d.templates.map Template.toData)),
     ("widgets", .list (Widget.allToData widgets))])

/-- Prints styles as data. -/
def styles (config : Config Float) (paths : List String) (style state : Option String) :
    Working m Complaint := do
  let searched := if paths.isEmpty then config.stylePaths else paths.map Path.ofString
  let sheet ← Work.inside [] (Sheet.loadAll searched)
  match style with
  | none =>
    printData (.ofLedger Style.toData sheet)
    return none
  | some name =>
    match sheet.get? name, state with
    | none, _ => return some ("style '" ++ name ++ "' not found")
    | some s, none =>
      printData s.toData
      return none
    | some s, some state =>
      match s.overlay? state with
      | some properties =>
        printData (.ofLedger .text properties)
        return none
      | none => return some ("style '" ++ name ++ "' has no state '" ++ state ++ "'")

/-- Opens an image of a library. -/
def openImage (library : ImageLibrary) (source : String) : m (String × OpenedImage) := do
  match ← library.open? source with
  | .ok (some _) => return (source, .found)
  | .ok none => return (source, .missing)
  | .error fault => return (source, .broken fault.message)

/-- What comes of opening the images that widgets name. -/
def openImages (palette : Palette Float) (widgets : List (Widget Float)) (paths : List Path) :
    Working m (Option (String → OpenedImage)) := do
  if paths.isEmpty then return none
  let library ← Work.inside { directories := paths } do
    ImageLibrary.refresh
    get
  let opened ← Work.lift ((Preview.imageSources palette widgets).mapM (openImage library))
  return some fun source => (opened.lookup source).getD .missing

/-- Saves a preview. -/
def savePreview (output : String) (commands : List (Drawing Float)) : Working m Unit := do
  let p := Path.ofString output
  let format := Text.lower p.extension
  if !Preview.pictureExtensions.contains format then throw (.unknownPicture format)
  Work.liftExcept (FileAccess.writeText p
    (Data.write (.list (commands.map Drawing.toData)) ++ "\n"))

/-- Draws a preview of a document. -/
def preview (config : Config Float) (file output : String) (styles images : List String) :
    Working m Unit := do
  let parsed ← readDocument config file
  let d := parsed.document
  let widgets ← Work.ofNoted (expand d.templates d.widgets)
  let stylePaths := styles.map Path.ofString ++ config.stylePaths
  let sheet ← if stylePaths.isEmpty then pure {} else Work.inside [] (Sheet.loadAll stylePaths)
  let palette : Palette Float :=
    { sheet, registry := some parsed.registry, painter := .standard, config }
  let openImage ← openImages palette widgets (images.map Path.ofString ++ config.imagePaths)
  let (canvas, commands) ← Work.ofOutcome (Preview.draw { palette with openImage } widgets)
  savePreview output commands
  printText ("Saved preview to " ++ output ++ " (" ++ toString canvas.width ++ "x"
    ++ toString canvas.height ++ ")\n")

/-- A text that is given and not empty, else a setting. -/
def givenOr (given : Option String) (setting : Data) : Data :=
  if textOrEmpty given != "" then .text (textOrEmpty given) else setting

/-- The files of a module with their names. -/
def moduleFiles (config : Config Float) (parsed : Document.Parsed Float) (name title : Data)
    (author : Option String) : Outcome (List (String × String)) := do
  let d := parsed.document
  let document ← Document.print config d
  let fallback ← Outcome.ofExcept (Script.fallbackVariable d.widgets name)
  let script := Script.text parsed.registry fallback name.display title.display d.widgets
  let manifest : Manifest :=
    { name := name.display, description := title.display, author := author.filter (· != "") }
  return [(name.display ++ ".otui", document), (name.display ++ ".lua", script),
    (name.display ++ ".otmod", manifest.text)]

/-- Prints the files of a module. -/
def printFiles (files : List (String × String)) : Working m Unit := do
  for (name, content) in files do
    printText ("-- " ++ name ++ "\n" ++ content ++ "\n")

/-- Writes the files of a module into a directory. -/
def writeFiles (directory : Path) (files : List (String × String)) : Working m Unit := do
  Work.liftExcept (FileAccess.makeDirectory directory)
  for (name, content) in files do
    let p := directory.under (Path.ofString name)
    Work.liftExcept (FileAccess.writeText p content)
    printText ("Wrote " ++ p.toString ++ "\n")

/-- Writes or prints the files of a module for a document. -/
def scaffold (config : Config Float) (file : String)
    (name title author directory : Option String) : Working m Unit := do
  let parsed ← readDocument config file
  let files ← Work.ofOutcome (moduleFiles config parsed (givenOr name config.moduleName)
    (givenOr title config.moduleTitle) author)
  match directory with
  | none => printFiles files
  | some d => writeFiles (Path.ofString d) files

/-- Carries a command out. -/
def Command.run (config : Config Float) : Command → Working m Complaint
  | .format file => do
    CommandLine.format config file
    return none
  | .tree file => do
    CommandLine.tree config file
    return none
  | .dump file expanded => do
    CommandLine.dump config file expanded
    return none
  | .styles paths name state => CommandLine.styles config paths name state
  | .preview file output sheets images => do
    CommandLine.preview config file output sheets images
    return none
  | .scaffold file name title author directory => do
    CommandLine.scaffold config file name title author directory
    return none

/-- Carries an invocation out. -/
def Invocation.run (i : Invocation) : Working m Complaint := do
  let path := textOrEmpty i.config
  let config ← if path == "" then pure .standard
    else Work.liftExcept (loadConfig (Path.ofString path))
  i.command.run config

/-! ### Reports -/

/-- How a run ended. -/
structure Report where
  /-- The exit code. -/
  code : Nat
  /-- What was printed. -/
  output : List Printed
  /-- The lines of the log, and the error if there is one. -/
  log : List String

/-- The lines of the log that are shown. -/
def logLines (verbose : Bool) (notices : List Notice) : List String :=
  (notices.filter fun n => verbose || n.level == .warning).map Notice.logLine

/-- The report of a run; a fault that is not reported as an error of the user stays one. -/
def report (verbose : Bool) (result : Outcome Complaint × List Printed) : Except Fault Report :=
  let (outcome, output) := result
  let lines := logLines verbose (ExceptT.run outcome).notices
  let failure (reason : String) : Report := ⟨1, output, lines ++ ["error: " ++ reason]⟩
  match (ExceptT.run outcome).value with
  | .ok none => .ok ⟨0, output, lines⟩
  | .ok (some complaint) => .ok (failure complaint)
  | .error fault => if fault.isReported then .ok (failure fault.message) else .error fault

/-- How the words of a command line end. -/
inductive Ending where
  /-- They ask for help, or are wrong. -/
  | stopped (stop : Stop)
  /-- They lead to a run. -/
  | ran (report : Report)
  /-- They lead to a run that a fault ends. -/
  | failed (fault : Fault)

/-- How a run ends. -/
def ending (verbose : Bool) (result : Outcome Complaint × List Printed) : Ending :=
  match report verbose result with
  | .ok r => .ran r
  | .error fault => .failed fault

/-- Carries the words of a command line out. -/
def run (words : List String) : m Ending := do
  match Invocation.read words with
  | .error stop => return .stopped stop
  | .ok i => return ending i.verbose (← (Invocation.run i).complete [])

end Otui.CommandLine
