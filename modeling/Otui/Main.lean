import Otui.CommandLine

/-!
# The program

Runs a command line with the files of the system: prints what it prints, then its log, and ends with
its exit code.
-/

namespace Otui.Program

/-- The text of a path for the system. -/
def place (p : Path) : String := p.toString

/-- Whether a step of the system succeeds. -/
def succeeds {β : Type} (step : IO β) : IO Bool := do
  try
    discard step
    return true
  catch _ => return false

/-- Whether a path leads to a directory. -/
def isDirectory (p : Path) : IO Bool := do ((← IO.currentDir) / place p).isDir

/-- Whether a path leads to a file. -/
def isFile (p : Path) : IO Bool := do
  if ← isDirectory p then return false
  ((← IO.currentDir) / place p).pathExists

/-- A step of the system; what fails is told as a missing file or as a directory. -/
def attempt {β : Type} (p : Path) (step : IO β) : IO (Except Fault β) := do
  try
    return .ok (← step)
  catch _ =>
    if ← isDirectory p then return .error (.isDirectory p.toString)
    else return .error (.noFile p.toString)

/-- Everything below a directory. -/
partial def below (p : Path) : IO (List FoundFile) := do
  let entries ← ((← IO.currentDir) / place p).readDir
  let mut found := []
  for entry in entries do
    let name := entry.fileName
    let inner := p.under ⟨"", [name]⟩
    if ← isDirectory inner then
      let deeper ← below inner
      found := found ++ [⟨[name], false⟩] ++ deeper.map fun f => { f with parts := name :: f.parts }
    else found := found ++ [⟨[name], true⟩]
  return found

instance : FileAccess IO where
  isFile := isFile
  isDirectory := isDirectory
  readBytes p := attempt p do return (← IO.FS.readBinFile (place p)).toList
  below := below
  writeText p content := attempt p (IO.FS.writeFile (place p) content)
  makeDirectory p := do
    if ← succeeds (IO.FS.createDirAll (place p)) then return .ok ()
    else if ← isFile p then return .error (.fileExists p.toString)
    else return .error (.notDirectory p.toString)

/-- The usage of the program. -/
def usage : String :=
  "usage: otuigen [-h] [-c PATH] [-v] COMMAND ...\n"
    ++ "commands: format, tree, dump, styles, preview, scaffold\n"

/-- Prints what a run printed. -/
def printAll (output : List CommandLine.Printed) : IO Unit := do
  for piece in output do
    match piece with
    | .text s => IO.print s
    | .data d => IO.println (Data.write d)

/-- Runs a command line; the result is the exit code. -/
def start (words : List String) : IO UInt32 := do
  match ← CommandLine.run words with
  | .stopped .help =>
    IO.print usage
    return 0
  | .stopped .misuse =>
    IO.eprint usage
    return 2
  | .failed fault =>
    IO.eprintln ("failed: " ++ fault.message)
    return 1
  | .ran report =>
    printAll report.output
    for line in report.log do
      IO.eprintln line
    return report.code.toUInt32

end Otui.Program

/-- The program. -/
def main (words : List String) : IO UInt32 := Otui.Program.start words
