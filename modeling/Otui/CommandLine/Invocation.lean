import Otui.CommandLine.Arguments

/-!
# Invocations

The program has six commands. `Invocation.read` reads one from the words of a command line.
-/

namespace Otui.CommandLine

/-- A command. -/
inductive Command where
  /-- Reads a document and prints it again. -/
  | format (file : String)
  /-- Prints the tree of widgets of a document. -/
  | tree (file : String)
  /-- Prints a document as data. -/
  | dump (file : String) (expanded : Bool)
  /-- Prints styles as data: all, or one, or a state of one. -/
  | styles (paths : List String) (style state : Option String)
  /-- Draws a preview of a document. -/
  | preview (file output : String) (styles images : List String)
  /-- Writes the files of a module for a document, or prints them. -/
  | scaffold (file : String) (name title author directory : Option String)
  deriving DecidableEq

/-- A command with the options that all commands have. -/
structure Invocation where
  /-- The configuration file. -/
  config : Option String
  /-- Whether all notices are shown. -/
  verbose : Bool
  /-- The command. -/
  command : Command
  deriving DecidableEq

/-! ### Usages -/

/-- The words before a command. -/
def mainUsage : Usage :=
  ⟨[helpRule, ⟨["-c", "--config"], .value⟩, ⟨["-v", "--verbose"], .flag⟩], .command⟩

/-- The words of a command that only has a file. -/
def fileUsage : Usage := ⟨[helpRule], .one⟩

/-- The words of the command that prints a document as data. -/
def dumpUsage : Usage := ⟨[helpRule, ⟨["--expand"], .flag⟩], .one⟩

/-- The words of the command that prints styles. -/
def stylesUsage : Usage := ⟨[helpRule, ⟨["--style"], .value⟩, ⟨["--state"], .value⟩], .any⟩

/-- The words of the command that draws. -/
def previewUsage : Usage :=
  ⟨[helpRule, ⟨["-o", "--output"], .value⟩, ⟨["--styles"], .value⟩, ⟨["--images"], .value⟩], .one⟩

/-- The words of the command that writes a module. -/
def scaffoldUsage : Usage :=
  ⟨[helpRule, ⟨["--module"], .value⟩, ⟨["--title"], .value⟩, ⟨["--author"], .value⟩,
    ⟨["-o", "--output-dir"], .value⟩], .one⟩

/-! ### Reading -/

/-- The one operand of a command. -/
def Arguments.file (a : Arguments) : Except Stop String :=
  match a.operands with
  | some [file] => .ok file
  | _ => .error .misuse

/-- Reads the words of a command, which must all be taken. -/
def Usage.readAll (usage : Usage) (words : List String) : Except Stop Arguments := do
  let a ← usage.read words
  if a.hasMore then throw .misuse
  return a

/-- Reads a command from its name and the words after it. -/
def Command.read (name : String) (words : List String) : Except Stop Command :=
  match name with
  | "format" => do return .format (← (← fileUsage.readAll words).file)
  | "tree" => do return .tree (← (← fileUsage.readAll words).file)
  | "dump" => do
    let a ← dumpUsage.readAll words
    return .dump (← a.file) (a.has "--expand")
  | "styles" => do
    let a ← stylesUsage.readAll words
    return .styles (a.operands.getD []) (a.value? "--style") (a.value? "--state")
  | "preview" => do
    let a ← previewUsage.readAll words
    match a.value? "-o" with
    | some output => return .preview (← a.file) output (a.values "--styles") (a.values "--images")
    | none => throw .misuse
  | "scaffold" => do
    let a ← scaffoldUsage.readAll words
    return .scaffold (← a.file) (a.value? "--module") (a.value? "--title") (a.value? "--author")
      (a.value? "-o")
  | _ => .error .misuse

/-- Reads an invocation from the words of a command line. -/
def Invocation.read (words : List String) : Except Stop Invocation := do
  let a ← mainUsage.read words
  match a.operands with
  | some (name :: rest) =>
    let command ← Command.read name rest
    if a.hasMore then throw .misuse
    return { config := a.value? "-c", verbose := a.has "-v", command }
  | _ => throw .misuse

end Otui.CommandLine
