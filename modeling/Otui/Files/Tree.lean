import Otui.Files.Access

/-!
# File trees in memory

A file tree is a list of places with what is there, under one directory that relative paths start
from. It gives programs their file system where no real one is wanted.
-/

namespace Otui

/-- What is at a place. -/
inductive FileNode where
  /-- A directory. -/
  | directory
  /-- A file. -/
  | file (bytes : List UInt8)
  deriving DecidableEq

/-- Directories and files by the names on the way to them. -/
structure FileTree where
  /-- The places with what is there. -/
  nodes : List (List String × FileNode) := []

namespace FileTree

/-- What is at a place. -/
def at? (t : FileTree) (place : List String) : Option FileNode :=
  if place.isEmpty then some .directory else (t.nodes.find? (·.1 == place)).map (·.2)

/-- Why a path leads nowhere. -/
inductive Lost where
  /-- A name on the way is not there. -/
  | missing
  /-- A name on the way is that of a file. -/
  | notDirectory
  deriving DecidableEq

/-- The words for a path that leads nowhere. -/
def Lost.fault (path : Path) : Lost → Fault
  | .missing => .noFile path.toString
  | .notDirectory => .notDirectory path.toString

/-- Walks along names from a place. Only a directory can be walked through. -/
def walk (t : FileTree) (place : List String) : List String → Except Lost (List String)
  | [] => .ok place
  | name :: rest =>
    match t.at? place with
    | none => .error .missing
    | some .directory =>
      if name != ".." then t.walk (place ++ [name]) rest
      else if place.isEmpty then .error .missing
      else t.walk place.dropLast rest
    | some _ => .error .notDirectory

/-- The place that a path leads to. What is there may be nothing. -/
def locate (t : FileTree) (p : Path) : Except Lost (List String) :=
  if p.isAbsolute then .error .missing else t.walk [] p.parts

/-- What a path leads to. -/
def find (t : FileTree) (p : Path) : Except Lost FileNode :=
  (t.locate p).bind fun place =>
    match t.at? place with
    | some node => .ok node
    | none => .error .missing

/-- Puts something at a place, in place of what is there. -/
def put (t : FileTree) (place : List String) (node : FileNode) : FileTree :=
  if (t.at? place).isSome then
    ⟨t.nodes.map fun e => if e.1 == place then (place, node) else e⟩
  else ⟨t.nodes ++ [(place, node)]⟩

/-- Makes the directories on the way along names, unless they are there. -/
def makeWay (t : FileTree) (place : List String) : List String → Except Lost FileTree
  | [] => .ok t
  | name :: rest =>
    let next := if name == ".." then place.dropLast else place ++ [name]
    match t.at? next with
    | some .directory => t.makeWay next rest
    | none => (t.put next .directory).makeWay next rest
    | some _ => .error .notDirectory

/-! ### Access -/

/-- Whether a path leads to a file. -/
def isFile (t : FileTree) (p : Path) : Bool :=
  match t.find p with
  | .ok (.file _) => true
  | _ => false

/-- Whether a path leads to a directory. -/
def isDirectory (t : FileTree) (p : Path) : Bool :=
  match t.find p with
  | .ok .directory => true
  | _ => false

/-- The bytes of a file. -/
def readBytes (t : FileTree) (p : Path) : Except Fault (List UInt8) :=
  match t.find p with
  | .ok (.file bytes) => .ok bytes
  | .ok .directory => .error (.isDirectory p.toString)
  | .error lost => .error (lost.fault p)

/-- Everything below a directory. -/
def below (t : FileTree) (p : Path) : List FoundFile :=
  match t.locate p with
  | .error _ => []
  | .ok place =>
    t.nodes.filterMap fun (other, node) =>
      if place.isPrefixOf other && place.length < other.length then
        some ⟨other.drop place.length, node != .directory⟩
      else none

/-- Writes a file into a directory that is there. -/
def writeText (t : FileTree) (p : Path) (content : String) : Except Fault FileTree :=
  match t.locate p with
  | .error lost => .error (lost.fault p)
  | .ok place =>
    match t.at? place with
    | some .directory => .error (.isDirectory p.toString)
    | some _ => .ok (t.put place (.file (Text.encodeUtf8 content)))
    | none =>
      match t.at? place.dropLast with
      | some .directory => .ok (t.put place (.file (Text.encodeUtf8 content)))
      | _ => .error (.noFile p.toString)

/-- Makes a directory and those around it, unless it is there. -/
def makeDirectory (t : FileTree) (p : Path) : Except Fault FileTree :=
  if t.isFile p then .error (.fileExists p.toString)
  else if p.isAbsolute then .error (.noFile p.toString)
  else (t.makeWay [] p.parts).mapError fun lost => lost.fault p

/-- Removes a file. -/
def remove (t : FileTree) (p : Path) : FileTree :=
  match t.locate p with
  | .ok place => ⟨t.nodes.filter fun e => e.1 != place⟩
  | .error _ => t

/-- The tree with one more thing in it, and the directories on the way to it. -/
def withNode (t : FileTree) (p : Path) (node : FileNode) : FileTree :=
  match t.makeWay [] p.parts.dropLast with
  | .ok t => t.put p.parts node
  | .error _ => t

/-- Runs a change of the tree that may fail. -/
def change (f : FileTree → Except Fault FileTree) : StateM FileTree (Except Fault Unit) := do
  match f (← get) with
  | .ok t =>
    set t
    return .ok ()
  | .error fault => return .error fault

instance : FileAccess (StateM FileTree) where
  isFile p := return (← get).isFile p
  isDirectory p := return (← get).isDirectory p
  readBytes p := return (← get).readBytes p
  below p := return (← get).below p
  writeText p content := change fun t => t.writeText p content
  makeDirectory p := change fun t => t.makeDirectory p

end FileTree

end Otui
