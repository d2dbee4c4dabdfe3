import Otui.Config
import Otui.Data.Numbers

/-!
# Configurations from data

A configuration file is a mapping whose entries are all known; those that are not are told in order.
Paths are read first, then numbers, then the bounds of the numbers are checked. Where one path may
stand, a list of paths is meant that has this one.
-/

namespace Otui.Config

/-- The names of the settings. -/
def settings : List String :=
  ["center_threshold", "default_width", "default_height", "module_name", "module_title",
   "registry_path", "style_paths", "image_paths"]

/-- Whether a value is the name of a setting. -/
def isSetting (d : Data) : Bool := d.text?.any settings.contains

/-! ### Unknown names -/

/-- Texts in order. -/
def inOrder (names : List String) : List String := names.mergeSort fun a b => a ≤ b

/-- A finite number as a ratio. -/
def ratio? : Data → Option (Int × Nat)
  | .bool b => some (if b then 1 else 0, 1)
  | .int n => some (n, 1)
  | .float x =>
    match Number.exact x with
    | .finite neg m e => some (Number.signed neg (Number.ratio m e).1, (Number.ratio m e).2)
    | _ => none
  | _ => none

/-- A number that is infinite or undefined, nought for any other. -/
def infinity : Data → Float
  | .float x => if Number.isFinite x then 0 else x
  | _ => 0

/-- Whether a number is below another one. -/
def isBelow (a b : Data) : Bool :=
  match ratio? a, ratio? b with
  | some (m, d), some (n, e) => m * e < n * d
  | _, _ => infinity a < infinity b

/-- Whether a value is a number. -/
def isNumber : Data → Bool
  | .bool _ | .int _ | .float _ => true
  | _ => false

/-- Whether two values can be put in order. -/
def areOrdered : Data → Data → Bool
  | .text _, .text _ | .bytes _, .bytes _ | .day _, .day _ => true
  | .moment m, .moment n => m.ahead.isSome == n.ahead.isSome
  | a, b => isNumber a && isNumber b

/-- The fault for names that there are not. They are put in order and joined, which takes texts. Of
several names of which some cannot be ordered, two such are told. -/
def unknownFault (name : Data) (names : List Data) : Fault :=
  match (name :: names).mapM Data.text? with
  | some texts => .unknownSettings (inOrder texts)
  | none =>
    match names.find? fun other => !areOrdered other name with
    | some other => .notOrdered other.kind name.kind
    | none => .notJoined (names.foldl (fun a b => if isBelow b a then b else a) name).kind

/-! ### Settings -/

/-- Reads a path. -/
def pathOfData : Data → Except Fault Path
  | .text s => .ok (Path.ofString s)
  | d => .error (.notAPath d.bareKind)

/-- Reads a list of paths: nothing is no path, a text is one. -/
def pathsOfData : Option Data → Except Fault (List Path)
  | none | some .null => .ok []
  | some (.text s) => .ok [Path.ofString s]
  | some d =>
    match d.members? with
    | some ds => ds.mapM pathOfData
    | none => .error (.noMembers d.kind)

/-- A number of the configuration; one that cannot be read is a bad setting, one that is too large
stays what it is. -/
def number {ν : Type} (read : Data → Except Fault ν) (given : Option Data) (standard : ν) :
    Except Fault ν :=
  match given with
  | none => .ok standard
  | some d =>
    match read d with
    | .ok v => .ok v
    | .error f => if f.kind == .overflow then .error f else .error (.badSetting f.message)

/-- Reads the settings of a mapping whose names are known. -/
def ofEntries (d : Data) : Except Fault (Config Float) := do
  let registryPath ← match d.get? "registry_path" with
    | none | some .null => .ok none
    | some p => (pathOfData p).map some
  let stylePaths ← pathsOfData (d.get? "style_paths")
  let imagePaths ← pathsOfData (d.get? "image_paths")
  let base : Config Float := standard
  let threshold ← number Data.toFloat (d.get? "center_threshold") base.threshold
  let defaultWidth ← number Data.toInt (d.get? "default_width") base.defaultWidth
  let defaultHeight ← number Data.toInt (d.get? "default_height") base.defaultHeight
  if threshold < 0 then .error .negativeThreshold
  else if defaultWidth ≤ 0 || defaultHeight ≤ 0 then .error .emptySize
  else
    .ok
      { threshold, defaultWidth, defaultHeight
        moduleName := (d.get? "module_name").getD base.moduleName
        moduleTitle := (d.get? "module_title").getD base.moduleTitle
        registryPath, stylePaths, imagePaths }

/-- Reads a configuration; nothing is the standard one. -/
def ofData : Data → Except Fault (Config Float)
  | .null => .ok standard
  | .mapping es =>
    match (es.map Prod.fst).filter fun name => !isSetting name with
    | [] => ofEntries (.mapping es)
    | name :: names => .error (unknownFault name names)
  | _ => .error .configNotAMapping

/-- The configuration with its relative paths seen from a directory. -/
def seenFrom {α : Type} (base : Path) (c : Config α) : Config α :=
  { c with
    registryPath := c.registryPath.map base.under
    stylePaths := c.stylePaths.map base.under
    imagePaths := c.imagePaths.map base.under }

end Otui.Config
