import Otui.Files.Path
import Otui.Number.Binary
import Otui.Number.Numeral
import Otui.Text.Utf8

/-!
# Faults

What cannot be worked around ends a request with a `Fault`, told by its cause. `Fault.message` has
the words, and `Fault.kind` sorts the causes; the command line reports those whose kind is a bad
value or a missing file as errors of its user.
-/

namespace Otui

/-- The kinds of causes. -/
inductive FaultKind where
  /-- A value of the right kind that makes no sense. -/
  | badValue
  /-- A value of the wrong kind. -/
  | badKind
  /-- A mapping that lacks an entry. -/
  | missingEntry
  /-- A value that cannot do what a mapping or a text can. -/
  | lacksOperation
  /-- A number beyond the numbers that there are. -/
  | overflow
  /-- A file that there is not. -/
  | missingFile
  /-- A directory where a file is wanted. -/
  | isDirectory
  /-- A file where a directory is wanted. -/
  | notDirectory
  /-- A file where a new directory is wanted. -/
  | fileExists
  /-- Bytes that are no text. -/
  | badBytes
  /-- A text that is no notation of data. -/
  | badNotation
  /-- A file that is no image. -/
  | badImage
  /-- Any other kind. -/
  | other
  deriving DecidableEq

/-- A cause that ends a request. -/
inductive Fault where
  /-- A document is not text. -/
  | documentNotText (kind : String)
  /-- A style sheet is not text. -/
  | sheetNotText (kind : String)
  /-- A mapping lacks an entry. -/
  | missingEntry (key : String)
  /-- A value, as messages show it, is no integer numeral. -/
  | notAnInteger (shown : String)
  /-- A value, as messages show it, is no numeral. -/
  | notANumeral (shown : String)
  /-- A text has more digits than an integer numeral may have. -/
  | tooManyDigits (digits : Nat)
  /-- An integer has more digits than are written. -/
  | tooLongToWrite
  /-- A value of this kind is no integer. -/
  | noInteger (kind : String)
  /-- A value of this kind is no number. -/
  | noNumber (kind : String)
  /-- A number has no nearby integer. -/
  | unroundable (why : Number.Unroundable)
  /-- An integer is beyond all binary64 numbers. -/
  | integerTooLarge
  /-- Half of an integer is beyond all binary64 numbers. -/
  | quotientTooLarge
  /-- A value of this kind has no members. -/
  | noMembers (kind : String)
  /-- A mapping was wanted. -/
  | notAMapping
  /-- A member that should be a pair has another length. -/
  | pairLength (index length : Nat)
  /-- A member that should be a pair has no members. -/
  | notAPair (index : Nat)
  /-- A value of this kind cannot be a name. -/
  | notAName (kind : String)
  /-- A value of this kind is no path. -/
  | notAPath (kind : String)
  /-- The data of a registry is not a mapping. -/
  | registryNotAMapping
  /-- The definition of a type is not a mapping. -/
  | definitionNotAMapping (name : String)
  /-- The data of a configuration is not a mapping. -/
  | configNotAMapping
  /-- A configuration has entries that there are not. -/
  | unknownSettings (names : List String)
  /-- Values of these kinds cannot be put in order. -/
  | notOrdered (kind other : String)
  /-- A value of this kind stands first where texts are joined. -/
  | notJoined (kind : String)
  /-- A number of a configuration cannot be read. -/
  | badSetting (reason : String)
  /-- The threshold of a configuration is below nought. -/
  | negativeThreshold
  /-- A default size of a configuration is not above nought. -/
  | emptySize
  /-- A title that is not text cannot be translated. -/
  | titleNotText
  /-- A value of this kind has no characters. -/
  | noCharacters (kind : String)
  /-- There is no edge of this name. -/
  | unknownEdge (name : String)
  /-- A registry file is missing. -/
  | noRegistryFile (path : String)
  /-- A configuration file is missing. -/
  | noConfigFile (path : String)
  /-- A style sheet file is missing. -/
  | noSheetFile (path : String)
  /-- No directory has a style sheet of this name. -/
  | noSheetNamed (name : String) (searched : List String)
  /-- A file is missing. -/
  | noFile (path : String)
  /-- A file is a directory. -/
  | isDirectory (path : String)
  /-- A part of a path is a file. -/
  | notDirectory (path : String)
  /-- A directory cannot be made where a file is. -/
  | fileExists (path : String)
  /-- A file is not UTF-8. -/
  | notUtf8 (fault : Text.Utf8Fault)
  /-- A style sheet file is not UTF-8. -/
  | sheetNotUtf8 (path : String) (fault : Text.Utf8Fault)
  /-- A file is no notation of data. -/
  | badNotation
  /-- A file is no image. -/
  | notAnImage (path : String)
  /-- There are no pictures with this extension. -/
  | unknownPicture (extension : String)
  /-- A cause outside of the program, with its kind and its words. -/
  | outside (kind : FaultKind) (reason : String)
  deriving DecidableEq

namespace Fault

/-- The kind of a cause. -/
def kind : Fault → FaultKind
  | documentNotText _ | sheetNotText _ | noInteger _ | noNumber _ | noMembers _ | notAPair _
  | notAName _ | notAPath _ | noCharacters _ | notOrdered .. | notJoined _ => .badKind
  | missingEntry _ => .missingEntry
  | notAMapping | titleNotText => .lacksOperation
  | unroundable .infinite | integerTooLarge | quotientTooLarge => .overflow
  | noRegistryFile _ | noConfigFile _ | noSheetFile _ | noSheetNamed .. | noFile _ => .missingFile
  | isDirectory _ => .isDirectory
  | notDirectory _ => .notDirectory
  | fileExists _ => .fileExists
  | notUtf8 _ => .badBytes
  | badNotation => .badNotation
  | notAnImage _ => .badImage
  | outside kind _ => kind
  | notAnInteger _ | notANumeral _ | tooManyDigits _ | tooLongToWrite | unroundable .notANumber
  | pairLength .. | registryNotAMapping | definitionNotAMapping _ | configNotAMapping
  | unknownSettings _ | badSetting _ | negativeThreshold | emptySize | unknownEdge _
  | sheetNotUtf8 .. | unknownPicture _ => .badValue

/-- The words of the system for a path that it cannot use. -/
def systemMessage (number : Nat) (what path : String) : String :=
  s!"[Errno {number}] {what}: {Text.quoted path}"

/-- The words for the limit to the digits of integers. -/
def digitLimitMessage (given : String) : String :=
  s!"Exceeds the limit ({Number.digitLimit} digits) for integer string conversion{given}; "
    ++ "use sys.set_int_max_str_digits() to increase the limit"

/-- The words for a value where a path belongs. -/
def notAPathMessage (kind : String) : String :=
  if kind == "bytes" then
    "argument should be a str object or an os.PathLike object returning str, not <class 'bytes'>"
  else s!"expected str, bytes or os.PathLike object, not {kind}"

/-- The words for values that cannot be put in order. Those for days and moments are their own. -/
def notOrderedMessage (kind other : String) : String :=
  let times := ["datetime.date", "datetime.datetime"]
  if kind == other then "can't compare offset-naive and offset-aware datetimes"
  else if times.contains kind && times.contains other then
    "can't compare datetime.datetime to datetime.date"
  else s!"'<' not supported between instances of '{kind}' and '{other}'"

/-- The words for a cause; what is no integer is shown up to 200 characters. -/
def message : Fault → String
  | documentNotText kind => s!"OTUI source must be text, not {kind}"
  | sheetNotText kind => s!"Style sheet must be text, not {kind}"
  | missingEntry key => Text.quoted key
  | notAnInteger shown =>
    "invalid literal for int() with base 10: " ++ String.ofList (shown.toList.take 200)
  | notANumeral shown => "could not convert string to float: " ++ shown
  | tooManyDigits digits => digitLimitMessage s!": value has {digits} digits"
  | tooLongToWrite => digitLimitMessage ""
  | noInteger kind =>
    s!"int() argument must be a string, a bytes-like object or a real number, not '{kind}'"
  | noNumber kind => s!"float() argument must be a string or a real number, not '{kind}'"
  | unroundable why => why.message
  | integerTooLarge => "int too large to convert to float"
  | quotientTooLarge => "integer division result too large for a float"
  | noMembers kind => s!"'{kind}' object is not iterable"
  | notAMapping => ""
  | pairLength index length =>
    s!"dictionary update sequence element #{index} has length {length}; 2 is required"
  | notAPair index => s!"cannot convert dictionary update sequence element #{index} to a sequence"
  | notAName kind => s!"unhashable type: '{kind}'"
  | notAPath kind => notAPathMessage kind
  | registryNotAMapping => "Widget registry must be a mapping"
  | definitionNotAMapping name => s!"Widget definition for '{name}' must be a mapping"
  | configNotAMapping => "Config must be a mapping"
  | unknownSettings names => "Unknown config keys: " ++ Text.join ", " names
  | notOrdered kind other => notOrderedMessage kind other
  | notJoined kind => s!"sequence item 0: expected str instance, {kind} found"
  | badSetting reason => "Invalid numeric config value: " ++ reason
  | negativeThreshold => "center_threshold must not be negative"
  | emptySize => "default size must be positive"
  | titleNotText => ""
  | noCharacters kind => s!"expected string or bytes-like object, got '{kind}'"
  | unknownEdge name => s!"Unknown anchor edge: {name}"
  | noRegistryFile path => s!"Widget registry not found: {path}"
  | noConfigFile path => s!"Config file not found: {path}"
  | noSheetFile path => s!"Style sheet not found: {path}"
  | noSheetNamed name searched =>
    let paths := Text.join ", " (searched.map fun p => s!"PosixPath({Text.quoted p})")
    s!"Style sheet '{name}' not found in search paths: [{paths}]"
  | noFile path => systemMessage 2 "No such file or directory" path
  | isDirectory path => systemMessage 21 "Is a directory" path
  | notDirectory path => systemMessage 20 "Not a directory" path
  | fileExists path => systemMessage 17 "File exists" path
  | notUtf8 fault => fault.message
  | sheetNotUtf8 path fault => s!"Style sheet {path} is not valid UTF-8: {fault.message}"
  | badNotation => ""
  | notAnImage path => s!"cannot identify image file {Text.quoted path}"
  | unknownPicture extension => s!"unknown file extension: {extension}"
  | outside _ reason => reason

/-- Whether a cause is a value of the right kind that makes no sense, bytes that are no text among
them. -/
def isBadValue (f : Fault) : Bool := f.kind == .badValue || f.kind == .badBytes

/-- Whether the command line reports a cause as an error of its user. -/
def isReported (f : Fault) : Bool := f.isBadValue || f.kind == .missingFile

end Fault

end Otui
