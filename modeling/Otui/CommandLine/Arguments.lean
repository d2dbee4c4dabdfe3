import Otui.Text.Affix
import Otui.Text.Digit

/-!
# Arguments of a command

The words of a command line are options and operands. Long options may be shortened as long as one
option is meant, and may have their value after an equals sign; short options may stand together,
and have their value right after them or in the next word. After two dashes all words are operands.

`Usage.read` sorts the words by a `Usage`: which options there are, and what operands are wanted.
-/

namespace Otui.CommandLine

/-- Why the words of a command line do not lead to a command. -/
inductive Stop where
  /-- Help is wanted. -/
  | help
  /-- The words are wrong. -/
  | misuse
  deriving DecidableEq

/-- What an option does. -/
inductive OptionKind where
  /-- Asks for help. -/
  | help
  /-- Is there or not. -/
  | flag
  /-- Has a value. -/
  | value
  deriving DecidableEq

/-- An option. -/
structure OptionRule where
  /-- The names with their dashes. -/
  names : List String
  /-- What the option does. -/
  kind : OptionKind
  deriving DecidableEq

/-- What operands are wanted. -/
inductive OperandRule where
  /-- One. -/
  | one
  /-- Any number of them. -/
  | any
  /-- A command, which takes all the words after it. -/
  | command
  deriving DecidableEq

/-- What words a command takes. -/
structure Usage where
  /-- The options. -/
  options : List OptionRule
  /-- The operands. -/
  operands : OperandRule

/-- The option that every command has. -/
def helpRule : OptionRule := ⟨["-h", "--help"], .help⟩

/-! ### Kinds of words -/

/-- An option in a word: its rule, the name of it, and the value that stands in the same word. -/
structure OptionMatch where
  /-- The rule. -/
  rule : OptionRule
  /-- The name, in full. -/
  name : String
  /-- The value. -/
  value : Option String
  deriving DecidableEq

/-- A word of a command line. -/
inductive Word where
  /-- A word that is no option. -/
  | plain (text : String)
  /-- The two dashes after which no word is an option. -/
  | dashes
  /-- An option, or what looks like one and is none. -/
  | option (found : Option OptionMatch)
  deriving DecidableEq

/-- The rule with a name. -/
def ruleNamed? (rules : List OptionRule) (name : String) : Option OptionRule :=
  rules.find? fun r => r.names.contains name

/-- The text before the first equals sign and the text after it, if there is one. -/
def cutAtEquals (s : String) : String × Option String :=
  let cs := s.toList
  let name := String.ofList (cs.takeWhile (· != '='))
  match cs.dropWhile (· != '=') with
  | [] => (name, none)
  | _ :: value => (name, some (String.ofList value))

/-- The options whose names start like a word with two dashes. -/
def longMatches (rules : List OptionRule) (word : String) : List OptionMatch :=
  let (front, value) := cutAtEquals word
  rules.flatMap fun rule =>
    (rule.names.filter (Text.startsWith front)).map fun name => ⟨rule, name, value⟩

/-- The options that a word with one dash may start with. -/
def shortMatches (rules : List OptionRule) (word : String) : List OptionMatch :=
  let cs := word.toList
  let short := String.ofList (cs.take 2)
  rules.flatMap fun rule =>
    rule.names.filterMap fun name =>
      if name == short then some ⟨rule, name, some (String.ofList (cs.drop 2))⟩
      else if Text.startsWith word name then some ⟨rule, name, none⟩
      else none

/-- Whether a word is a negative number, which is no option. -/
def isNegativeNumber : List Char → Bool
  | '-' :: cs =>
    let rest := cs.dropWhile Text.isDigit
    match rest with
    | [] => !cs.isEmpty
    | '.' :: fraction => !fraction.isEmpty && fraction.all Text.isDigit
    | _ => false
  | _ => false

/-- The kind of a word with a dash in front that is no name of an option. -/
def otherDashed (rules : List OptionRule) (word : String) : Except Stop Word :=
  let found := if Text.startsWith "--" word then longMatches rules word
    else shortMatches rules word
  match found with
  | [m] => .ok (.option (some m))
  | _ :: _ :: _ => .error .misuse
  | [] =>
    if isNegativeNumber word.toList || word.toList.contains ' ' then .ok (.plain word)
    else .ok (.option none)

/-- The kind of a word that stands before any two dashes. -/
def wordOf (rules : List OptionRule) (word : String) : Except Stop Word :=
  if !Text.startsWith "-" word || word == "-" then .ok (.plain word)
  else
    match ruleNamed? rules word with
    | some rule => .ok (.option (some ⟨rule, word, none⟩))
    | none =>
      match cutAtEquals word with
      | (name, some value) =>
        match ruleNamed? rules name with
        | some rule => .ok (.option (some ⟨rule, name, some value⟩))
        | none => otherDashed rules word
      | (_, none) => otherDashed rules word

/-- The kinds of words, each with its text. -/
def wordsOf (rules : List OptionRule) : List String → Except Stop (List (String × Word))
  | [] => .ok []
  | "--" :: rest => .ok (("--", .dashes) :: rest.map fun w => (w, .plain w))
  | w :: rest => do
    let word ← wordOf rules w
    let words ← wordsOf rules rest
    return (w, word) :: words

/-! ### Options -/

/-- What has been read so far. -/
structure Arguments where
  /-- The options in order, each by its rule with its value. -/
  settings : List (OptionRule × String) := []
  /-- The operands, once they have been read. -/
  operands : Option (List String) := none
  /-- Whether there are words that the command does not take. -/
  hasMore : Bool := false

/-- The options that stand together in one word, from an option with what follows it in the word: those
without a value, and the last one. -/
def together (rules : List OptionRule) (rule : OptionRule) (name : String) :
    List Char → Except Stop (List OptionMatch × OptionMatch)
  | [] => if rule.kind == .value then .ok ([], ⟨rule, name, some ""⟩) else .error .misuse
  | c :: cs =>
    if rule.kind == .value then .ok ([], ⟨rule, name, some (String.ofList (c :: cs))⟩)
    else if Text.startsWith "--" name then .error .misuse
    else
      let next := String.ofList ['-', c]
      match ruleNamed? rules next with
      | none => .error .misuse
      | some nextRule =>
        if cs.isEmpty then .ok ([⟨rule, name, none⟩], ⟨nextRule, next, none⟩)
        else
          (together rules nextRule next cs).map fun (flags, last) =>
            (⟨rule, name, none⟩ :: flags, last)

/-- The options of a word. -/
def optionsOf (rules : List OptionRule) (m : OptionMatch) :
    Except Stop (List OptionMatch × OptionMatch) :=
  match m.value with
  | none => .ok ([], m)
  | some value => together rules m.rule m.name value.toList

/-- Carries an option out. -/
def Arguments.set (a : Arguments) (rule : OptionRule) (value : String) : Except Stop Arguments :=
  if rule.kind == .help then .error .help
  else .ok { a with settings := a.settings ++ [(rule, value)] }

/-- Carries options without values out. -/
def Arguments.setFlags (a : Arguments) : List OptionMatch → Except Stop Arguments
  | [] => .ok a
  | m :: ms => do
    let a ← a.set m.rule ""
    a.setFlags ms

/-- Carries the options of a word out; the last one may have its value in the next word. The result
has how many more words were taken. -/
def Arguments.setWord (a : Arguments) (rules : List OptionRule) (m : OptionMatch)
    (rest : List (String × Word)) : Except Stop (Arguments × Nat) := do
  let (flags, last) ← optionsOf rules m
  match last.rule.kind, last.value, rest with
  | .value, some value, _ =>
    let a ← a.setFlags flags
    return (← a.set last.rule value, 0)
  | .value, none, (_, .plain value) :: _ =>
    let a ← a.setFlags flags
    return (← a.set last.rule value, 1)
  | .value, none, _ => throw .misuse
  | _, _, _ =>
    let a ← a.setFlags flags
    return (← a.set last.rule "", 0)

/-! ### Operands -/

/-- Whether a word is no option. -/
def Word.isOperand : Word → Bool
  | .option _ => false
  | _ => true

/-- Words without the first two dashes among them. -/
def withoutDashes (words : List String) : List String := words.erase "--"

/-- The operand among the first words, if there is one, and how many words it takes. -/
def oneOperand? : List (String × Word) → Option (List String × Nat)
  | (w, .plain _) :: (_, .dashes) :: _ => some ([w], 2)
  | (w, .plain _) :: _ => some ([w], 1)
  | (_, .dashes) :: (w, .plain _) :: _ => some ([w], 2)
  | _ => none

/-- The operands among the first words, and how many words they take. -/
def OperandRule.take? (rule : OperandRule) (words : List (String × Word)) :
    Option (List String × Nat) :=
  match rule with
  | .one => oneOperand? words
  | .any =>
    let run := words.takeWhile fun w => w.2.isOperand
    some (withoutDashes (run.map (·.1)), run.length)
  | .command => if words.isEmpty then none else some (words.map (·.1), words.length)

/-! ### All words -/

/-- Reads words one after the other. -/
def readWords (usage : Usage) (words : List (String × Word)) (a : Arguments) :
    Except Stop Arguments :=
  match words with
  | [] =>
    match a.operands, usage.operands with
    | none, .any => .ok { a with operands := some [] }
    | _, _ => .ok a
  | (_, .option none) :: rest => readWords usage rest { a with hasMore := true }
  | (_, .option (some m)) :: rest =>
    match a.setWord usage.options m rest with
    | .error stop => .error stop
    | .ok (a, taken) => readWords usage (rest.drop taken) a
  | w :: rest =>
    match a.operands.isSome, usage.operands.take? (w :: rest) with
    | false, some (operands, n + 1) =>
      readWords usage (rest.drop n) { a with operands := some operands }
    | _, _ => readWords usage rest { a with hasMore := true }
  termination_by words.length
  decreasing_by
    all_goals simp only [List.length_cons, List.length_drop]; omega

/-- Reads the words of a command line. -/
def Usage.read (usage : Usage) (words : List String) : Except Stop Arguments := do
  readWords usage (← wordsOf usage.options words) {}

/-! ### Settings -/

namespace Arguments

/-- All values of an option. -/
def values (a : Arguments) (name : String) : List String :=
  (a.settings.filter fun s => s.1.names.contains name).map (·.2)

/-- The value of an option; the last one counts. -/
def value? (a : Arguments) (name : String) : Option String := (a.values name).getLast?

/-- Whether an option is there. -/
def has (a : Arguments) (name : String) : Bool := !(a.values name).isEmpty

end Arguments

end Otui.CommandLine
