import Otui.Fault
import Otui.Registry
import Otui.Widget

/-!
# The script of a module

A module is started by a Lua script. It loads the first root widget, keeps every widget with events
in a variable of its own, has an empty handler for each event, connects the handlers when the module
starts and disconnects them when it ends. `Script.lines` is the script line by line, each line with
its meaning; `Script.text` is the text of it.
-/

namespace Otui

/-! ### Names -/

/-- Whether a character can stand in the name of a variable. -/
def isVariableChar (c : Char) : Bool := c.isAlphanum || c == '_'

/-- The name of the variable for an id: other characters become underscores, and a digit does not
come first. -/
def variableFor (id : String) : String :=
  if id == "" then "widget"
  else
    let cs := id.toList.map fun c => if isVariableChar c then c else '_'
    String.ofList (if (cs.head?.map Char.isDigit).getD false then '_' :: cs else cs)

/-- The names of the parameters in a signature: what stands between commas in its parentheses. -/
def parameters (signature : String) : List String :=
  let inner := (signature.toList.dropWhile (· != '(')).drop 1
  if inner.contains ')' then
    ((Text.cutChars ',' (inner.takeWhile (· != ')'))).map
      fun cs => String.ofList (Text.trimChars cs)).filter (· != "")
  else []

namespace Script

/-! ### Widgets in variables -/

/-- A widget that the script keeps in a variable. -/
structure Reference where
  /-- The variable. -/
  var : String
  /-- The id that the widget is looked up by. -/
  id : String
  /-- The type of the widget. -/
  type : String
  /-- The events with the signatures of their handlers. -/
  events : Ledger String
  /-- Whether it is the first root widget. -/
  isRoot : Bool
  deriving DecidableEq

/-- The events of a type, unless its definition was made up. -/
def eventsOfType? (registry : Registry) (type : String) : Option (Ledger String) :=
  if type == "" then none
  else (registry.get? type).bind fun d => if d.madeUp then none else some d.events

variable {α : Type}

/-- The events of a widget: those of its template, of its type or of its base, whichever is the
first to be known. -/
def eventsOf (registry : Registry) (e : Element α) : Ledger String :=
  let names := [textOrEmpty (e.template.map (·.name)), e.type, textOrEmpty e.base]
  (names.findSome? (eventsOfType? registry)).getD {}

/-- The reference to a widget. -/
def referenceTo (registry : Registry) (isRoot : Bool) (e : Element α) : Reference :=
  let id := textOrEmpty e.id
  let var := variableFor id
  { var
    id := if id != "" then id else var
    type := e.type
    events := eventsOf registry e
    isRoot }

/-- The references to the widgets with events, and to the first of them all. -/
def candidates (registry : Registry) : List (Widget α) → List Reference
  | [] => []
  | root :: rest =>
    referenceTo registry true root.label ::
      ((rest.map fun w => referenceTo registry false w.label).filter fun r => !r.events.isEmpty)

/-- The references, each variable with the first widget that is kept in it. -/
def references (registry : Registry) (widgets : List (Widget α)) : List Reference :=
  ((candidates registry (Tree.forestNodes widgets)).foldl
    (fun (refs : Ledger Reference) r => refs.insertNew r.var r) {}).values

/-! ### Lines -/

/-- A line of a script, by its meaning. -/
inductive Line where
  /-- A line that is the same in all scripts. -/
  | fixed (text : String)
  /-- The title of the module as a comment. -/
  | titleNote (title : String)
  /-- Declares a variable. -/
  | declare (var : String)
  /-- Starts the handler of an event. -/
  | handler (var event : String) (parameters : List String)
  /-- Says what a handler is for. -/
  | handlerNote (event type id : String)
  /-- Loads the first root widget into a variable. -/
  | load (var module : String)
  /-- Tests whether a variable is empty. -/
  | ifEmpty (var : String)
  /-- Reports that the root widget was not loaded. -/
  | loadFailure (title module : String)
  /-- Looks a widget up below the root and keeps it in a variable. -/
  | lookUp (var root id : String)
  /-- Reports that a widget was not found. -/
  | lookUpFailure (title id : String)
  /-- Tests whether a variable holds a widget. -/
  | ifThere (var : String)
  /-- Starts to connect handlers to a widget. -/
  | connect (var : String)
  /-- Connects an event to its handler. -/
  | bind (event var : String) (isLast : Bool)
  /-- Disconnects all handlers from a widget. -/
  | disconnect (var : String)
  /-- Tells a widget to do something. -/
  | tell (var action : String)
  /-- Tests whether a widget can be seen. -/
  | ifVisible (var : String)
  /-- Empties a variable. -/
  | clear (var : String)
  deriving DecidableEq

/-- The text of a line. -/
def Line.text : Line → String
  | .fixed text => text
  | .titleNote title => "-- Module: " ++ title
  | .declare v => "local " ++ v ++ " = nil"
  | .handler v event parameters =>
    "local function " ++ v ++ "_" ++ event ++ "(" ++ Text.join ", " parameters ++ ")"
  | .handlerNote event type id => "  -- Handle " ++ event ++ " for " ++ type ++ " '" ++ id ++ "'"
  | .load v module => "  " ++ v ++ " = g_ui.loadUI('" ++ module ++ "', rootWidget)"
  | .ifEmpty v => "  if not " ++ v ++ " then"
  | .loadFailure title module =>
    "    g_logger.error(\"" ++ title ++ ": Failed to load UI from '" ++ module ++ ".otui'\")"
  | .lookUp v root id => "  " ++ v ++ " = " ++ root ++ ":recursiveGetChildById('" ++ id ++ "')"
  | .lookUpFailure title id =>
    "    g_logger.warning(\"" ++ title ++ ": Widget '" ++ id ++ "' not found in UI\")"
  | .ifThere v => "  if " ++ v ++ " then"
  | .connect v => "    connect(" ++ v ++ ", \x7b"
  | .bind event v isLast =>
    "      " ++ event ++ " = " ++ v ++ "_" ++ event ++ (if isLast then "" else ",")
  | .disconnect v => "    disconnect(" ++ v ++ ")"
  | .tell v action => "    " ++ v ++ ":" ++ action ++ "()"
  | .ifVisible v => "    if " ++ v ++ ":isVisible() then"
  | .clear v => "  " ++ v ++ " = nil"

/-! ### Parts -/

/-- The head: a comment and the variables. -/
def headLines (root title : String) (others : List Reference) : List Line :=
  [.fixed "-- Generated by otuigen", .fixed "-- OTClient module", .titleNote title, .fixed "",
    .declare root] ++ others.map (fun r => .declare r.var) ++ [.fixed ""]

/-- The handlers of a widget. -/
def handlerLines (r : Reference) : List Line :=
  r.events.entries.flatMap fun (event, signature) =>
    [.handler r.var event (parameters signature), .handlerNote event r.type r.id,
      .fixed "end", .fixed ""]

/-- All handlers. -/
def allHandlerLines (withEvents : List Reference) : List Line :=
  if withEvents.isEmpty then []
  else .fixed "-- Event handlers" :: withEvents.flatMap handlerLines

/-- Loads the root widget. -/
def loadLines (root module title : String) : List Line :=
  [.fixed "-- Initialize module", .fixed "function init()", .load root module, .ifEmpty root,
    .loadFailure title module, .fixed "    return false", .fixed "  end", .fixed ""]

/-- Looks the other widgets up. -/
def lookUpLines (root title : String) (others : List Reference) : List Line :=
  if others.isEmpty then []
  else
    .fixed "  -- Widget references" ::
      (others.flatMap fun r =>
        [.lookUp r.var root r.id, .ifEmpty r.var, .lookUpFailure title r.id,
          .fixed "  end"]) ++ [.fixed ""]

/-- The lines that connect events to handlers; all but the last have a comma. -/
def bindLines (var : String) : List String → List Line
  | [] => []
  | [event] => [.bind event var true]
  | event :: events => .bind event var false :: bindLines var events

/-- Connects the handlers of a widget. -/
def connectLines (r : Reference) : List Line :=
  [.ifThere r.var, .connect r.var] ++ bindLines r.var r.events.keys
    ++ [.fixed "    \x7d)", .fixed "  end"]

/-- Connects all handlers. -/
def allConnectLines (withEvents : List Reference) : List Line :=
  if withEvents.isEmpty then []
  else
    .fixed "  -- Connect event handlers" :: withEvents.flatMap connectLines ++ [.fixed ""]

/-- What the root widget of a type does when it is shown. -/
def showActions (rootType : String) : List String :=
  if rootType == "UIWindow" then ["show", "raise", "focus"] else ["show"]

/-- Shows the root widget, hides it, and does one or the other. -/
def visibilityLines (root rootType : String) : List Line :=
  [.fixed "-- Show the root widget", .fixed "function show()", .ifThere root]
    ++ (showActions rootType).map (fun action => .tell root action)
    ++ [.fixed "  end", .fixed "end", .fixed "",
      .fixed "-- Hide the root widget", .fixed "function hide()", .ifThere root,
      .tell root "hide", .fixed "  end", .fixed "end", .fixed "",
      .fixed "-- Toggle root widget visibility", .fixed "function toggle()", .ifThere root,
      .ifVisible root, .fixed "      hide()", .fixed "    else", .fixed "      show()",
      .fixed "    end", .fixed "  end", .fixed "end", .fixed ""]

/-- Ends the module: disconnects, destroys the root widget and empties the variables. -/
def endLines (root : String) (others withEvents : List Reference) : List Line :=
  [.fixed "-- Cleanup module", .fixed "function terminate()"]
    ++ (withEvents.flatMap fun r =>
      [.ifThere r.var, .disconnect r.var, .fixed "  end"])
    ++ [.ifThere root, .tell root "destroy", .fixed "  end", .clear root]
    ++ others.map (fun r => .clear r.var) ++ [.fixed "end"]

/-! ### Scripts -/

/-- The variable of the root widget; a module without widgets has one that goes by its name. -/
def rootVariable (fallback : String) : List (Widget α) → String
  | [] => fallback
  | w :: _ => variableFor (textOrEmpty w.label.id)

/-- The variable for a module without widgets. A name that is no text has no characters to make one
from, unless it counts as nothing. -/
def fallbackVariable (widgets : List (Widget α)) (name : Data) : Except Fault String :=
  match name with
  | .text s => .ok (variableFor s)
  | d => if widgets.isEmpty && d.truthy then .error (.noCharacters d.kind) else .ok (variableFor "")

/-- The type of the root widget. -/
def rootType : List (Widget α) → String
  | [] => ""
  | w :: _ => w.label.type

/-- The lines of the script of a module. -/
def lines (registry : Registry) (fallback name title : String) (widgets : List (Widget α)) :
    List Line :=
  let root := rootVariable fallback widgets
  let refs := references registry widgets
  let others := refs.filter fun r => !r.isRoot
  let withEvents := refs.filter fun r => !r.events.isEmpty
  headLines root title others ++ allHandlerLines withEvents ++ loadLines root name title
    ++ lookUpLines root title others ++ allConnectLines withEvents
    ++ [.fixed "  return true", .fixed "end", .fixed ""]
    ++ visibilityLines root (rootType widgets) ++ endLines root others withEvents

/-- The script of a module. -/
def text (registry : Registry) (fallback name title : String) (widgets : List (Widget α)) :
    String :=
  Text.join "\n" ((lines registry fallback name title widgets).map Line.text) ++ "\n"

end Script

end Otui
