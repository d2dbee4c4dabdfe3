import Otui.Text.Lines

/-!
# The manifest of a module

A manifest tells a client what a module is called, who made it, and which script starts it.
-/

namespace Otui

/-- What a manifest says. -/
structure Manifest where
  /-- The name of the module, which is the name of its script as well. -/
  name : String
  /-- The description. -/
  description : String
  /-- The author, if it is to be said. -/
  author : Option String := none
  /-- The website, if it is to be said. -/
  website : Option String := none
  /-- Whether the module runs apart from others. -/
  sandboxed : Bool := true
  /-- Whether the module is loaded at the start. -/
  autoload : Bool := true
  deriving DecidableEq

namespace Manifest

/-- The word for a truth value. -/
def flag (b : Bool) : String := if b then "true" else "false"

/-- The lines of a manifest. -/
def lines (m : Manifest) : List String :=
  ["Module", "  name: " ++ m.name, "  description: " ++ m.description]
    ++ (m.author.map fun s => "  author: " ++ s).toList
    ++ (m.website.map fun s => "  website: " ++ s).toList
    ++ ["  sandboxed: " ++ flag m.sandboxed, "  autoload: " ++ flag m.autoload, "  scripts:",
      "    - " ++ m.name ++ ".lua", "  @onLoad: init()", "  @onUnload: terminate()"]

/-- The text of a manifest. -/
def text (m : Manifest) : String := Text.join "\n" m.lines ++ "\n"

end Manifest

end Otui
