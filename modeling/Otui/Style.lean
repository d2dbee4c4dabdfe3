import Otui.Data
import Otui.Ledger

/-!
# Styles

A style is a named set of properties, with more properties for named states. It may have a parent,
from which it takes over what it does not say itself. A style as read only has what it says; once
inheritance is resolved it has, as its `Flattened` form, all that applies to it.
-/

namespace Otui

/-- What applies to a style once inheritance is resolved. -/
structure Flattened where
  /-- The properties. -/
  properties : Ledger String
  /-- The properties in each state. -/
  states : Ledger (Ledger String)
  deriving DecidableEq

/-- A style. -/
structure Style where
  /-- The name. -/
  name : String
  /-- The name of the style to inherit from. -/
  parent : Option String := none
  /-- The properties that the style says. -/
  properties : Ledger String := {}
  /-- The properties that the style says for states. -/
  states : Ledger (Ledger String) := {}
  /-- What applies to the style, once inheritance is resolved. -/
  flattened : Option Flattened := none
  deriving DecidableEq

instance : Inhabited Style := ⟨{ name := "" }⟩

/-- Styles by their names. -/
abbrev Sheet := Ledger Style

namespace Style

/-- The properties that are in force: those that apply, or those that the style says as long as
inheritance is not resolved. -/
def inForce (s : Style) : Ledger String :=
  match s.flattened with
  | some f => f.properties
  | none => s.properties

/-- The states that are in force. -/
def statesInForce (s : Style) : Ledger (Ledger String) :=
  match s.flattened with
  | some f => f.states
  | none => s.states

/-- The properties of a state once inheritance is resolved. -/
def overlay? (s : Style) (state : String) : Option (Ledger String) :=
  s.flattened.bind fun f => f.states.get? state

/-- A property, in a state if the style has that state once inheritance is resolved. -/
def property? (s : Style) (key : String) (state : Option String) : Option String :=
  match state.bind s.overlay? with
  | some properties => properties.get? key
  | none => s.inForce.get? key

/-- A style as data; what does not apply is left out. -/
def toData (s : Style) : Data :=
  let texts : Ledger String → Data := .ofLedger .text
  let parent := match s.parent with
    | some p => if p == "" then [] else [("parent", Data.text p)]
    | none => []
  let states := if s.statesInForce.isEmpty then []
    else [("states", Data.ofLedger texts s.statesInForce)]
  .record ([("name", .text s.name)] ++ parent ++ [("properties", texts s.inForce)] ++ states)

end Style

end Otui
