import Otui.Notice
import Otui.Style

/-!
# Inheritance of styles

The properties that apply to a style are those of its parent with its own on top. Parents are
followed until there is none, or none of the name, or one that is being followed already; that one
counts as empty, and a notice says so. What has been found for a style is kept and used again.

The second argument of `Sheet.follow` has the names that are not being followed. Each step to a
parent takes one of them, so following ends for any parents.
-/

namespace Otui.Sheet

/-- The properties found so far, by style. -/
abbrev Found := Ledger (Ledger String)

/-- The parent of a style, unless the name of it is empty. -/
def parent? (s : Style) : Option String := s.parent.filter (· != "")

/-- Adds what was found for a style with these properties of its parent. -/
def record (style : Style) (name : String) (inherited : Ledger String × Found) :
    Ledger String × Found :=
  let properties := inherited.1.overlay style.properties
  (properties, inherited.2.insert name properties)

/-- The properties that apply to a style, and what has been found on the way. -/
def follow (sheet : Sheet) (free : List String) (name : String) (found : Found) :
    Noted (Ledger String × Found) :=
  match found.get? name with
  | some properties => pure (properties, found)
  | none =>
    match sheet.get? name with
    | none => pure ({}, found)
    | some style =>
      if name ∈ free then
        match parent? style with
        | none => pure (record style name ({}, found))
        | some parent => do
          let inherited ← sheet.follow (free.erase name) parent found
          return record style name inherited
      else do
        Noted.say (.styleCycle name)
        return ({}, found)
  termination_by free.length
  decreasing_by
    rw [List.length_erase_of_mem ‹name ∈ free›]
    exact Nat.sub_lt (List.length_pos_of_mem ‹name ∈ free›) Nat.one_pos

/-- A style to which properties apply. -/
def flatten (style : Style) (properties : Ledger String) : Style :=
  { style with
    flattened := some ⟨properties, style.states.map fun own => properties.overlay own⟩ }

/-- Resolves the inheritance of styles one after the other. -/
def resolveAll (sheet : Sheet) : List (String × Style) → Found → Noted (List (String × Style))
  | [], _ => pure []
  | (name, style) :: rest, found => do
    let (properties, found) ← sheet.follow sheet.keys name found
    let rest ← sheet.resolveAll rest found
    return (name, flatten style properties) :: rest

/-- The sheet with the inheritance of all styles resolved. -/
def resolve (sheet : Sheet) : Noted Sheet := do
  let entries ← sheet.resolveAll sheet.entries {}
  return .ofList entries

end Otui.Sheet
