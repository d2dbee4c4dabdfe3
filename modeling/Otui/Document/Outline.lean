import Otui.Document.Line

/-!
# The outline of a document

Indentation alone decides what belongs to what. The body of an opening is the run of content lines
after it that have a greater level; the run ends at the first line that has not, whatever that line
says. Inside a body the same rule makes bodies again, so the lines of a document form an outline:
`outline`.
-/

namespace Otui.Document

/-- A part of a document. -/
inductive Outline where
  /-- An opening with its body. -/
  | block (name : String) (base : Option String) (number : Nat) (body : List Outline)
  /-- A property line of the opening around it. -/
  | property (key value raw : String) (number : Nat)

/-- Whether a line lies deeper than a level. -/
def Line.isBelow (level : Nat) (l : Line) : Bool := level < l.level

/-- The outline of content lines. -/
def outline : List Line → List Outline
  | [] => []
  | l :: rest =>
    match l.content with
    | .opening name base =>
      .block name base l.number (outline (rest.takeWhile (Line.isBelow l.level)))
        :: outline (rest.dropWhile (Line.isBelow l.level))
    | .property key value raw => .property key value raw l.number :: outline rest
    | .other => outline rest
  termination_by ls => ls.length
  decreasing_by
    all_goals simp only [List.length_cons]
    · exact Nat.lt_succ_of_le (List.takeWhile_sublist _).length_le
    · exact Nat.lt_succ_of_le (List.dropWhile_sublist _).length_le
    · exact Nat.lt_succ_self _
    · exact Nat.lt_succ_self _

/-- The property lines that belong to an opening with a body. -/
def ownProperties (body : List Outline) : List (String × String × String × Nat) :=
  body.filterMap fun
    | .property key value raw number => some (key, value, raw, number)
    | .block .. => none

@[simp] theorem outline_nil : outline [] = [] := by simp [outline]

end Otui.Document
