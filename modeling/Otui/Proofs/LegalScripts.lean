import Otui.Proofs.LuaLiterals
import Otui.Proofs.WiredWidgets

/-!
# Scripts that Lua can read

A script puts ids in two places: a variable is made from the id, and the id stands between quotes
where the widget is looked up. Any id makes a variable of the right form (`isName_variableFor`),
which may still be a word that Lua keeps for itself or a function of the module; and the id is said
by the quotes only when it has nothing that Lua reads in another way. `legal_iff_and_denotes_iff`
says exactly for which ids the two places are right.
-/

namespace Otui

namespace Lua

/-- The words that are no names. -/
def reserved : List String :=
  ["and", "break", "do", "else", "elseif", "end", "false", "for", "function", "goto", "if", "in",
    "local", "nil", "not", "or", "repeat", "return", "then", "true", "until", "while"]

end Lua

namespace Script

/-- The functions of a module. -/
def functions : List String := ["init", "terminate", "show", "hide", "toggle"]

/-- A variable that a script can have: letters, digits and underscores without a digit in front, no
reserved word and no function of the module. -/
structure IsLegal (v : String) : Prop where
  /-- It has the form of a name. -/
  isName : IsName v
  /-- It is not reserved. -/
  not_reserved : v ∉ Lua.reserved
  /-- The module has no function of the name. -/
  not_function : v ∉ functions

/-! ### Variables for ids -/

/-- The characters of an id with an underscore for each that cannot stand in a name. -/
def variableChars (id : String) : List Char :=
  id.toList.map fun c => if isVariableChar c then c else '_'

theorem toList_variableFor {id : String} (hid : id ≠ "") :
    (variableFor id).toList
      = if ((variableChars id).head?.map Char.isDigit).getD false then '_' :: variableChars id
        else variableChars id := by
  rw [variableFor, if_neg (by simpa using hid), String.toList_ofList]
  rfl

theorem isVariableChar_of_mem {id : String} {c : Char} (hc : c ∈ variableChars id) :
    isVariableChar c = true := by
  obtain ⟨d, -, rfl⟩ := List.mem_map.1 hc
  split
  · assumption
  · decide

/-- Every id makes a variable of the form of a name. -/
theorem isName_variableFor (id : String) : IsName (variableFor id) := by
  by_cases hid : id = ""
  · subst hid
    exact ⟨by decide, List.all_eq_true.1 (by decide), by decide⟩
  · have hlist := toList_variableFor hid
    have hne : variableChars id ≠ [] := by
      rw [variableChars, ne_eq, List.map_eq_nil_iff, String.toList_eq_nil_iff]
      exact hid
    have hchars : ∀ c ∈ variableChars id, isVariableChar c = true := fun _ => isVariableChar_of_mem
    refine ⟨fun hempty => ?_, ?_, ?_⟩
    · rw [hempty] at hlist
      split at hlist
      · cases hlist
      · exact hne hlist.symm
    · rw [hlist]
      split
      · exact List.forall_mem_cons.2 ⟨by decide, hchars⟩
      · exact hchars
    · rw [hlist]
      split
      · rfl
      · next hdigit => exact eq_false_of_ne_true hdigit

/-- A name without an underscore is only made from itself, or from nothing. -/
theorem eq_of_variableFor_eq {id v : String} (h : variableFor id = v) (hid : id ≠ "")
    (hv : '_' ∉ v.toList) : id = v := by
  have hlist := toList_variableFor hid
  rw [h] at hlist
  split at hlist
  · exact absurd (hlist ▸ List.mem_cons_self) hv
  · have hself : variableChars id = id.toList := by
      conv_rhs => rw [← List.map_id id.toList]
      refine List.map_congr_left fun c hc => if_pos ?_
      by_contra hnot
      have hmem : '_' ∈ variableChars id := List.mem_map.2 ⟨c, hc, if_neg hnot⟩
      exact hv (hlist ▸ hmem)
    rw [← String.toList_inj, hlist, hself]

/-- The words that no variable may be. -/
def taken : List String := Lua.reserved ++ functions

theorem not_mem_toList_of_mem_taken : ∀ v ∈ taken, '_' ∉ v.toList := by decide +kernel

theorem variableFor_of_mem_taken : ∀ v ∈ taken, variableFor v = v := by decide +kernel

/-- A word that no variable may be is made only from itself. -/
theorem variableFor_mem_taken_iff (id : String) : variableFor id ∈ taken ↔ id ∈ taken := by
  constructor
  · intro h
    by_cases hid : id = ""
    · subst hid
      exact absurd h (by decide)
    · rwa [← eq_of_variableFor_eq rfl hid (not_mem_toList_of_mem_taken _ h)] at h
  · intro h
    rwa [variableFor_of_mem_taken id h]

/-- The variable for an id is right exactly when the id is none of the words. -/
theorem isLegal_variableFor_iff (id : String) : IsLegal (variableFor id) ↔ id ∉ taken := by
  rw [← variableFor_mem_taken_iff, taken, List.mem_append, not_or]
  exact ⟨fun h => ⟨h.not_reserved, h.not_function⟩, fun h => ⟨isName_variableFor id, h.1, h.2⟩⟩

/-! ### Ids between quotes -/

/-- What stands behind the opening parenthesis where a widget is looked up by an id. -/
def lookUpArgument (id : String) : List Char := '\'' :: id.toList ++ ['\'', ')']

theorem text_lookUp (v root id : String) :
    (Line.lookUp v root id).text
      = "  " ++ v ++ " = " ++ root ++ ":recursiveGetChildById("
        ++ String.ofList (lookUpArgument id) := by
  have hopening : ":recursiveGetChildById('" = ":recursiveGetChildById(" ++ "'" := by decide
  have hargument : String.ofList (lookUpArgument id) = "'" ++ id ++ "')" := by
    apply String.toList_injective
    simp only [String.toList_ofList, String.toList_append, lookUpArgument]
    rfl
  calc (Line.lookUp v root id).text
    _ = "  " ++ v ++ " = " ++ root ++ ":recursiveGetChildById('" ++ id ++ "')" := rfl
    _ = _ := by simp only [hopening, hargument, String.append_assoc]

/-- The quotes say the id that stands between them exactly when it is plain. -/
theorem denotes_lookUpArgument_iff (id : String) :
    Lua.Denotes (lookUpArgument id) id ↔ ∀ c ∈ id.toList, Lua.isPlain c = true := by
  have hrest : '\'' ∉ [')'] := by decide
  exact Lua.denotes_iff id hrest

/-- No quotes with a plain text between them say the empty text, unless that is the text. -/
theorem not_denotes_empty {s : String} (hs : s ≠ "") (h : ∀ c ∈ s.toList, Lua.isPlain c = true) :
    ¬ Lua.Denotes (lookUpArgument s) "" := by
  rintro ⟨bytes, rest, hread, hbytes⟩
  rw [Lua.toByteArray_eq_toUTF8_iff] at hbytes
  have hself : Lua.quoted? (lookUpArgument s) = some (Lua.bytesOf s.toList, [')']) :=
    Lua.inside?_append h [')']
  rw [hread, hbytes] at hself
  have hlength := Lua.length_le_length_bytesOf s.toList
  rw [← (Prod.mk.inj (Option.some.inj hself)).1] at hlength
  exact hs (String.toList_eq_nil_iff.1 (List.eq_nil_of_length_eq_zero (Nat.le_zero.1 hlength)))

/-! ### Scripts -/

variable {α : Type}

theorem exists_of_mem_references {registry : Registry} {ws : List (Widget α)} {r : Reference}
    (hr : r ∈ references registry ws) :
    ∃ w ∈ Tree.forestNodes ws, r = referenceTo registry r.isRoot w.label := by
  have hcandidate := mem_candidates_of_mem_references hr
  rw [candidates_eq_map] at hcandidate
  obtain ⟨p, hp, rfl⟩ := List.mem_map.1 hcandidate
  exact ⟨p.2, mem_of_mem_scripted hp, rfl⟩

/-- The quotes say the id of a widget exactly when it has one that is plain. -/
theorem denotes_referenceTo_iff (registry : Registry) (isRoot : Bool) (e : Element α) :
    Lua.Denotes (lookUpArgument (referenceTo registry isRoot e).id) (textOrEmpty e.id)
      ↔ textOrEmpty e.id ≠ "" ∧ ∀ c ∈ (textOrEmpty e.id).toList, Lua.isPlain c = true := by
  by_cases hid : textOrEmpty e.id = ""
  · have hwidget : (referenceTo registry isRoot e).id = "widget" := by
      simp [referenceTo, hid, variableFor]
    rw [hwidget, hid]
    have hplain : ∀ c ∈ "widget".toList, Lua.isPlain c = true := List.all_eq_true.1 (by decide)
    exact ⟨fun h => absurd h (not_denotes_empty (by decide) hplain), fun h => absurd rfl h.1⟩
  · have hself : (referenceTo registry isRoot e).id = textOrEmpty e.id := by
      simp [referenceTo, hid]
    rw [hself, denotes_lookUpArgument_iff]
    exact (and_iff_right hid).symm

/-- **Scripts that Lua can read.** A script with widgets declares the variables of its references
and gives each of them a widget; the references are to widgets of the document. Each variable has
the form of a name, and is right exactly when the id of the widget is neither a reserved word nor a
function of the module. Where the widget is looked up the quotes say its id exactly when it has one
without quotes, backslashes and line breaks. -/
theorem legal_iff_and_denotes_iff (registry : Registry) (fallback name title : String)
    (root : Widget α) (rest : List (Widget α)) :
    (lines registry fallback name title (root :: rest)).filterMap Line.declared?
        = (references registry (root :: rest)).map Reference.var
      ∧ (lines registry fallback name title (root :: rest)).filterMap Line.given?
        = (references registry (root :: rest)).map Reference.given
      ∧ (∀ v parent id : String, (Line.lookUp v parent id).text
        = "  " ++ v ++ " = " ++ parent ++ ":recursiveGetChildById("
          ++ String.ofList (lookUpArgument id))
      ∧ ∀ r ∈ references registry (root :: rest),
        (∃ w ∈ Tree.forestNodes (root :: rest), r = referenceTo registry r.isRoot w.label)
        ∧ ∀ w : Widget α, r = referenceTo registry r.isRoot w.label →
          IsName r.var
          ∧ (IsLegal r.var
            ↔ textOrEmpty w.label.id ∉ Lua.reserved ∧ textOrEmpty w.label.id ∉ functions)
          ∧ (Lua.Denotes (lookUpArgument r.id) (textOrEmpty w.label.id)
            ↔ textOrEmpty w.label.id ≠ "" ∧ ∀ c ∈ (textOrEmpty w.label.id).toList,
              c ≠ '\'' ∧ c ≠ '\\' ∧ c ≠ '\n' ∧ c ≠ '\r') := by
  refine ⟨filterMap_declared?_lines_cons registry fallback name title root rest,
    filterMap_given?_lines_cons registry fallback name title root rest, text_lookUp,
    fun r hr => ⟨exists_of_mem_references hr, fun w hw => ?_⟩⟩
  have hvar : r.var = variableFor (textOrEmpty w.label.id) := by rw [hw]; rfl
  refine ⟨hvar ▸ isName_variableFor _, ?_, ?_⟩
  · rw [hvar, isLegal_variableFor_iff, taken, List.mem_append, not_or]
  · have hplain : ∀ c : Char, Lua.isPlain c = true ↔ c ≠ '\'' ∧ c ≠ '\\' ∧ c ≠ '\n' ∧ c ≠ '\r' := by
      simp [Lua.isPlain, Lua.isBreak, and_assoc]
    have hdenotes := denotes_referenceTo_iff registry r.isRoot w.label
    rw [← hw] at hdenotes
    simpa only [hplain] using hdenotes

/-- The widgets of a panel whose id is a reserved word, with a button whose id has a quote. -/
def oddWidgets : List (Widget ℚ) :=
  (Document.parsed "Panel\n  id: end\n  Button\n    id: it's\n").widgets

theorem ids_oddWidgets :
    (Tree.forestNodes oddWidgets).map (fun w => textOrEmpty w.label.id) = ["end", "it's"] := by
  decide +kernel

theorem ids_references_oddWidgets :
    (references Registry.packaged oddWidgets).map Reference.id = ["end", "it's"] := by
  decide +kernel

/-- What the script says of the button. -/
theorem legal_iff_and_denotes_iff_oddWidgets :
    ∃ r ∈ references Registry.packaged oddWidgets, ∃ w ∈ Tree.forestNodes oddWidgets,
      r = referenceTo Registry.packaged r.isRoot w.label ∧ r.id = "it's"
      ∧ (IsLegal r.var
        ↔ textOrEmpty w.label.id ∉ Lua.reserved ∧ textOrEmpty w.label.id ∉ functions)
      ∧ (Lua.Denotes (lookUpArgument r.id) (textOrEmpty w.label.id)
        ↔ textOrEmpty w.label.id ≠ ""
          ∧ ∀ c ∈ (textOrEmpty w.label.id).toList, c ≠ '\'' ∧ c ≠ '\\' ∧ c ≠ '\n' ∧ c ≠ '\r') := by
  obtain ⟨root, rest, hws⟩ : ∃ root rest, oddWidgets = root :: rest :=
    List.exists_cons_of_ne_nil fun hnil => by
      have hids := ids_oddWidgets
      rw [hnil] at hids
      cases hids
  have hmem : "it's" ∈ (references Registry.packaged oddWidgets).map Reference.id := by
    rw [ids_references_oddWidgets]
    decide
  obtain ⟨r, hr, hid⟩ := List.mem_map.1 hmem
  obtain ⟨-, -, -, hall⟩ := legal_iff_and_denotes_iff Registry.packaged "m" "m" "M" root rest
  rw [← hws] at hall
  obtain ⟨⟨w, hw, hrw⟩, hiff⟩ := hall r hr
  exact ⟨r, hr, w, hw, hrw, hid, (hiff w hrw).2⟩

/-- The root widget is kept in a variable that is no name, and the button is not looked up by its
id. -/
theorem not_legal_oddWidgets :
    (Tree.forestNodes oddWidgets).map (fun w => textOrEmpty w.label.id) = ["end", "it's"]
      ∧ Line.declare "end" ∈ lines Registry.packaged "m" "m" "M" oddWidgets
      ∧ ¬ IsLegal "end"
      ∧ Line.lookUp "it_s" "end" "it's" ∈ lines Registry.packaged "m" "m" "M" oddWidgets
      ∧ ¬ Lua.Denotes (lookUpArgument "it's") "it's" := by
  refine ⟨ids_oddWidgets, by decide +kernel, fun h => h.not_reserved (by decide),
    by decide +kernel, fun h => ?_⟩
  have hplain := (denotes_lookUpArgument_iff "it's").1 h
  exact absurd (hplain '\'' (by decide)) (by decide)

end Script

end Otui
