import Otui.Proofs.ScriptFunctions

/-!
# Scripts that end what they begin

The variables of a script come up in many places: each is declared, given a widget when the module
starts and emptied when it ends, and those of widgets with events are connected and disconnected,
with a handler for each event. The places are written one by one, from different parts of one table.
`isBalanced_text` says that they fit: read from its text alone, a script does to each variable what
it should, once and in the right order.
-/

namespace Otui

open Otui.Text Otui.Document

namespace Script

variable {α : Type} {registry : Registry} {name title fallback : String} {ws : List (Widget α)}

/-! ### Balance -/

/-- The variables of a script: that of the root, then those of the other widgets that are kept. -/
def keptVariables (registry : Registry) (fallback : String) (ws : List (Widget α)) : List String :=
  rootVariable fallback ws :: ((references registry ws).filter fun r => !r.isRoot).map Reference.var

theorem nodup_map_var_references (registry : Registry) (ws : List (Widget α)) :
    ((references registry ws).map Reference.var).Nodup := by
  obtain ⟨kept, hentries, -⟩ := exists_entries_referenceTable registry ws
  have hkeys := (referenceTable registry ws).nodup
  rw [hentries] at hkeys
  rw [← values_referenceTable, Ledger.values, hentries]
  simpa [Function.comp_def] using hkeys

theorem keptVariables_cons (registry : Registry) (fallback : String) (w : Widget α)
    (ws : List (Widget α)) :
    keptVariables registry fallback (w :: ws) = (references registry (w :: ws)).map Reference.var :=
  (filterMap_declared?_lines registry fallback "" "" (w :: ws)).symm.trans
    (filterMap_declared?_lines_cons registry fallback "" "" w ws)

/-- No two widgets are kept in one variable. -/
theorem nodup_keptVariables (registry : Registry) (fallback : String) (ws : List (Widget α)) :
    (keptVariables registry fallback ws).Nodup := by
  cases ws with
  | nil => exact List.nodup_singleton _
  | cons w ws =>
    rw [keptVariables_cons]
    exact nodup_map_var_references registry (w :: ws)

theorem var_mem_keptVariables (fallback : String) {r : Reference}
    (hr : r ∈ references registry ws) :
    r.var ∈ keptVariables registry fallback ws := by
  cases ws with
  | nil => cases hr
  | cons w ws =>
    rw [keptVariables_cons]
    exact List.mem_map_of_mem hr

/-- The lines of a text are those of the script. -/
theorem textLines_text (h : IsOnLines registry name title ws) :
    textLines (text registry (variableFor name) name title ws)
      = (lines registry (variableFor name) name title ws).map Line.text ++ [""] := by
  refine textLines_join ?_ (isSound_of_mem_lines h)
  rw [lines_eq]
  exact List.append_ne_nil_of_right_ne_nil _ (List.cons_ne_nil _ _)

/-- A line that binds an event to its handler, with a comma or without. -/
def Binds (v event line : String) : Prop :=
  line = "      " ++ event ++ " = " ++ v ++ "_" ++ event
    ∨ line = "      " ++ event ++ " = " ++ v ++ "_" ++ event ++ ","

/-- The header of the handler of an event. -/
def stub (v event signature : String) : String :=
  "local function " ++ v ++ "_" ++ event ++ "(" ++ join ", " (parameters signature) ++ ")"

theorem forall₂_bindLines (v : String) (events : List String) :
    List.Forall₂ (Binds v) events ((bindLines v events).map Line.text) := by
  fun_induction bindLines v events with
  | case1 => exact .nil
  | case2 event => exact .cons (.inl (String.append_empty)) .nil
  | case3 event events _ ih => exact .cons (.inr rfl) ih

/-- The references but that to the root. -/
def otherReferences (registry : Registry) (ws : List (Widget α)) : List Reference :=
  (references registry ws).filter fun r => !r.isRoot

/-- The references to widgets with events. -/
def eventReferences (registry : Registry) (ws : List (Widget α)) : List Reference :=
  (references registry ws).filter fun r => !r.events.isEmpty

/-- **Balance**: what the lines of a script do to variables. -/
structure IsBalanced (registry : Registry) (ws : List (Widget α)) (module root : String)
    (others : List (String × String)) (connected : List String) (ls : List String) : Prop where
  /-- The variables differ. -/
  nodup : (root :: others.map Prod.fst).Nodup
  /-- Variables are declared, the root first, and nothing else is done to them outside the functions
  that start and end the module. -/
  declared : deeds ls = (root :: others.map Prod.fst).map .declares ++ deeds (bodyOf "init" ls)
    ++ deeds (bodyOf "terminate" ls)
  /-- At the start the root is loaded, the other widgets are looked up below it, and then handlers
  are connected. -/
  started : deeds (bodyOf "init" ls) = .assigns root (loading module)
    :: others.map (fun other => .assigns other.1 (lookingUp root other.2))
      ++ connected.map .connects
  /-- What is connected is in variables. -/
  connected_subset : ∀ v ∈ connected, v ∈ root :: others.map Prod.fst
  /-- At the end what was connected is disconnected, the root is destroyed, and then all variables
  are emptied. -/
  ended : ∃ before after,
    bodyOf "terminate" ls = before ++ ("    " ++ root ++ ":destroy()") :: after
      ∧ deeds before = connected.map .disconnects
      ∧ deeds after = (root :: others.map Prod.fst).map fun v => .assigns v "nil"
  /-- A block connects the events of a widget with its variable, each to a handler whose header is
  above with the parameters of the signature. -/
  bound : ∀ block ∈ connectBlocks (bodyOf "init" ls), ∃ w ∈ Tree.forestNodes ws,
    block.1 = varOf w
      ∧ List.Forall₂ (fun event line => Binds block.1 event.1 line
          ∧ stub block.1 event.1 event.2 ∈ ls.takeWhile (· ≠ "function init()"))
        (eventsOf registry w.label).entries block.2

theorem text_destroy (v : String) :
    (Line.tell v "destroy").text = "    " ++ v ++ ":destroy()" := by
  have hend : ":destroy()" = ":" ++ ("destroy" ++ "()") := by decide
  change "    " ++ v ++ ":" ++ "destroy" ++ "()" = _
  rw [hend]
  simp only [String.append_assoc]

section Text

variable (h : IsOnLines registry name title ws)

include h

/-- The text of a script ends with the function that ends the module. -/
theorem textLines_eq_terminate :
    textLines (text registry (variableFor name) name title ws)
      = (beforeTerminate (rootVariable (variableFor name) ws) (rootType ws) name title
          (otherReferences registry ws) (eventReferences registry ws)).map Line.text
        ++ "function terminate()" :: ((terminateLines (rootVariable (variableFor name) ws)
            (otherReferences registry ws) (eventReferences registry ws)).map Line.text
          ++ "end" :: [""]) := by
  have hfixed : ∀ t, (Line.fixed t).text = t := fun _ => rfl
  rw [textLines_text h, lines_eq]
  simp only [otherReferences, eventReferences, List.map_append, List.map_cons, List.map_nil,
    List.append_assoc, List.cons_append, List.nil_append, hfixed]

/-- Before it stands the function that starts the module. -/
theorem textLines_eq_init :
    ∃ after, textLines (text registry (variableFor name) name title ws)
      = (beforeInit (rootVariable (variableFor name) ws) title (otherReferences registry ws)
          (eventReferences registry ws)).map Line.text
        ++ "function init()" :: ((initLines (rootVariable (variableFor name) ws) name title
            (otherReferences registry ws) (eventReferences registry ws)).map Line.text
          ++ "end" :: after) := by
  have hfixed : ∀ t, (Line.fixed t).text = t := fun _ => rfl
  rw [textLines_eq_terminate h, beforeTerminate]
  simp only [List.map_append, List.map_cons, List.append_assoc, List.cons_append, hfixed]
  exact ⟨_, rfl⟩

theorem bodyOf_init :
    bodyOf "init" (textLines (text registry (variableFor name) name title ws))
      = (initLines (rootVariable (variableFor name) ws) name title (otherReferences registry ws)
        (eventReferences registry ws)).map Line.text := by
  obtain ⟨after, hls⟩ := textLines_eq_init h
  rw [hls]
  exact bodyOf_append (text_not_mem (by decide) init_not_mem_beforeInit)
    (text_not_mem (by decide) end_not_mem_initLines) after

theorem bodyOf_terminate :
    bodyOf "terminate" (textLines (text registry (variableFor name) name title ws))
      = (terminateLines (rootVariable (variableFor name) ws) (otherReferences registry ws)
        (eventReferences registry ws)).map Line.text := by
  rw [textLines_eq_terminate h]
  exact bodyOf_append (text_not_mem (by decide) terminate_not_mem_beforeTerminate)
    (text_not_mem (by decide) end_not_mem_terminateLines) [""]

/-- The root is destroyed between disconnecting and emptying. -/
theorem bodyOf_terminate_eq :
    bodyOf "terminate" (textLines (text registry (variableFor name) name title ws))
      = (disconnectLines (rootVariable (variableFor name) ws)
          (eventReferences registry ws)).map Line.text
        ++ ("    " ++ rootVariable (variableFor name) ws ++ ":destroy()")
          :: (clearLines (rootVariable (variableFor name) ws)
            (otherReferences registry ws)).map Line.text := by
  rw [bodyOf_terminate h, terminateLines, List.map_append, List.map_cons, text_destroy]

theorem takeWhile_init :
    (textLines (text registry (variableFor name) name title ws)).takeWhile (· ≠ "function init()")
      = (beforeInit (rootVariable (variableFor name) ws) title (otherReferences registry ws)
        (eventReferences registry ws)).map Line.text := by
  have hbefore : ∀ l ∈ (beforeInit (rootVariable (variableFor name) ws) title
      (otherReferences registry ws) (eventReferences registry ws)).map Line.text,
      l ≠ "function init()" := by
    rintro l hl rfl
    exact text_not_mem (by decide) init_not_mem_beforeInit hl
  obtain ⟨after, hls⟩ := textLines_eq_init h
  rw [hls, List.takeWhile_append_of_pos (by simpa using hbefore),
    List.takeWhile_cons_of_neg (by simp), List.append_nil]

/-- What comes up in the functions of a script can come up. -/
theorem isSound_of_mem_functions :
    (∀ l ∈ initLines (rootVariable (variableFor name) ws) name title (otherReferences registry ws)
        (eventReferences registry ws), l.IsSound)
      ∧ ∀ l ∈ terminateLines (rootVariable (variableFor name) ws) (otherReferences registry ws)
        (eventReferences registry ws), l.IsSound := by
  have hlines := isSound_of_mem_lines h
  rw [lines_eq] at hlines
  simp only [beforeTerminate, List.forall_mem_append, List.forall_mem_cons] at hlines
  obtain ⟨⟨-, -, hinit, -⟩, -, hterminate, -⟩ := hlines
  exact ⟨hinit, hterminate⟩

theorem deeds_init :
    deeds (bodyOf "init" (textLines (text registry (variableFor name) name title ws)))
      = .assigns (rootVariable (variableFor name) ws) (loading name)
        :: (otherReferences registry ws).map (fun r =>
          .assigns r.var (lookingUp (rootVariable (variableFor name) ws) r.id))
        ++ (eventReferences registry ws).map fun r => .connects r.var := by
  rw [bodyOf_init h, deeds_text (isSound_of_mem_functions h).1, filterMap_deed?_initLines]

/-- A script declares its variables, and does all else to them in its two functions. -/
theorem deeds_textLines :
    deeds (textLines (text registry (variableFor name) name title ws))
      = (keptVariables registry (variableFor name) ws).map .declares
        ++ deeds (bodyOf "init" (textLines (text registry (variableFor name) name title ws)))
        ++ deeds (bodyOf "terminate"
          (textLines (text registry (variableFor name) name title ws))) := by
  have hfixed : ∀ t, (Line.fixed t).deed? = none := fun _ => rfl
  have hblank : deeds [""] = [] := by decide
  obtain ⟨hinit, hterminate⟩ := isSound_of_mem_functions h
  rw [bodyOf_terminate h, bodyOf_init h, deeds_text hinit, deeds_text hterminate, textLines_text h,
    deeds_append, hblank, List.append_nil, deeds_text (isSound_of_mem_lines h), lines_eq]
  simp only [beforeTerminate, otherReferences, eventReferences, keptVariables,
    List.filterMap_append, List.filterMap_cons, hfixed, filterMap_deed?_beforeInit,
    filterMap_deed?_betweenFunctions, List.filterMap_nil, List.append_nil]

/-- The handlers of a widget with events have their headers before the functions. -/
theorem stub_mem {r : Reference} (hr : r ∈ eventReferences registry ws) {event : String × String}
    (hevent : event ∈ r.events.entries) :
    stub r.var event.1 event.2
      ∈ (textLines (text registry (variableFor name) name title ws)).takeWhile
        (· ≠ "function init()") := by
  have hne : (eventReferences registry ws).isEmpty = false := by
    rw [List.isEmpty_eq_false_iff]
    exact List.ne_nil_of_mem hr
  have hhandler : Line.handler r.var event.1 (parameters event.2)
      ∈ allHandlerLines (eventReferences registry ws) := by
    rw [allHandlerLines, hne]
    exact List.mem_cons_of_mem _ (List.mem_flatMap.2 ⟨r, hr,
      List.mem_flatMap.2 ⟨event, hevent, List.mem_cons_self⟩⟩)
  rw [takeWhile_init h]
  exact List.mem_map.2 ⟨_, List.mem_append_left _ (List.mem_append_right _ hhandler), rfl⟩

theorem exists_of_mem_connectBlocks {block : String × List String}
    (hblock : block ∈ connectBlocks
      (bodyOf "init" (textLines (text registry (variableFor name) name title ws)))) :
    ∃ w ∈ Tree.forestNodes ws, block.1 = varOf w
      ∧ List.Forall₂ (fun event line => Binds block.1 event.1 line
          ∧ stub block.1 event.1 event.2 ∈ (textLines (text registry (variableFor name) name title
            ws)).takeWhile (· ≠ "function init()"))
        (eventsOf registry w.label).entries block.2 := by
  have hrefs : ∀ r ∈ eventReferences registry ws, r.IsSound :=
    fun r hr => isSound_of_mem_references h (List.mem_of_mem_filter hr)
  rw [bodyOf_init h, connectBlocks_initLines (isSound_of_mem_functions h).1 hrefs] at hblock
  obtain ⟨r, hr, rfl⟩ := List.mem_map.1 hblock
  obtain ⟨w, hw, hself⟩ := exists_of_mem_references (List.mem_of_mem_filter hr)
  have hevents : r.events = eventsOf registry w.label := by rw [hself]; rfl
  have hbinds := List.forall₂_map_left_iff.1 (forall₂_bindLines r.var r.events.keys)
  refine ⟨w, hw, by rw [hself]; rfl, ?_⟩
  rw [← hevents]
  exact List.forall₂_iff_zip.2 ⟨hbinds.length_eq, fun hpair =>
    ⟨(List.forall₂_iff_zip.1 hbinds).2 hpair, stub_mem h hr (List.of_mem_zip hpair).1⟩⟩

end Text

theorem map_fst_otherReferences :
    rootVariable fallback ws
        :: ((otherReferences registry ws).map fun r => (r.var, r.id)).map Prod.fst
      = keptVariables registry fallback ws := by
  rw [List.map_map]
  rfl

/-- **Balanced scripts**: what is kept in variables is declared, loaded or looked up once, connected
and disconnected in the same order, and emptied at the end. -/
theorem isBalanced_text (h : IsOnLines registry name title ws) :
    IsBalanced registry ws name (rootVariable (variableFor name) ws)
      ((otherReferences registry ws).map fun r => (r.var, r.id))
      ((eventReferences registry ws).map Reference.var)
      (textLines (text registry (variableFor name) name title ws)) where
  nodup := by
    rw [map_fst_otherReferences]
    exact nodup_keptVariables registry (variableFor name) ws
  declared := by
    rw [map_fst_otherReferences]
    exact deeds_textLines h
  started := by
    rw [deeds_init h, List.map_map, List.map_map]
    rfl
  connected_subset := by
    rw [map_fst_otherReferences]
    exact List.forall_mem_map.2 fun r hr =>
      var_mem_keptVariables (variableFor name) (List.mem_of_mem_filter hr)
  ended := by
    have hterminate := (isSound_of_mem_functions h).2
    rw [terminateLines, List.forall_mem_append, List.forall_mem_cons] at hterminate
    obtain ⟨hdisconnect, -, hclear⟩ := hterminate
    refine ⟨_, _, bodyOf_terminate_eq h, ?_, ?_⟩
    · rw [deeds_text hdisconnect, filterMap_deed?_disconnectLines, List.map_map]
      rfl
    · rw [deeds_text hclear, filterMap_deed?_clearLines, map_fst_otherReferences]
      rfl
  bound := fun block => exists_of_mem_connectBlocks h

/-- Nothing in the script of the panel with two buttons goes over more than one line. -/
theorem isOnLines_twoButtons : IsOnLines Registry.packaged "m" "M" twoButtons where
  ids := by decide +kernel
  types := by decide +kernel
  events := by decide +kernel
  name := by decide
  title := by decide

/-- The buttons of the panel have one variable, and the first is looked up and connected. -/
theorem isBalanced_twoButtons :
    IsOnLines Registry.packaged "m" "M" twoButtons
      ∧ IsBalanced Registry.packaged twoButtons "m" "p" [("a_b", "a-b")] ["a_b"]
        (textLines (text Registry.packaged (variableFor "m") "m" "M" twoButtons)) := by
  have hroot : rootVariable (variableFor "m") twoButtons = "p" := by decide +kernel
  have hothers : (otherReferences Registry.packaged twoButtons).map (fun r => (r.var, r.id))
      = [("a_b", "a-b")] := by decide +kernel
  have hevents : (eventReferences Registry.packaged twoButtons).map Reference.var = ["a_b"] := by
    decide +kernel
  have hbalanced := isBalanced_text isOnLines_twoButtons
  rw [hroot, hothers, hevents] at hbalanced
  exact ⟨isOnLines_twoButtons, hbalanced⟩

end Script

end Otui
