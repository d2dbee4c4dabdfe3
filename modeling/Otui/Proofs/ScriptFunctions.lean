import Otui.Proofs.ScriptTexts

/-!
# The functions of scripts

A script has two functions that matter for its variables: one starts the module, and one ends it.
When nothing that the script says goes over more than one line (`IsOnLines`), all its lines can come
up (`isSound_of_mem_lines`), so that its text can be cut into lines again. A function is found in
the text as what stands between its header and the next `end` at the margin (`bodyOf_append`). Here
is what the lines of each part do to variables, and which blocks connect handlers.
-/

namespace Otui

open Otui.Text Otui.Document

namespace Script

variable {α : Type} {registry : Registry} {name title : String} {ws : List (Widget α)}

/-! ### Scripts on lines -/

/-- Nothing that a script says of its widgets, their events and the module goes over more than one
line. -/
structure IsOnLines (registry : Registry) (name title : String) (ws : List (Widget α)) : Prop where
  /-- The ids. -/
  ids : ∀ w ∈ Tree.forestNodes ws, OnOneLine (textOrEmpty w.label.id)
  /-- The types. -/
  types : ∀ w ∈ Tree.forestNodes ws, OnOneLine w.label.type
  /-- The events that the registry knows, and the signatures of their handlers. -/
  events : ∀ d ∈ registry.definitions.values, ∀ e ∈ d.events.entries,
    OnOneLine e.1 ∧ OnOneLine e.2
  /-- The name of the module. -/
  name : OnOneLine name
  /-- The title of the module. -/
  title : OnOneLine title

/-- A reference of which nothing goes over more than one line. -/
structure Reference.IsSound (r : Reference) : Prop where
  /-- The variable is a name. -/
  var : IsName r.var
  /-- The id is on one line. -/
  id : OnOneLine r.id
  /-- The type is on one line. -/
  type : OnOneLine r.type
  /-- The events and the signatures are on one line. -/
  events : ∀ e ∈ r.events.entries, OnOneLine e.1 ∧ OnOneLine e.2

theorem onOneLine_eventsOf (h : IsOnLines registry name title ws) (e : Element α) :
    ∀ event ∈ (eventsOf registry e).entries, OnOneLine event.1 ∧ OnOneLine event.2 := by
  intro event hevent
  unfold eventsOf at hevent
  dsimp only at hevent
  cases hfind : List.findSome? (eventsOfType? registry) _ with
  | none => rw [hfind] at hevent; cases hevent
  | some events =>
    rw [hfind] at hevent
    obtain ⟨type, -, htype⟩ := List.exists_of_findSome?_eq_some hfind
    rw [eventsOfType?] at htype
    split at htype
    · cases htype
    · obtain ⟨d, hd, hevents⟩ := Option.bind_eq_some_iff.1 htype
      split at hevents
      · cases hevents
      · obtain rfl := Option.some.inj hevents
        exact h.events d (List.mem_map_of_mem (Ledger.mem_of_get? hd)) event hevent

theorem isSound_of_mem_references (h : IsOnLines registry name title ws) {r : Reference}
    (hr : r ∈ references registry ws) : r.IsSound := by
  obtain ⟨w, hw, hself⟩ := exists_of_mem_references hr
  have hid := h.ids w hw
  rw [hself]
  refine ⟨isName_variableFor _, ?_, h.types w hw, onOneLine_eventsOf h w.label⟩
  rw [referenceTo]
  dsimp only
  split
  · exact hid
  · exact (isName_variableFor _).onOneLine

theorem isName_rootVariable (name : String) (ws : List (Widget α)) :
    IsName (rootVariable (variableFor name) ws) := by
  cases ws <;> exact isName_variableFor _

theorem isSound_of_mem_bindLines {v : String} (hv : IsName v) {events : List String}
    (h : ∀ event ∈ events, OnOneLine event) : ∀ l ∈ bindLines v events, l.IsSound := by
  fun_induction bindLines v events with
  | case1 => simp
  | case2 event => exact List.forall_mem_singleton.2 ⟨h event (by simp), hv⟩
  | case3 event events _ ih =>
    obtain ⟨hevent, hevents⟩ := List.forall_mem_cons.1 h
    exact List.forall_mem_cons.2 ⟨⟨hevent, hv⟩, ih hevents⟩

theorem isSound_fixed {t : String} (h : t ∈ fixedTexts) : (Line.fixed t).IsSound := h

section Parts

variable {root rootType : String} {others withEvents : List Reference}

theorem isSound_of_mem_headLines (hroot : IsName root) (htitle : OnOneLine title)
    (h : ∀ r ∈ others, r.IsSound) : ∀ l ∈ headLines root title others, l.IsSound := by
  have hvars : ∀ l ∈ others.map fun r => Line.declare r.var, l.IsSound :=
    List.forall_mem_map.2 fun r hr => (h r hr).var
  have hblank : ∀ l ∈ [Line.fixed ""], l.IsSound :=
    List.forall_mem_singleton.2 (isSound_fixed (by decide))
  refine List.forall_mem_append.2 ⟨List.forall_mem_append.2 ⟨?_, hvars⟩, hblank⟩
  simp only [List.forall_mem_cons]
  exact ⟨isSound_fixed (by decide), isSound_fixed (by decide), htitle, isSound_fixed (by decide),
    hroot, by simp⟩

theorem isSound_of_mem_allHandlerLines (h : ∀ r ∈ withEvents, r.IsSound) :
    ∀ l ∈ allHandlerLines withEvents, l.IsSound := by
  rw [allHandlerLines]
  split
  · simp
  · refine List.forall_mem_cons.2 ⟨isSound_fixed (by decide),
      List.forall_mem_flatMap.2 fun r hr => ?_⟩
    refine List.forall_mem_flatMap.2 fun e he => ?_
    obtain ⟨hevent, hsignature⟩ := (h r hr).events e he
    have hparameters : ∀ p ∈ parameters e.2, OnOneLine p :=
      fun p => onOneLine_of_mem_parameters hsignature
    simp only [List.forall_mem_cons]
    exact ⟨⟨(h r hr).var, hevent, hparameters⟩, ⟨hevent, (h r hr).type, (h r hr).id⟩,
      isSound_fixed (by decide), isSound_fixed (by decide), by simp⟩

theorem isSound_of_mem_loadLines (hroot : IsName root) (hname : OnOneLine name)
    (htitle : OnOneLine title) : ∀ l ∈ loadLines root name title, l.IsSound := by
  simp only [loadLines, List.forall_mem_cons]
  exact ⟨isSound_fixed (by decide), isSound_fixed (by decide), ⟨hroot, hname⟩, hroot,
    ⟨htitle, hname⟩, isSound_fixed (by decide), isSound_fixed (by decide),
    isSound_fixed (by decide), by simp⟩

theorem isSound_of_mem_lookUpLines (hroot : IsName root) (htitle : OnOneLine title)
    (h : ∀ r ∈ others, r.IsSound) : ∀ l ∈ lookUpLines root title others, l.IsSound := by
  rw [lookUpLines]
  split
  · simp
  · refine List.forall_mem_append.2 ⟨List.forall_mem_cons.2 ⟨isSound_fixed (by decide),
      List.forall_mem_flatMap.2 fun r hr => ?_⟩,
      List.forall_mem_singleton.2 (isSound_fixed (by decide))⟩
    have hr := h r hr
    simp only [List.forall_mem_cons]
    exact ⟨⟨hr.var, hroot, hr.id⟩, hr.var, ⟨htitle, hr.id⟩, isSound_fixed (by decide), by simp⟩

theorem isSound_of_mem_allConnectLines (h : ∀ r ∈ withEvents, r.IsSound) :
    ∀ l ∈ allConnectLines withEvents, l.IsSound := by
  rw [allConnectLines]
  split
  · simp
  · refine List.forall_mem_append.2 ⟨List.forall_mem_cons.2 ⟨isSound_fixed (by decide),
      List.forall_mem_flatMap.2 fun r hr => ?_⟩,
      List.forall_mem_singleton.2 (isSound_fixed (by decide))⟩
    have hr := h r hr
    have hevents : ∀ event ∈ r.events.keys, OnOneLine event :=
      List.forall_mem_map.2 fun e he => (hr.events e he).1
    refine List.forall_mem_append.2 ⟨List.forall_mem_append.2 ⟨?_,
      isSound_of_mem_bindLines hr.var hevents⟩, ?_⟩
    · simp only [List.forall_mem_cons]
      exact ⟨hr.var, hr.var, by simp⟩
    · simp only [List.forall_mem_cons]
      exact ⟨isSound_fixed (by decide), isSound_fixed (by decide), by simp⟩

theorem isSound_of_mem_visibilityLines (hroot : IsName root) :
    ∀ l ∈ visibilityLines root rootType, l.IsSound := by
  have hactions : ∀ action ∈ showActions rootType, OnOneLine action := by
    rw [showActions]
    split <;> decide
  refine List.forall_mem_append.2 ⟨List.forall_mem_append.2 ⟨?_, List.forall_mem_map.2
    fun action haction => ⟨hroot, hactions action haction⟩⟩, ?_⟩
  · simp only [List.forall_mem_cons]
    exact ⟨isSound_fixed (by decide), isSound_fixed (by decide), hroot, by simp⟩
  · have hhide : (Line.tell root "hide").IsSound := ⟨hroot, by decide⟩
    have hfixed : ∀ t ∈ fixedTexts, (Line.fixed t).IsSound := fun t => isSound_fixed
    simp only [List.forall_mem_cons]
    exact ⟨hfixed _ (by decide), hfixed _ (by decide), hfixed _ (by decide), hfixed _ (by decide),
      hfixed _ (by decide), hroot, hhide, hfixed _ (by decide), hfixed _ (by decide),
      hfixed _ (by decide), hfixed _ (by decide), hfixed _ (by decide), hroot, hroot,
      hfixed _ (by decide), hfixed _ (by decide), hfixed _ (by decide), hfixed _ (by decide),
      hfixed _ (by decide), hfixed _ (by decide), hfixed _ (by decide), by simp⟩

theorem isSound_of_mem_endLines (hroot : IsName root) (hothers : ∀ r ∈ others, r.IsSound)
    (h : ∀ r ∈ withEvents, r.IsSound) : ∀ l ∈ endLines root others withEvents, l.IsSound := by
  have hclear : ∀ l ∈ others.map fun r => Line.clear r.var, l.IsSound :=
    List.forall_mem_map.2 fun r hr => (hothers r hr).var
  have hdisconnect : ∀ l ∈ withEvents.flatMap fun r =>
      [Line.ifThere r.var, .disconnect r.var, .fixed "  end"], l.IsSound := by
    refine List.forall_mem_flatMap.2 fun r hr => ?_
    simp only [List.forall_mem_cons]
    exact ⟨(h r hr).var, (h r hr).var, isSound_fixed (by decide), by simp⟩
  have hdestroy : (Line.tell root "destroy").IsSound := ⟨hroot, by decide⟩
  simp only [endLines, List.forall_mem_append, List.forall_mem_cons]
  exact ⟨⟨⟨⟨⟨isSound_fixed (by decide), isSound_fixed (by decide), by simp⟩, hdisconnect⟩,
    hroot, hdestroy, isSound_fixed (by decide), hroot, by simp⟩, hclear⟩, isSound_fixed (by decide),
    by simp⟩

end Parts

/-- All lines of a script on lines can come up. -/
theorem isSound_of_mem_lines (h : IsOnLines registry name title ws) :
    ∀ l ∈ lines registry (variableFor name) name title ws, l.IsSound := by
  have hrefs : ∀ r ∈ references registry ws, r.IsSound := fun r => isSound_of_mem_references h
  have hothers : ∀ r ∈ (references registry ws).filter fun r => !r.isRoot, r.IsSound :=
    fun r hr => hrefs r (List.mem_of_mem_filter hr)
  have hevents : ∀ r ∈ (references registry ws).filter fun r => !r.events.isEmpty, r.IsSound :=
    fun r hr => hrefs r (List.mem_of_mem_filter hr)
  have hroot := isName_rootVariable name ws
  simp only [lines, List.forall_mem_append]
  refine ⟨⟨⟨⟨⟨⟨⟨isSound_of_mem_headLines hroot h.title hothers,
    isSound_of_mem_allHandlerLines hevents⟩, isSound_of_mem_loadLines hroot h.name h.title⟩,
    isSound_of_mem_lookUpLines hroot h.title hothers⟩, isSound_of_mem_allConnectLines hevents⟩, ?_⟩,
    isSound_of_mem_visibilityLines hroot⟩, isSound_of_mem_endLines hroot hothers hevents⟩
  simp only [List.forall_mem_cons]
  exact ⟨isSound_fixed (by decide), isSound_fixed (by decide), isSound_fixed (by decide), by simp⟩

/-! ### The functions of a script -/

/-- The lines of a function of a script: those between its header and the next `end` at the
margin. -/
def bodyOf (function : String) (ls : List String) : List String :=
  ((ls.dropWhile (· ≠ "function " ++ function ++ "()")).drop 1).takeWhile (· ≠ "end")

/-- What stands before the function that starts a module. -/
def beforeInit (root title : String) (others withEvents : List Reference) : List Line :=
  headLines root title others ++ allHandlerLines withEvents ++ [.fixed "-- Initialize module"]

/-- What the function that starts a module does. -/
def initLines (root module title : String) (others withEvents : List Reference) : List Line :=
  [.load root module, .ifEmpty root, .loadFailure title module, .fixed "    return false",
    .fixed "  end", .fixed ""] ++ lookUpLines root title others ++ allConnectLines withEvents
    ++ [.fixed "  return true"]

/-- What stands between the function that starts a module and the one that ends it. -/
def betweenFunctions (root rootType : String) : List Line :=
  .fixed "" :: visibilityLines root rootType ++ [.fixed "-- Cleanup module"]

/-- What the function that ends a module does up to destroying the root widget. -/
def disconnectLines (root : String) (withEvents : List Reference) : List Line :=
  (withEvents.flatMap fun r => [.ifThere r.var, .disconnect r.var, .fixed "  end"])
    ++ [.ifThere root]

/-- What the function that ends a module does after destroying the root widget. -/
def clearLines (root : String) (others : List Reference) : List Line :=
  [.fixed "  end", .clear root] ++ others.map fun r => .clear r.var

/-- What the function that ends a module does. -/
def terminateLines (root : String) (others withEvents : List Reference) : List Line :=
  disconnectLines root withEvents ++ .tell root "destroy" :: clearLines root others

/-- What stands before the function that ends a module. -/
def beforeTerminate (root rootType module title : String) (others withEvents : List Reference) :
    List Line :=
  beforeInit root title others withEvents ++ .fixed "function init()" ::
    (initLines root module title others withEvents
      ++ .fixed "end" :: betweenFunctions root rootType)

/-- A script ends with one of its two functions; the other stands before. -/
theorem lines_eq (registry : Registry) (fallback name title : String) (ws : List (Widget α)) :
    lines registry fallback name title ws
      = let root := rootVariable fallback ws
        let others := (references registry ws).filter fun r => !r.isRoot
        let withEvents := (references registry ws).filter fun r => !r.events.isEmpty
        beforeTerminate root (rootType ws) name title others withEvents
          ++ .fixed "function terminate()" ::
            (terminateLines root others withEvents ++ [.fixed "end"]) := by
  simp [lines, beforeTerminate, beforeInit, initLines, betweenFunctions, terminateLines,
    disconnectLines, clearLines, loadLines, endLines]

/-! ### The texts of the functions -/

theorem getElem?_append {s : String} {i : ℕ} {c : Char} (h : s.toList[i]? = some c) (t : String) :
    (s ++ t).toList[i]? = some c := by
  rw [String.toList_append, List.getElem?_append_left (List.getElem?_eq_some_iff.1 h).1, h]

/-- Lines that are not the same in all scripts begin as no function begins and none ends. -/
theorem getElem?_text (l : Line) :
    (∃ text, l = .fixed text) ∨ ∃ c ∈ ['-', 'l', ' '], l.text.toList[0]? = some c := by
  cases l with
  | fixed text => exact .inl ⟨text, rfl⟩
  | titleNote title => exact .inr ⟨'-', by decide, getElem?_append (by decide) _⟩
  | declare v =>
    exact .inr ⟨'l', by decide, getElem?_append (getElem?_append (by decide) _) _⟩
  | handler v event parameters =>
    refine .inr ⟨'l', by decide, getElem?_append (getElem?_append (getElem?_append ?_ _) _) _⟩
    exact getElem?_append (getElem?_append (getElem?_append (by decide) _) _) _
  | handlerNote event type id =>
    refine .inr ⟨' ', by decide, getElem?_append (getElem?_append (getElem?_append ?_ _) _) _⟩
    exact getElem?_append (getElem?_append (getElem?_append (by decide) _) _) _
  | load v module | loadFailure title module | lookUpFailure title id | tell v action =>
    refine .inr ⟨' ', by decide, getElem?_append (getElem?_append ?_ _) _⟩
    exact getElem?_append (getElem?_append (by decide) _) _
  | lookUp v root id | bind event v isLast =>
    refine .inr ⟨' ', by decide, getElem?_append (getElem?_append (getElem?_append ?_ _) _) _⟩
    exact getElem?_append (getElem?_append (getElem?_append (by decide) _) _) _
  | ifEmpty v | ifThere v | connect v | disconnect v | ifVisible v | clear v =>
    exact .inr ⟨' ', by decide, getElem?_append (getElem?_append (by decide) _) _⟩

/-- The texts that the functions of a script are found by. -/
def marks : List String := ["function init()", "function terminate()", "end"]

theorem text_not_mem {t : String} (ht : t ∈ marks) {ls : List Line} (h : .fixed t ∉ ls) :
    t ∉ ls.map Line.text := by
  intro hmem
  obtain ⟨l, hl, rfl⟩ := List.mem_map.1 hmem
  obtain ⟨text, rfl⟩ | ⟨c, hc, hhead⟩ := getElem?_text l
  · exact h hl
  · have hmarks : ∀ t ∈ marks, t.toList[0]? ∉ ['-', 'l', ' '].map some := by decide
    exact hmarks _ ht (hhead ▸ List.mem_map_of_mem hc)

/-- A function goes from the first of its headers to the next end. -/
theorem bodyOf_append {function : String} {before body : List String}
    (hbefore : "function " ++ function ++ "()" ∉ before) (hbody : "end" ∉ body)
    (after : List String) :
    bodyOf function (before ++ ("function " ++ function ++ "()") :: (body ++ "end" :: after))
      = body := by
  have hb : ∀ l ∈ before, (l ≠ "function " ++ function ++ "()") := by
    rintro l hl rfl
    exact hbefore hl
  have he : ∀ l ∈ body, l ≠ "end" := by
    rintro l hl rfl
    exact hbody hl
  rw [bodyOf, List.dropWhile_append_of_pos (by simpa using hb),
    List.dropWhile_cons_of_neg (by simp), List.drop_one, List.tail_cons,
    List.takeWhile_append_of_pos (by simpa using he), List.takeWhile_cons_of_neg (by simp),
    List.append_nil]

theorem fixed_not_mem_bindLines (t v : String) (events : List String) :
    .fixed t ∉ bindLines v events := by
  fun_induction bindLines v events with
  | case1 => simp
  | case2 => simp
  | case3 _ _ _ ih => simpa using ih

section Functions

variable {root rootType : String} {others withEvents : List Reference}

theorem init_not_mem_beforeInit :
    .fixed "function init()" ∉ beforeInit root title others withEvents := by
  simp [beforeInit, headLines, allHandlerLines, handlerLines]

theorem end_not_mem_initLines : .fixed "end" ∉ initLines root name title others withEvents := by
  simp [initLines, lookUpLines, allConnectLines, connectLines, fixed_not_mem_bindLines]

theorem terminate_not_mem_beforeTerminate :
    .fixed "function terminate()" ∉ beforeTerminate root rootType name title others withEvents := by
  simp [beforeTerminate, beforeInit, headLines, allHandlerLines, handlerLines, initLines,
    lookUpLines, allConnectLines, connectLines, fixed_not_mem_bindLines, betweenFunctions,
    visibilityLines]

theorem end_not_mem_terminateLines : .fixed "end" ∉ terminateLines root others withEvents := by
  simp [terminateLines, disconnectLines, clearLines]

/-! ### What the functions do -/

/-- What lines of text do, one after the other. -/
def deeds (ls : List String) : List Deed := ls.filterMap deed?

theorem deeds_append (ls ms : List String) : deeds (ls ++ ms) = deeds ls ++ deeds ms :=
  List.filterMap_append

theorem deeds_text {ls : List Line} (h : ∀ l ∈ ls, l.IsSound) :
    deeds (ls.map Line.text) = ls.filterMap Line.deed? := by
  rw [deeds, List.filterMap_map]
  exact List.filterMap_congr fun l hl => deed?_text (h l hl)

theorem filterMap_deed?_beforeInit :
    (beforeInit root title others withEvents).filterMap Line.deed?
      = (root :: others.map Reference.var).map .declares := by
  cases withEvents <;>
  simp [beforeInit, headLines, allHandlerLines, handlerLines, List.filterMap_cons,
    List.filterMap_flatMap, List.map_eq_flatMap, flatMap_nil, List.flatMap_assoc, Line.deed?]

theorem filterMap_deed?_initLines :
    (initLines root name title others withEvents).filterMap Line.deed?
      = .assigns root (loading name) :: others.map (fun r => .assigns r.var (lookingUp root r.id))
        ++ withEvents.map fun r => .connects r.var := by
  have hbinds : ∀ r : Reference, (bindLines r.var r.events.keys).filterMap Line.deed? = [] :=
    fun r => filterMap_bindLines_eq_nil (fun _ _ _ => rfl) r.var r.events.keys
  cases others <;> cases withEvents <;>
  simp [initLines, lookUpLines, allConnectLines, connectLines, hbinds, List.filterMap_cons,
    List.filterMap_flatMap, List.map_eq_flatMap, Line.deed?]

theorem filterMap_deed?_betweenFunctions :
    (betweenFunctions root rootType).filterMap Line.deed? = [] := by
  simp [betweenFunctions, visibilityLines, List.filterMap_cons, Line.deed?]

theorem filterMap_deed?_disconnectLines : (disconnectLines root withEvents).filterMap Line.deed?
    = withEvents.map fun r => .disconnects r.var := by
  simp [disconnectLines, List.filterMap_cons, List.filterMap_flatMap, List.map_eq_flatMap,
    Line.deed?]

theorem filterMap_deed?_clearLines : (clearLines root others).filterMap Line.deed?
    = (root :: others.map Reference.var).map fun v => .assigns v "nil" := by
  simp [clearLines, List.filterMap_cons, Function.comp_def, Line.deed?]

/-! ### Blocks that connect -/

/-- The blocks that connect handlers, each with the variable of the widget. -/
def connectBlocks : List String → List (String × List String)
  | [] => []
  | l :: ls =>
    match deed? l with
    | some (.connects v) => (v, ls.takeWhile (· ≠ "    \x7d)")) :: connectBlocks ls
    | _ => connectBlocks ls

theorem connectBlocks_append {ls : List Line} (h : ∀ l ∈ ls, l.IsSound)
    (hnone : ls.filterMap Line.connected? = []) (ms : List String) :
    connectBlocks (ls.map Line.text ++ ms) = connectBlocks ms := by
  induction ls with
  | nil => rfl
  | cons l ls ih =>
    obtain ⟨hl, hls⟩ := List.forall_mem_cons.1 (List.filterMap_eq_nil_iff.1 hnone)
    obtain ⟨hsound, hsounds⟩ := List.forall_mem_cons.1 h
    have hdeed : ∀ v, deed? l.text ≠ some (.connects v) := by
      rw [deed?_text hsound]
      rintro v hv
      cases l <;> cases hv
      cases hl
    rw [List.map_cons, List.cons_append, connectBlocks]
    split
    · next v hv => exact absurd hv (hdeed v)
    · exact ih hsounds (List.filterMap_eq_nil_iff.2 hls)

/-- No line that binds a handler ends the block. -/
theorem close_not_mem_bindLines {r : Reference} :
    ∀ t ∈ (bindLines r.var r.events.keys).map Line.text, t ≠ "    \x7d)" := by
  rintro t ht rfl
  obtain ⟨l, hl, htext⟩ := List.mem_map.1 ht
  have hbound := isSome_bound?_of_mem_bindLines r.var r.events.keys l hl
  cases l with
  | bind event v isLast =>
    have hfifth : (Line.bind event v isLast).text.toList[4]? = some ' ' := by
      refine getElem?_append (getElem?_append (getElem?_append ?_ _) _) _
      exact getElem?_append (getElem?_append (getElem?_append (by decide) _) _) _
    rw [htext] at hfifth
    cases hfifth
  | _ => cases hbound

theorem connectBlocks_connectLines_append {r : Reference} (hr : r.IsSound) (ms : List String) :
    connectBlocks ((connectLines r).map Line.text ++ ms)
      = (r.var, (bindLines r.var r.events.keys).map Line.text) :: connectBlocks ms := by
  have hevents : ∀ event ∈ r.events.keys, OnOneLine event :=
    List.forall_mem_map.2 fun e he => (hr.events e he).1
  have hbinds := isSound_of_mem_bindLines hr.var hevents
  have hnone : (bindLines r.var r.events.keys ++ [Line.fixed "    \x7d)", .fixed "  end"]).filterMap
      Line.connected? = [] := by
    rw [List.filterMap_append, filterMap_bindLines_eq_nil fun _ _ _ => rfl]
    rfl
  have hclose : ∀ l ∈ bindLines r.var r.events.keys ++ [Line.fixed "    \x7d)", .fixed "  end"],
      l.IsSound := by
    simp only [List.forall_mem_append, List.forall_mem_cons]
    exact ⟨hbinds, isSound_fixed (by decide), isSound_fixed (by decide), by simp⟩
  have hend : (([Line.fixed "    \x7d)", .fixed "  end"].map Line.text) ++ ms).takeWhile
      (· ≠ "    \x7d)") = [] :=
    List.takeWhile_cons_of_neg fun h => of_decide_eq_true h rfl
  have hthere : ∀ l ∈ [Line.ifThere r.var], l.IsSound := List.forall_mem_singleton.2 hr.var
  calc connectBlocks ((connectLines r).map Line.text ++ ms)
    _ = connectBlocks ([Line.ifThere r.var].map Line.text ++ ((Line.connect r.var).text ::
          ((bindLines r.var r.events.keys ++ [Line.fixed "    \x7d)", .fixed "  end"]).map Line.text
            ++ ms))) := by
      simp [connectLines]
    _ = _ := by
      rw [connectBlocks_append hthere rfl, connectBlocks,
        deed?_text (show (Line.connect r.var).IsSound from hr.var), Line.deed?]
      dsimp only
      rw [connectBlocks_append hclose hnone, List.map_append, List.append_assoc,
        List.takeWhile_append_of_pos (by simpa using close_not_mem_bindLines), hend,
        List.append_nil]

theorem connectBlocks_flatMap_append {rs : List Reference} (h : ∀ r ∈ rs, r.IsSound)
    (ms : List String) : connectBlocks ((rs.flatMap connectLines).map Line.text ++ ms)
      = rs.map (fun r => (r.var, (bindLines r.var r.events.keys).map Line.text))
        ++ connectBlocks ms := by
  induction rs with
  | nil => rfl
  | cons r rs ih =>
    obtain ⟨hr, hrs⟩ := List.forall_mem_cons.1 h
    rw [List.flatMap_cons, List.map_append, List.append_assoc, connectBlocks_connectLines_append hr,
      ih hrs]
    rfl

theorem connectBlocks_allConnectLines_append {rs : List Reference} (h : ∀ r ∈ rs, r.IsSound)
    (ms : List String) : connectBlocks ((allConnectLines rs).map Line.text ++ ms)
      = rs.map (fun r => (r.var, (bindLines r.var r.events.keys).map Line.text))
        ++ connectBlocks ms := by
  have hnote : ∀ l ∈ [Line.fixed "  -- Connect event handlers"], l.IsSound :=
    List.forall_mem_singleton.2 (isSound_fixed (by decide))
  have hblank : ∀ l ∈ [Line.fixed ""], l.IsSound :=
    List.forall_mem_singleton.2 (isSound_fixed (by decide))
  rw [allConnectLines]
  split
  · next hrs =>
    rw [List.isEmpty_iff.1 hrs]
    rfl
  · calc _
      _ = connectBlocks ([Line.fixed "  -- Connect event handlers"].map Line.text
            ++ ((rs.flatMap connectLines).map Line.text
              ++ ([Line.fixed ""].map Line.text ++ ms))) := by
        simp only [List.cons_append, List.map_cons, List.map_append, List.append_assoc,
          List.map_nil, List.nil_append]
      _ = _ := by
        rw [connectBlocks_append hnote rfl, connectBlocks_flatMap_append h,
          connectBlocks_append hblank rfl]

/-- A module connects the handlers of each widget with events in a block of its own. -/
theorem connectBlocks_initLines
    (hsound : ∀ l ∈ initLines root name title others withEvents, l.IsSound)
    (h : ∀ r ∈ withEvents, r.IsSound) :
    connectBlocks ((initLines root name title others withEvents).map Line.text)
      = withEvents.map fun r => (r.var, (bindLines r.var r.events.keys).map Line.text) := by
  rw [initLines] at hsound ⊢
  simp only [List.forall_mem_append] at hsound
  obtain ⟨⟨⟨hload, hlookUp⟩, -⟩, hreturn⟩ := hsound
  have hbefore : (lookUpLines root title others).filterMap Line.connected? = [] := by
    cases others <;>
    simp [lookUpLines, List.filterMap_cons, List.filterMap_flatMap, flatMap_nil, Line.connected?]
  rw [List.map_append, List.map_append, List.map_append, List.append_assoc, List.append_assoc,
    connectBlocks_append hload rfl, connectBlocks_append hlookUp hbefore,
    connectBlocks_allConnectLines_append h, ← List.append_nil (List.map _ [_]),
    connectBlocks_append hreturn rfl, connectBlocks, List.append_nil]

end Functions

end Script

end Otui
