import Otui.Module.Script
import Otui.Proofs.Recording

/-!
# What a script says

A script keeps widgets in variables, and most of its parts have some lines for each of these. Here is
which widgets are kept, `filter_references`: of the widgets with one variable the first. A view of a
script keeps what one kind of line says, and for each view there is what it keeps of a whole script:
the variables that are declared, what they are given and the handlers that are connected.
-/

namespace Otui

namespace Ledger

variable {ν : Type}

/-- A write that leaves what is there is seen where nothing was. -/
theorem get?_insertNew (m : Ledger ν) (key : String) (value : ν) (k : String) :
    (m.insertNew key value).get? k = (m.get? k).or (if key = k then some value else none) := by
  rw [insertNew]
  split
  · next h =>
    by_cases hk : key = k
    · subst hk
      rw [contains_iff, ← isSome_get?_iff] at h
      exact (Option.or_of_isSome h).symm
    · rw [if_neg hk, Option.or_none]
  · next h =>
    rw [get?_insert]
    by_cases hk : key = k
    · subst hk
      rw [contains_iff] at h
      rw [get?_of_not_mem h, Option.none_or]
    · rw [if_neg hk, if_neg hk, Option.or_none]

/-- The entries with a name: one if the name has a value. -/
theorem filter_entries (m : Ledger ν) (key : String) :
    (m.entries.filter fun e => e.1 = key) = (m.get? key).toList.map fun value => (key, value) := by
  have hall : ∀ es : List (String × ν), (es.map Prod.fst).Nodup →
      (es.filter fun e => e.1 = key) = (lookIn es key).toList.map fun value => (key, value) := by
    intro es hnodup
    induction es with
    | nil => rfl
    | cons e es ih =>
      obtain ⟨hnew, hnodup⟩ := List.nodup_cons.1 hnodup
      by_cases he : e.1 = key
      · have hnone : lookIn es key = none := by
          rw [← Option.not_isSome_iff_eq_none, lookIn_isSome, ← he]
          exact hnew
        rw [List.filter_cons_of_pos (by simpa using he), ih hnodup, hnone, lookIn, if_pos he, ← he]
        rfl
      · rw [List.filter_cons_of_neg (by simpa using he), ih hnodup, lookIn, if_neg he]
  exact hall m.entries m.nodup

end Ledger

variable {α β : Type}

namespace Script

/-! ### References -/

/-- Puts references into a table, each under its variable; the first counts. -/
def keepAll (refs : Ledger Reference) (rs : List Reference) : Ledger Reference :=
  rs.foldl (fun refs r => refs.insertNew r.var r) refs

theorem keepAll_cons (refs : Ledger Reference) (r : Reference) (rs : List Reference) :
    keepAll refs (r :: rs) = keepAll (refs.insertNew r.var r) rs :=
  rfl

/-- A variable has the reference that it had, or else the first that it is given. -/
theorem get?_keepAll (refs : Ledger Reference) (rs : List Reference) (v : String) :
    (keepAll refs rs).get? v = (refs.get? v).or (rs.find? fun r => r.var = v) := by
  induction rs generalizing refs with
  | nil => rw [keepAll, List.foldl_nil, List.find?_nil, Option.or_none]
  | cons r rs ih =>
    rw [keepAll_cons, ih, Ledger.get?_insertNew, Option.or_assoc, List.find?_cons]
    by_cases h : r.var = v <;> simp [h]

/-- References stay where they are; those that come behind them are under their variables. -/
theorem exists_entries_keepAll (refs : Ledger Reference) (rs : List Reference) :
    ∃ kept : List Reference,
      (keepAll refs rs).entries = refs.entries ++ kept.map (fun r => (r.var, r))
      ∧ ∀ r ∈ kept, r ∈ rs := by
  induction rs generalizing refs with
  | nil => exact ⟨[], (List.append_nil _).symm, by simp⟩
  | cons r rs ih =>
    obtain ⟨kept, hentries, hkept⟩ := ih (refs.insertNew r.var r)
    have hrest : ∀ s ∈ kept, s ∈ r :: rs := fun s hs => List.mem_cons_of_mem _ (hkept s hs)
    rw [keepAll_cons, hentries, Ledger.insertNew]
    split
    · exact ⟨kept, rfl, hrest⟩
    · next h =>
      rw [Ledger.contains_iff] at h
      refine ⟨r :: kept, ?_, List.forall_mem_cons.2 ⟨List.mem_cons_self, hrest⟩⟩
      rw [Ledger.entries_insert_of_not_mem h, List.append_assoc]
      rfl

variable {registry : Registry} {widgets : List (Widget α)}

/-- The references of a script under their variables. -/
def referenceTable (registry : Registry) (widgets : List (Widget α)) : Ledger Reference :=
  keepAll {} (candidates registry (Tree.forestNodes widgets))

theorem values_referenceTable :
    (referenceTable registry widgets).values = references registry widgets :=
  rfl

theorem exists_entries_referenceTable (registry : Registry) (widgets : List (Widget α)) :
    ∃ kept : List Reference,
      (referenceTable registry widgets).entries = kept.map (fun r => (r.var, r))
      ∧ ∀ r ∈ kept, r ∈ candidates registry (Tree.forestNodes widgets) :=
  exists_entries_keepAll {} _

theorem get?_referenceTable (v : String) :
    (referenceTable registry widgets).get? v
      = (candidates registry (Tree.forestNodes widgets)).find? fun r => r.var = v := by
  rw [referenceTable, get?_keepAll]
  rfl

/-- A reference is one of those that could be kept. -/
theorem mem_candidates_of_mem_references {r : Reference} (h : r ∈ references registry widgets) :
    r ∈ candidates registry (Tree.forestNodes widgets) := by
  obtain ⟨kept, hentries, hkept⟩ := exists_entries_referenceTable registry widgets
  rw [← values_referenceTable, Ledger.values, hentries, List.map_map] at h
  exact hkept r (by simpa using h)

/-- Of the references that could be kept in a variable the first is kept. -/
theorem filter_references (v : String) :
    ((references registry widgets).filter fun r => r.var = v)
      = ((candidates registry (Tree.forestNodes widgets)).find? fun r => r.var = v).toList := by
  have hfilter := (referenceTable registry widgets).filter_entries v
  obtain ⟨kept, hentries, -⟩ := exists_entries_referenceTable registry widgets
  rw [get?_referenceTable, hentries, List.filter_map] at hfilter
  rw [← values_referenceTable, Ledger.values, hentries, List.map_map]
  have hsnd := congrArg (List.map Prod.snd) hfilter
  simpa [Function.comp_def] using hsnd

/-- The first reference is to the first root, and no other. -/
theorem exists_references_cons (registry : Registry) (root : Widget α) (rest : List (Widget α)) :
    ∃ others, references registry (root :: rest) = referenceTo registry true root.label :: others
      ∧ ∀ r ∈ others, r.isRoot = false := by
  have hnodes : Tree.forestNodes (root :: rest)
      = root :: (Tree.forestNodes root.children ++ Tree.forestNodes rest) := by
    rw [Tree.forestNodes, Tree.nodes_eq, List.cons_append]
  obtain ⟨rs, hrs, htable⟩ : ∃ rs : List Reference, (∀ r ∈ rs, r.isRoot = false)
      ∧ referenceTable registry (root :: rest)
        = keepAll (Ledger.insertNew {} (variableFor (textOrEmpty root.label.id))
            (referenceTo registry true root.label)) rs := by
    rw [referenceTable, hnodes, candidates]
    refine ⟨_, fun r hr => ?_, rfl⟩
    obtain ⟨w, -, rfl⟩ := List.mem_map.1 (List.mem_filter.1 hr).1
    rfl
  obtain ⟨kept, hentries, hkept⟩ := exists_entries_keepAll (Ledger.insertNew {}
    (variableFor (textOrEmpty root.label.id)) (referenceTo registry true root.label)) rs
  refine ⟨kept, ?_, fun r hr => hrs r (hkept r hr)⟩
  rw [← values_referenceTable, htable, Ledger.values, hentries, List.map_append, List.map_map]
  exact congrArg (_ :: ·) (List.map_id kept)

/-! ### Lines that are not fixed -/

/-- Whether a line is not the same in all scripts. -/
def Line.isTelling : Line → Bool
  | .fixed _ => false
  | _ => true

/-- The lines of a script that are not the same in all scripts. -/
def tellingLines (root rootType name title : String) (others withEvents : List Reference) :
    List Line :=
  [.titleNote title, .declare root] ++ others.map (fun r => .declare r.var)
    ++ (withEvents.flatMap fun r => r.events.entries.flatMap fun (event, signature) =>
      [.handler r.var event (parameters signature), .handlerNote event r.type r.id])
    ++ [.load root name, .ifEmpty root, .loadFailure title name]
    ++ (others.flatMap fun r =>
      [.lookUp r.var root r.id, .ifEmpty r.var, .lookUpFailure title r.id])
    ++ (withEvents.flatMap fun r =>
      [.ifThere r.var, .connect r.var] ++ bindLines r.var r.events.keys)
    ++ [.ifThere root] ++ (showActions rootType).map (fun action => .tell root action)
    ++ [.ifThere root, .tell root "hide", .ifThere root, .ifVisible root]
    ++ (withEvents.flatMap fun r => [.ifThere r.var, .disconnect r.var])
    ++ [.ifThere root, .tell root "destroy", .clear root] ++ others.map (fun r => .clear r.var)

theorem filter_isTelling_allHandlerLines (withEvents : List Reference) :
    (allHandlerLines withEvents).filter Line.isTelling
      = withEvents.flatMap fun r => r.events.entries.flatMap fun (event, signature) =>
        [.handler r.var event (parameters signature), .handlerNote event r.type r.id] := by
  cases withEvents with
  | nil => rfl
  | cons r rs =>
    simp [allHandlerLines, handlerLines, List.filter_cons, List.filter_flatMap, Line.isTelling]

theorem filter_isTelling_lookUpLines (root title : String) (others : List Reference) :
    (lookUpLines root title others).filter Line.isTelling
      = others.flatMap fun r =>
        [.lookUp r.var root r.id, .ifEmpty r.var, .lookUpFailure title r.id] := by
  cases others with
  | nil => rfl
  | cons r rs => simp [lookUpLines, List.filter_cons, List.filter_flatMap, Line.isTelling]

theorem filter_isTelling_bindLines (var : String) (events : List String) :
    (bindLines var events).filter Line.isTelling = bindLines var events := by
  fun_induction bindLines var events with
  | case1 => rfl
  | case2 => rfl
  | case3 _ _ _ ih => rw [List.filter_cons_of_pos rfl, ih]

theorem filter_isTelling_allConnectLines (withEvents : List Reference) :
    (allConnectLines withEvents).filter Line.isTelling
      = withEvents.flatMap fun r =>
        [.ifThere r.var, .connect r.var] ++ bindLines r.var r.events.keys := by
  cases withEvents with
  | nil => rfl
  | cons r rs =>
    simp [allConnectLines, connectLines, filter_isTelling_bindLines, List.filter_cons,
      List.filter_flatMap, Line.isTelling]

theorem filter_isTelling_lines (registry : Registry) (fallback name title : String)
    (widgets : List (Widget α)) :
    (lines registry fallback name title widgets).filter Line.isTelling
      = tellingLines (rootVariable fallback widgets) (rootType widgets) name title
        ((references registry widgets).filter fun r => !r.isRoot)
        ((references registry widgets).filter fun r => !r.events.isEmpty) := by
  have htell : ∀ root (actions : List String),
      (actions.map fun action => Line.tell root action).filter Line.isTelling
        = actions.map fun action => Line.tell root action :=
    fun root actions => List.filter_eq_self.2 (by simp [Line.isTelling])
  simp [lines, tellingLines, filter_isTelling_allHandlerLines, filter_isTelling_lookUpLines,
    filter_isTelling_allConnectLines, headLines, loadLines, visibilityLines, endLines, htell,
    List.filter_cons, List.filter_flatMap, List.filter_map, Function.comp_def, Line.isTelling]

/-! ### Views -/

/-- The variable that a line declares. -/
def Line.declared? : Line → Option String
  | .declare v => some v
  | _ => none

/-- The variable that a line gives a widget, with the id that the widget is looked up by; a widget
that is loaded is looked up by none. -/
def Line.given? : Line → Option (String × Option String)
  | .load v _ => some (v, none)
  | .lookUp v _ id => some (v, some id)
  | _ => none

/-- The variable of the widget that a line starts to connect handlers to. -/
def Line.connected? : Line → Option String
  | .connect v => some v
  | _ => none

/-- The event that a line connects, with the variable of the handler. -/
def Line.bound? : Line → Option (String × String)
  | .bind event v _ => some (event, v)
  | _ => none

theorem flatMap_nil {γ : Type} (xs : List γ) : (xs.flatMap fun _ => ([] : List β)) = [] :=
  List.flatMap_eq_nil_iff.2 fun _ _ => rfl

/-- A view of no fixed line. -/
theorem filterMap_filter_isTelling {f : Line → Option β} (hfixed : ∀ text, f (.fixed text) = none)
    (ls : List Line) : (ls.filter Line.isTelling).filterMap f = ls.filterMap f := by
  rw [List.filterMap_filter]
  refine congrArg (List.filterMap · ls) (funext fun l => ?_)
  cases l with
  | fixed text => exact (hfixed text).symm
  | _ => rfl

theorem filterMap_bindLines_eq_nil {f : Line → Option β}
    (hbind : ∀ event v isLast, f (.bind event v isLast) = none) (var : String)
    (events : List String) : (bindLines var events).filterMap f = [] := by
  fun_induction bindLines var events with
  | case1 => rfl
  | case2 => exact List.filterMap_cons_none (hbind ..)
  | case3 _ _ _ ih => exact (List.filterMap_cons_none (hbind ..)).trans ih

/-- The variables that are declared: that of the root, then those of the other widgets. -/
theorem filterMap_declared?_lines (registry : Registry) (fallback name title : String)
    (widgets : List (Widget α)) :
    (lines registry fallback name title widgets).filterMap Line.declared?
      = rootVariable fallback widgets
        :: ((references registry widgets).filter fun r => !r.isRoot).map Reference.var := by
  have hbinds : ∀ r : Reference,
      (bindLines r.var r.events.keys).filterMap Line.declared? = [] :=
    fun r => filterMap_bindLines_eq_nil (fun _ _ _ => rfl) r.var r.events.keys
  rw [← filterMap_filter_isTelling fun _ => rfl, filter_isTelling_lines]
  simp [tellingLines, hbinds, List.filterMap_cons, List.filterMap_flatMap, List.map_eq_flatMap,
    flatMap_nil, Line.declared?]

/-- What variables are given: the root is loaded, and each other widget is looked up by its id. -/
theorem filterMap_given?_lines (registry : Registry) (fallback name title : String)
    (widgets : List (Widget α)) :
    (lines registry fallback name title widgets).filterMap Line.given?
      = (rootVariable fallback widgets, none)
        :: ((references registry widgets).filter fun r => !r.isRoot).map
          fun r => (r.var, some r.id) := by
  have hbinds : ∀ r : Reference,
      (bindLines r.var r.events.keys).filterMap Line.given? = [] :=
    fun r => filterMap_bindLines_eq_nil (fun _ _ _ => rfl) r.var r.events.keys
  rw [← filterMap_filter_isTelling fun _ => rfl, filter_isTelling_lines]
  simp [tellingLines, hbinds, List.filterMap_cons, List.filterMap_flatMap, List.map_eq_flatMap,
    flatMap_nil, Line.given?]

/-- What a script gives the variable of a reference: the id that it is looked up by. -/
def Reference.given (r : Reference) : String × Option String :=
  (r.var, if r.isRoot then none else some r.id)

/-- When there are widgets, the variables that are declared are those of the references. -/
theorem filterMap_declared?_lines_cons (registry : Registry) (fallback name title : String)
    (root : Widget α) (rest : List (Widget α)) :
    (lines registry fallback name title (root :: rest)).filterMap Line.declared?
      = (references registry (root :: rest)).map Reference.var := by
  obtain ⟨others, hrefs, hothers⟩ := exists_references_cons registry root rest
  have hall : others.filter (fun r => !r.isRoot) = others :=
    List.filter_eq_self.2 fun r hr => by rw [hothers r hr]; rfl
  rw [filterMap_declared?_lines, hrefs, List.filter_cons_of_neg (by simp [referenceTo]), hall]
  rfl

/-- When there are widgets, the variables that are given widgets are those of the references. -/
theorem filterMap_given?_lines_cons (registry : Registry) (fallback name title : String)
    (root : Widget α) (rest : List (Widget α)) :
    (lines registry fallback name title (root :: rest)).filterMap Line.given?
      = (references registry (root :: rest)).map Reference.given := by
  obtain ⟨others, hrefs, hothers⟩ := exists_references_cons registry root rest
  have hall : others.filter (fun r => !r.isRoot) = others :=
    List.filter_eq_self.2 fun r hr => by rw [hothers r hr]; rfl
  have hgiven : others.map Reference.given = others.map fun r => (r.var, some r.id) :=
    List.map_congr_left fun r hr => by rw [Reference.given, hothers r hr]; rfl
  rw [filterMap_given?_lines, hrefs, List.filter_cons_of_neg (by simp [referenceTo]), hall,
    List.map_cons, hgiven]
  rfl

/-! ### Connections -/

/-- What is connected: variables, each with what the lines right below bind. -/
def connections : List Line → List (String × List (String × String))
  | [] => []
  | .connect v :: ls =>
    (v, (ls.takeWhile fun l => l.bound?.isSome).filterMap Line.bound?) :: connections ls
  | _ :: ls => connections ls

theorem connections_cons_of_none {l : Line} (h : l.connected? = none) (ls : List Line) :
    connections (l :: ls) = connections ls := by
  cases l with
  | connect v => cases h
  | _ => rfl

/-- Lines that connect nothing. -/
theorem connections_append_of_eq_nil {ls : List Line} (h : ls.filterMap Line.connected? = [])
    (ms : List Line) : connections (ls ++ ms) = connections ms := by
  induction ls with
  | nil => rfl
  | cons l ls ih =>
    obtain ⟨hl, hls⟩ := List.forall_mem_cons.1 (List.filterMap_eq_nil_iff.1 h)
    rw [List.cons_append, connections_cons_of_none hl, ih (List.filterMap_eq_nil_iff.2 hls)]

theorem filterMap_bound?_bindLines (var : String) (events : List String) :
    (bindLines var events).filterMap Line.bound? = events.map fun event => (event, var) := by
  fun_induction bindLines var events with
  | case1 => rfl
  | case2 => rfl
  | case3 _ _ _ ih => rw [List.filterMap_cons_some (by rfl), ih, List.map_cons]

theorem isSome_bound?_of_mem_bindLines (var : String) (events : List String) :
    ∀ l ∈ bindLines var events, l.bound?.isSome = true := by
  fun_induction bindLines var events with
  | case1 => simp
  | case2 => simp [Line.bound?]
  | case3 _ _ _ ih => exact List.forall_mem_cons.2 ⟨rfl, ih⟩

/-- The lines that connect the handlers of a widget connect each of its events. -/
theorem connections_connectLines_append (r : Reference) (ls : List Line) :
    connections (connectLines r ++ ls)
      = (r.var, r.events.keys.map fun event => (event, r.var)) :: connections ls := by
  have hbound := isSome_bound?_of_mem_bindLines r.var r.events.keys
  have hbinds : (bindLines r.var r.events.keys).filterMap Line.connected? = [] :=
    filterMap_bindLines_eq_nil (fun _ _ _ => rfl) r.var r.events.keys
  calc connections (connectLines r ++ ls)
    _ = connections (.connect r.var :: (bindLines r.var r.events.keys
          ++ .fixed "    \x7d)" :: .fixed "  end" :: ls)) := by
      simp [connectLines, connections]
    _ = _ := by
      rw [connections, connections_append_of_eq_nil hbinds, List.takeWhile_append_of_pos hbound,
        List.filterMap_append, filterMap_bound?_bindLines, connections_cons_of_none rfl,
        connections_cons_of_none rfl]
      simp [Line.bound?]

theorem connections_flatMap_connectLines_append (rs : List Reference) (ls : List Line) :
    connections (rs.flatMap connectLines ++ ls)
      = rs.map (fun r => (r.var, r.events.keys.map fun event => (event, r.var)))
        ++ connections ls := by
  induction rs with
  | nil => rfl
  | cons r rs ih =>
    rw [List.flatMap_cons, List.append_assoc, connections_connectLines_append, ih]
    rfl

theorem connections_allConnectLines_append {ls : List Line}
    (h : ls.filterMap Line.connected? = []) (rs : List Reference) :
    connections (allConnectLines rs ++ ls)
      = rs.map fun r => (r.var, r.events.keys.map fun event => (event, r.var)) := by
  have hnone : connections ls = [] := by
    rw [← List.append_nil ls, connections_append_of_eq_nil h, connections]
  rw [allConnectLines]
  split
  · next hrs => rw [List.isEmpty_iff.1 hrs, List.nil_append, hnone, List.map_nil]
  · rw [List.cons_append, List.cons_append, connections_cons_of_none rfl, List.append_assoc,
      connections_flatMap_connectLines_append, List.singleton_append, connections_cons_of_none rfl,
      hnone, List.append_nil]

theorem filterMap_connected?_beforeConnecting (root name title : String)
    (others withEvents : List Reference) :
    (headLines root title others ++ allHandlerLines withEvents ++ loadLines root name title
      ++ lookUpLines root title others).filterMap Line.connected? = [] := by
  rw [← filterMap_filter_isTelling fun _ => rfl]
  simp [headLines, loadLines, filter_isTelling_allHandlerLines, filter_isTelling_lookUpLines,
    List.filter_cons, List.filter_flatMap, List.filterMap_cons, List.filterMap_flatMap,
    List.map_eq_flatMap, flatMap_nil, Line.isTelling, Line.connected?]

theorem filterMap_connected?_afterConnecting (root rootType : String)
    (others withEvents : List Reference) :
    ([Line.fixed "  return true", .fixed "end", .fixed ""] ++ visibilityLines root rootType
      ++ endLines root others withEvents).filterMap Line.connected? = [] := by
  simp [visibilityLines, endLines, List.filterMap_cons, List.filterMap_flatMap, List.map_eq_flatMap,
    flatMap_nil, Line.connected?]

/-- A script connects the widgets with events, each event to its handler. -/
theorem connections_lines (registry : Registry) (fallback name title : String)
    (widgets : List (Widget α)) :
    connections (lines registry fallback name title widgets)
      = ((references registry widgets).filter fun r => !r.events.isEmpty).map
        fun r => (r.var, r.events.keys.map fun event => (event, r.var)) := by
  rw [lines, List.append_assoc _ (visibilityLines ..), List.append_assoc _ [_, _, _],
    ← List.append_assoc [_, _, _], List.append_assoc _ (allConnectLines _),
    connections_append_of_eq_nil (filterMap_connected?_beforeConnecting ..),
    connections_allConnectLines_append (filterMap_connected?_afterConnecting ..)]

end Script

end Otui
