import Otui.Proofs.ExactScalar
import Otui.Proofs.FormattedDocuments
import Otui.Proofs.ScriptViews

/-!
# Ids that a script looks up

The script of a module looks widgets up by their ids in the document that is written beside it.
`Script.lookUps_eq` says which ids these are: those of the widgets below the first root that have
events by the registry. Of these, `looked_up_written` finds the id of each in the text, one line below
the header of its widget, unless writing leaves it out: when an id on the way is empty, or when the
widget is no root, has no event line of its own and its id looks generated.
-/

namespace Otui

open Otui.Text Otui.Document

variable {α : Type}

/-! ### What a script looks up -/

namespace Script

/-- The id that a line of a script looks up. -/
def Line.lookedUp? : Line → Option String
  | .lookUp _ _ id => some id
  | _ => none

/-- The ids that a script looks up, in order. -/
def lookUps (registry : Registry) (fallback name title : String) (widgets : List (Widget α)) :
    List String :=
  (lines registry fallback name title widgets).filterMap Line.lookedUp?

/-- The ids that a script looks up are those of its references, the root apart. -/
theorem lookUps_eq (registry : Registry) (fallback name title : String)
    (widgets : List (Widget α)) :
    lookUps registry fallback name title widgets
      = ((references registry widgets).filter fun r => !r.isRoot).map Reference.id := by
  have hview : Line.lookedUp? = fun l => l.given?.bind Prod.snd := by
    funext l
    cases l <;> rfl
  rw [lookUps, hview, ← List.filterMap_filterMap, filterMap_given?_lines,
    List.filterMap_cons_none (by rfl), List.filterMap_map]
  exact congrFun List.filterMap_eq_map _

/-- An id that a script looks up is that of a widget with events, or of one whose id is empty. -/
theorem exists_of_mem_lookUps {registry : Registry} {fallback name title id : String}
    {widgets : List (Widget α)} (h : id ∈ lookUps registry fallback name title widgets) :
    ∃ w ∈ Tree.forestNodes widgets, (eventsOf registry w.label).isEmpty = false
      ∧ (textOrEmpty w.label.id = "" ∨ textOrEmpty w.label.id = id) := by
  rw [lookUps_eq] at h
  obtain ⟨r, hr, rfl⟩ := List.mem_map.1 h
  obtain ⟨hr, hroot⟩ := List.mem_filter.1 hr
  have hcandidate := mem_candidates_of_mem_references hr
  cases hnodes : Tree.forestNodes widgets with
  | nil => rw [hnodes] at hcandidate; cases hcandidate
  | cons root rest =>
    rw [hnodes, candidates, List.mem_cons] at hcandidate
    rcases hcandidate with rfl | hcandidate
    · cases hroot
    · obtain ⟨hmem, hevents⟩ := List.mem_filter.1 hcandidate
      obtain ⟨w, hw, rfl⟩ := List.mem_map.1 hmem
      rw [Bool.not_eq_true'] at hevents
      refine ⟨w, List.mem_cons_of_mem _ hw, hevents, ?_⟩
      by_cases hid : textOrEmpty w.label.id = ""
      · exact .inl hid
      · exact .inr (by simp [referenceTo, hid])

end Script

/-! ### Where a widget is written -/

namespace Document

/-- What is written for a widget below others stands in what is written for the children of the
first of them, when all can be written. -/
theorem saidLines_infix_scriptLinesAmong {ws : List (Widget α)} {up above : List (Element α)}
    {w : Widget α} (hw : (above, w) ∈ Tree.forestPaths up ws)
    (h : ∀ e ∈ w.label :: above, e.inherited = false ∧ e.isWritable = true) :
    saidLines above.length (w.label.said false)
      <:+: scriptLinesAmong up.length
        (Tree.forestMap (Element.said false) (Widget.keptBelow ws)) := by
  induction ws using Tree.forest_induction generalizing up with
  | nil => cases hw
  | cons e cs ws ihc ihw =>
    have hcons : ∀ level cs' ws', scriptLinesAmong level
        (Tree.forestMap (Element.said false) (.node e cs' :: ws'))
          = saidLines level (e.said false)
            ++ scriptLinesAmong (level + 1) (Tree.forestMap (Element.said false) cs')
            ++ scriptLinesAmong level (Tree.forestMap (Element.said false) ws') := by
      intro level cs' ws'
      rw [Tree.forestMap_nodeCons, scriptLinesAmong, scriptLines]
    have hwritten : e ∈ w.label :: above → Widget.keptBelow (.node e cs :: ws)
        = .node e (Widget.keptBelow cs) :: Widget.keptBelow ws := by
      intro he
      rw [Widget.keptBelow, (h e he).1, (h e he).2]
      rfl
    rcases Tree.mem_forestPaths_cons.1 hw with ⟨rfl, rfl⟩ | hw | hw
    · rw [hwritten List.mem_cons_self, hcons, List.append_assoc]
      exact (List.prefix_append _ _).isInfix
    · have he : e ∈ above := Tree.subset_of_mem_forestPaths hw List.mem_cons_self
      rw [hwritten (List.mem_cons_of_mem _ he), hcons]
      exact (ihc hw).trans (List.infix_append _ _ _)
    · refine (ihw hw).trans ?_
      rw [Widget.keptBelow]
      split
      · exact List.infix_rfl
      · rw [hcons]
        exact (List.suffix_append _ _).isInfix

/-- A widget that can be written with all above it is written for one of the roots. -/
theorem exists_script_of_mem_forestPaths {ws : List (Widget α)} {above : List (Element α)}
    {w : Widget α} (hw : (above, w) ∈ Tree.forestPaths [] ws)
    (h : ∀ e ∈ w.label :: above, e.inherited = false ∧ e.isWritable = true) :
    ∃ u ∈ Widget.kept ws,
      saidLines above.length (w.label.said above.isEmpty) <:+: scriptLines 0 (Widget.script u) := by
  induction ws with
  | nil => cases hw
  | cons root ws ih =>
    cases root with
    | node e cs =>
      have hroot : e ∈ w.label :: above →
          Tree.node e (Widget.keptBelow cs) ∈ Widget.kept (.node e cs :: ws) := by
        intro he
        rw [Widget.kept_cons, Tree.label_node, if_pos (h e he).2]
        exact List.mem_cons_self
      rcases Tree.mem_forestPaths_cons.1 hw with ⟨rfl, rfl⟩ | hw | hw
      · refine ⟨_, hroot List.mem_cons_self, ?_⟩
        rw [Widget.script, scriptLines]
        exact (List.prefix_append _ _).isInfix
      · have he : e ∈ above := Tree.subset_of_mem_forestPaths hw List.mem_cons_self
        refine ⟨_, hroot (List.mem_cons_of_mem _ he), ?_⟩
        rw [Widget.script, scriptLines, List.isEmpty_eq_false_iff.2 (List.ne_nil_of_mem he)]
        exact (saidLines_infix_scriptLinesAmong hw h).trans (List.suffix_append _ _).isInfix
      · obtain ⟨u, hu, hlines⟩ := ih hw
        refine ⟨u, ?_, hlines⟩
        rw [Widget.kept_cons]
        split
        · exact List.mem_cons_of_mem _ hu
        · exact hu

/-- Lines of one script stand together in the text of scripts. -/
theorem infix_cut_scriptText {ts : List (Tree (List Said))}
    (hb : ∀ b ∈ Tree.forestLabels ts, IsBlock b) {t : Tree (List Said)} (ht : t ∈ ts)
    {ls : List WrittenLine} (h : ls <:+: scriptLines 0 t) :
    ls.map WrittenLine.text <:+: Text.cut '\n' (scriptText ts) := by
  have hne : ts.map (scriptLines 0) ≠ [] := by simpa using List.ne_nil_of_mem ht
  obtain ⟨as, bs, rfl⟩ := List.append_of_mem ht
  rw [Text.cut, scriptText, cutChars_textOf hne (areReadable_scripts hb), pieces]
  have hblock : (scriptLines 0 t).map WrittenLine.text <:+:
      (((as ++ t :: bs).map (scriptLines 0)).flatMap fun ls =>
        ls.map (fun w => w.text.toList) ++ [[]]).map String.ofList := by
    refine ⟨((as.map (scriptLines 0)).flatMap fun ls =>
        ls.map (fun w => w.text.toList) ++ [[]]).map String.ofList,
      "" :: ((bs.map (scriptLines 0)).flatMap fun ls =>
        ls.map (fun w => w.text.toList) ++ [[]]).map String.ofList, ?_⟩
    simp [Function.comp_def]
  exact (h.map _).trans hblock

/-- A text has, one below the other, a header at a level and an id one level deeper. -/
def SaysId (text : String) (level : Nat) (name id : String) : Prop :=
  [(⟨level, .header name none⟩ : WrittenLine), ⟨level + 1, .id id⟩].map WrittenLine.text
    <:+: Text.cut '\n' text

/-- **Looked up ids are written**: whatever the registry and the names, for every id that the script
for a text looks up there is a widget with events; it or a widget above it has an empty id, or
formatting the text writes the id right below the header of the widget, unless the widget is no root,
has no event line of its own and its id looks generated. -/
theorem looked_up_written [Scalar α] (registry : Registry) (fallback name title : String)
    {text id : String}
    (h : id ∈ Script.lookUps registry fallback name title (parsed text : Document α).widgets) :
    ∃ s, format α text = .ok s ∧ ∃ above w,
      (above, w) ∈ Tree.forestPaths [] (parsed text : Document α).widgets
        ∧ (Script.eventsOf registry w.label).isEmpty = false
        ∧ ((∃ e ∈ w.label :: above, e.id = some "")
          ∨ w.label.id = some id
            ∧ (above ≠ [] ∧ w.label.hasEvents = false ∧ looksGenerated id = true
              ∨ SaysId s above.length (textOrEmpty w.label.surface) id)) := by
  have hd := isRead_parsed (α := α) text
  have hs : ∀ k ∈ Document.lines text, k.content.IsSound := fun _ => isSound_of_mem_lines
  obtain ⟨w, hw, hevents, hid⟩ := Script.exists_of_mem_lookUps h
  rw [← Tree.map_snd_forestPaths []] at hw
  obtain ⟨⟨above, w⟩, hpath, rfl⟩ := List.mem_map.1 hw
  refine ⟨_, format_eq_kept text, above, w, hpath, hevents, ?_⟩
  by_cases hempty : ∃ e ∈ w.label :: above, e.id = some ""
  · exact .inl hempty
  refine .inr ?_
  have hfinished : ∀ e ∈ w.label :: above,
      e.IsFinished (Document.lines text) (parsed text : Document α).templates := fun e he =>
    hd.widgets e ((Tree.mem_of_mem_forestPaths hpath e he).resolve_left List.not_mem_nil)
  have hwritten : ∀ e ∈ w.label :: above, e.inherited = false ∧ e.isWritable = true := by
    intro e he
    obtain ⟨ls, hr⟩ := (hfinished e he).read
    obtain ⟨v, hv⟩ := (hfinished e he).id
    have hne : v ≠ "" := by
      rintro rfl
      exact hempty ⟨e, he, hv⟩
    exact ⟨hr.inherited, by simp [Element.isWritable, hr.type, hv, textOrEmpty, hne]⟩
  have hlabel := hfinished w.label List.mem_cons_self
  have hid' : w.label.id = some id := by
    obtain ⟨v, hv⟩ := hlabel.id
    rw [hv, textOrEmpty, Option.getD_some] at hid
    rcases hid with rfl | rfl
    · exact absurd ⟨w.label, List.mem_cons_self, hv⟩ hempty
    · exact hv
  refine ⟨hid', ?_⟩
  by_cases hwrites : writesId above.isEmpty w.label = true
  · right
    obtain ⟨u, hu, hlines⟩ := exists_script_of_mem_forestPaths hpath hwritten
    have hmem : Widget.script u ∈ (parsed text : Document α).kept.scripts :=
      List.mem_append_right _ (List.mem_map.2 ⟨u, hu, rfl⟩)
    obtain ⟨ls, hr⟩ := hlabel.read
    rw [hlabel.said_eq hs hr, if_pos hwrites, hid'] at hlines
    rw [if_neg (List.ne_nil_of_mem hmem)]
    refine infix_cut_scriptText (hd.kept.isBlock_scripts hs) hmem (.trans ?_ hlines)
    exact (List.prefix_append _ _).isInfix
  · left
    rw [Bool.not_eq_true, writesId, hid', textOrEmpty, Option.getD_some, Bool.or_eq_false_iff,
      Bool.or_eq_false_iff, Bool.not_eq_false', List.isEmpty_eq_false_iff] at hwrites
    exact ⟨hwrites.1.1, hwrites.1.2, hwrites.2⟩

/-- A button with an id of its own is looked up and written. -/
theorem looked_up_written_button :
    "ok" ∈ Script.lookUps Registry.packaged "m" "m" "M"
        (parsed "Panel\n  id: p\n  Button\n    id: ok\n" : Document Float).widgets
      ∧ ∃ s, format Float "Panel\n  id: p\n  Button\n    id: ok\n" = .ok s ∧ ∃ above w,
        (above, w) ∈ Tree.forestPaths []
            (parsed "Panel\n  id: p\n  Button\n    id: ok\n" : Document Float).widgets
          ∧ (Script.eventsOf Registry.packaged w.label).isEmpty = false
          ∧ ((∃ e ∈ w.label :: above, e.id = some "")
            ∨ w.label.id = some "ok"
              ∧ (above ≠ [] ∧ w.label.hasEvents = false ∧ looksGenerated "ok" = true
                ∨ SaysId s above.length (textOrEmpty w.label.surface) "ok")) := by
  have hlooked : "ok" ∈ Script.lookUps Registry.packaged "m" "m" "M"
      (parsed "Panel\n  id: p\n  Button\n    id: ok\n" : Document Float).widgets := by
    decide +kernel
  exact ⟨hlooked, looked_up_written Registry.packaged "m" "m" "M" hlooked⟩

/-- Texts, each with an id that its script looks up and that is not written: a generated one, and one
below a widget whose id is empty. -/
def unwrittenIds : List (String × String) :=
  [("Panel\n  id: p\n  Button\n", "button_1"),
    ("Panel\n  id: p\n  Panel\n    id: ''\n    Button\n      id: ok\n", "ok")]

/-- Some ids are looked up, by the types that are known after reading, and are on no line. -/
theorem not_written_unwrittenIds :
    unwrittenIds.Forall fun (text, id) =>
      id ∈ Script.lookUps (read (α := ℚ) Registry.packaged text).value.registry "m" "m" "M"
          (parsed text : Document ℚ).widgets
        ∧ ∃ s ∈ (format ℚ text).toOption, ∀ l ∈ Text.cut '\n' s, trim l ≠ "id: " ++ id := by
  decide +kernel

end Document

end Otui
