import Otui.Proofs.ExactScalar
import Otui.Proofs.ExpandedWidgets
import Otui.Proofs.Formatting
import Otui.Proofs.TextLengths

/-!
# Writing documents after templates were expanded

An instance of a template is written with its own property lines, so that expanding should not be seen
in the text of a document. There are two exceptions. An instance without property lines of its own has
its stored properties written, which are those of the template once it is expanded; and an instance
gets the events of its template, which make it write an id that looks generated.
`Element.KeepsBlock` rules both out, and `text_expanded_iff` says that the text stays the same exactly
when all widgets that are written do so.
-/

namespace Otui

open Otui.Text Otui.Document

variable {α : Type} {lines : List Line}

/-! ### Stored properties -/

namespace Document.Block

/-- A property that has a value and no underscore in front gives an empty block a line. -/
theorem exists_addStored_empty (values written : Ledger String) {key value : String}
    (hkey : startsWith "_" key = false) (hvalue : value ≠ "") :
    ∃ s keys, addStored values written {} key value = ⟨[s], keys⟩ := by
  have hskip : (startsWith "_" key || value == "" || ({} : Block).has key) = false := by
    simp [hkey, hvalue, has]
  rw [addStored, hskip]
  simp only [Bool.false_eq_true, if_false]
  split <;> exact ⟨_, _, rfl⟩

/-- A block of stored properties has no lines only when no property has a value. -/
theorem lines_addValues_eq_nil_iff {values written : Ledger String}
    (hkeys : ∀ p ∈ values.entries, startsWith "_" p.1 = false) :
    (({} : Block).addValues values written).lines = [] ↔ ∀ p ∈ values.entries, p.2 = "" := by
  have hall : ∀ es : List (String × String), (∀ p ∈ es, startsWith "_" p.1 = false) →
      ((es.foldl (fun b p => addStored values written b p.1 p.2) {}).lines = []
        ↔ ∀ p ∈ es, p.2 = "") := by
    intro es hes
    induction es with
    | nil => simp
    | cons p es ih =>
      rw [List.foldl_cons]
      by_cases hp : p.2 = ""
      · have hskip : addStored values written {} p.1 p.2 = {} := by
          rw [addStored, if_pos (by simp [hp])]
        rw [hskip, ih fun q hq => hes q (List.mem_cons_of_mem _ hq)]
        simp [hp]
      · obtain ⟨s, keys, hs⟩ :=
          exists_addStored_empty values written (hes p List.mem_cons_self) hp
        have hfront : (⟨[s], keys⟩ : Block) = after [s] ⟨[], keys⟩ := rfl
        rw [hs, hfront,
          foldl_after (fun b p => addStored_after values written [s] b p.1 p.2) ⟨[], keys⟩ es]
        simp [after, hp]
  exact hall values.entries hkeys

end Document.Block

/-- The keys that a template was read with have no underscore in front. -/
theorem Template.ReadFrom.not_startsWith_underscore {t : Template α} {ls : List OwnLine}
    (h : t.ReadFrom lines ls) (hs : ∀ k ∈ lines, k.content.IsSound) :
    ∀ p ∈ t.properties.values.entries, startsWith "_" p.1 = false := by
  intro p hp
  rw [h.properties.entries_eq] at hp
  obtain ⟨l, hl, hp⟩ := List.mem_flatMap.1 hp
  have htaken := OwnLine.keys_pairs_subset l (List.mem_map.2 ⟨p, hp, rfl⟩)
  cases hparts : Key.parts? l.key with
  | none =>
    rw [Key.taken_of_none hparts, List.mem_singleton] at htaken
    rw [htaken]
    exact OwnLine.not_startsWith_underscore (h.properties.isSound hs l hl).isKey
  | some ab =>
    obtain ⟨first, second⟩ := ab
    rw [Key.taken_of_some hparts, List.mem_cons, List.mem_singleton] at htaken
    rcases Key.parts?_eq_some hparts with ⟨-, rfl, rfl⟩ | ⟨-, rfl, rfl⟩ <;>
      rcases htaken with hkey | hkey <;> rw [hkey] <;> decide

/-! ### One instance -/

namespace Element

/-- What is written for a widget stays when a template is applied to it. -/
structure KeepsBlock (isRoot : Bool) (t : Template α) (e : Element α) : Prop where
  /-- The widget has property lines, or the template has no property to write in their place. -/
  lines : e.properties.lines ≠ [] ∨ ∀ p ∈ t.properties.values.entries, p.1 = "id" ∨ p.2 = ""
  /-- The id is written anyway, or the template has no event. -/
  id : writesId isRoot e = true ∨ ∀ key ∈ t.properties.values.keys, startsWith "@" key = false

instance (isRoot : Bool) (t : Template α) (e : Element α) : Decidable (e.KeepsBlock isRoot t) :=
  decidable_of_iff
    ((e.properties.lines ≠ [] ∨ ∀ p ∈ t.properties.values.entries, p.1 = "id" ∨ p.2 = "")
      ∧ (writesId isRoot e = true
        ∨ ∀ key ∈ t.properties.values.keys, startsWith "@" key = false))
    ⟨fun h => ⟨h.1, h.2⟩, fun h => ⟨h.lines, h.id⟩⟩

variable {t : Template α} {e : Element α}

theorem hasEvents_applyTo (t : Template α) (e : Element α) :
    (t.applyTo e).hasEvents = (e.hasEvents || t.properties.values.keys.any (startsWith "@")) := by
  rw [Bool.eq_iff_iff]
  simp only [hasEvents, Properties.hasEvents, Template.applyTo, Bool.or_eq_true, List.any_eq_true,
    Ledger.mem_keys_overlay]
  grind

/-- Applying a template with an event makes a widget write its id. -/
theorem writesId_applyTo (isRoot : Bool) (t : Template α) (e : Element α) :
    writesId isRoot (t.applyTo e)
      = (writesId isRoot e || t.properties.values.keys.any (startsWith "@")) := by
  have hid : (t.applyTo e).id = e.id := rfl
  rw [writesId, writesId, hasEvents_applyTo, hid]
  cases isRoot <;> cases e.hasEvents <;> cases looksGenerated (textOrEmpty e.id) <;> simp

/-- An instance has the same header after its template is applied. -/
theorem header_applyTo {templates : List (Template α)} (h : e.IsFinished lines templates)
    (ht : Template.find? templates (textOrEmpty e.surface) = some t) :
    header (t.applyTo e) = header e := by
  have htemplate := h.template
  rw [refAmong, ht, Option.map_some] at htemplate
  simp only [header, Template.applyTo, htemplate]

theorem bodyBlock_applyTo_of_lines (h : e.properties.lines ≠ []) :
    (t.applyTo e).bodyBlock = e.bodyBlock := by
  have hlines : (t.applyTo e).properties.lines = e.properties.lines := rfl
  have hsome : ¬ e.properties.lines.isEmpty = true := by simpa using h
  rw [bodyBlock, bodyBlock, hlines, if_neg hsome, if_neg hsome]

/-- A widget without property lines has nothing to write, and after its template is applied it has
what the template has. -/
theorem bodyBlock_of_no_lines {ls : List OwnLine} (h : e.ReadFrom lines ls)
    (hnone : e.properties.lines = []) (t : Template α) :
    e.bodyBlock = {} ∧ (t.applyTo e).bodyBlock
      = ({} : Block).addValues (t.properties.values.erase "id") (t.applyTo e).properties.written := by
  have hls : ls = [] := by
    rw [h.properties.lines_eq] at hnone
    exact List.map_eq_nil_iff.1 hnone
  have hentries : e.properties.values.entries = [] := by
    rw [h.properties.entries_eq, hls]
    rfl
  have hvalues : (t.applyTo e).properties.values = t.properties.values :=
    Ledger.overlay_of_entries_eq_nil hentries
  have hlines : (t.applyTo e).properties.lines = [] := hnone
  refine ⟨?_, ?_⟩
  · rw [bodyBlock, hnone]
    simp [Block.addValues, Ledger.erase, Ledger.filter, hentries]
  · rw [bodyBlock, hlines, hvalues]
    rfl

/-- Nothing is added to the block of an instance after its template is applied. -/
theorem isComplete_applyTo [Scalar α] {ls : List OwnLine} (h : e.ReadFrom lines ls)
    (hs : ∀ k ∈ lines, k.content.IsSound) (t : Template α) (config : Config α) :
    (t.applyTo e).IsComplete config := by
  intro isRoot
  have hcovered := h.isCoveredBy hs isRoot
  have happlied : e.IsCoveredBy (propertyBlock isRoot (t.applyTo e)) := by
    by_cases hnone : e.properties.lines = []
    · refine hcovered.of_keys_eq_nil ?_ _
      rw [propertyBlock_eq_after, Block.keys_after, (bodyBlock_of_no_lines h hnone t).1]
    · refine hcovered.of_keys_eq ?_
      rw [propertyBlock_eq_after, propertyBlock_eq_after, Block.keys_after, Block.keys_after,
        bodyBlock_applyTo_of_lines hnone]
  -- applying a template leaves what is said of size, place, anchors and margins
  exact IsCoveredBy.widgetBlock_eq
    ⟨happlied.sized, happlied.placement, happlied.anchors, happlied.margins⟩ config

/-- The property lines of an instance stay when its template is applied, or lines of the template come
in for those that it does not have. -/
theorem lines_bodyBlock_applyTo {ls : List OwnLine} (h : e.ReadFrom lines ls)
    (hkeys : ∀ p ∈ t.properties.values.entries, startsWith "_" p.1 = false) :
    e.bodyBlock.lines.Sublist (t.applyTo e).bodyBlock.lines
      ∧ ((t.applyTo e).bodyBlock.lines = e.bodyBlock.lines ↔ e.properties.lines ≠ []
        ∨ ∀ p ∈ t.properties.values.entries, p.1 = "id" ∨ p.2 = "") := by
  by_cases hnone : e.properties.lines = []
  · obtain ⟨hbody, happlied⟩ := bodyBlock_of_no_lines h hnone t
    have hothers : ∀ p, p ∈ (t.properties.values.erase "id").entries
        ↔ p ∈ t.properties.values.entries ∧ p.1 ≠ "id" := by
      simp [Ledger.erase, Ledger.filter]
    rw [hbody, happlied, Block.lines_addValues_eq_nil_iff fun p hp => hkeys p ((hothers p).1 hp).1]
    refine ⟨List.nil_sublist _, ?_⟩
    simp only [hothers, hnone, ne_eq, not_true_eq_false, false_or]
    exact ⟨fun h p hp => or_iff_not_imp_left.2 fun hid => h p ⟨hp, hid⟩,
      fun h p hp => (h p hp.1).resolve_left hp.2⟩
  · rw [bodyBlock_applyTo_of_lines hnone]
    exact ⟨List.Sublist.refl _, iff_of_true rfl (.inl hnone)⟩

end Element

theorem append_eq_append_iff_of_sublist {β : Type} {a a' b b' : List β} (ha : a.Sublist a')
    (hb : b.Sublist b') : a' ++ b' = a ++ b ↔ a' = a ∧ b' = b := by
  refine ⟨fun h => ?_, fun h => by rw [h.1, h.2]⟩
  have hlength := congrArg List.length h
  have hla := ha.length_le
  have hlb := hb.length_le
  rw [List.length_append, List.length_append] at hlength
  exact ⟨(ha.eq_of_length (by omega)).symm, (hb.eq_of_length (by omega)).symm⟩

/-- **One instance**: what is written for it stays and more may come when its template is applied, and
`KeepsBlock` says when nothing comes. -/
theorem Element.said_applyTo {templates : List (Template α)} {t : Template α} {e : Element α}
    (h : e.IsFinished lines templates)
    (ht : Template.find? templates (textOrEmpty e.surface) = some t)
    (hkeys : ∀ p ∈ t.properties.values.entries, startsWith "_" p.1 = false) (isRoot : Bool) :
    (e.said isRoot).Sublist ((t.applyTo e).said isRoot)
      ∧ ((t.applyTo e).said isRoot = e.said isRoot ↔ e.KeepsBlock isRoot t) := by
  obtain ⟨ls, hr⟩ := h.read
  obtain ⟨hbody, hbodyEq⟩ := lines_bodyBlock_applyTo hr hkeys
  have hid : (t.applyTo e).id = e.id := rfl
  have hids : ∀ (c d : Bool) (s : Said), (if c then [s] else []).Sublist (if c || d then [s] else [])
      ∧ ((if c || d then [s] else []) = (if c then [s] else []) ↔ c = true ∨ d = false) := by
    intro c d s
    cases c <;> cases d <;> simp
  obtain ⟨hsub, heq⟩ := hids (writesId isRoot e) (t.properties.values.keys.any (startsWith "@"))
    (.id (textOrEmpty e.id))
  rw [said_eq_cons, said_eq_cons, header_applyTo h ht, writesId_applyTo, hid]
  refine ⟨(hsub.append hbody).cons_cons _, ?_⟩
  rw [List.cons.injEq, append_eq_append_iff_of_sublist hsub hbody, heq, hbodyEq]
  simp only [true_and, List.any_eq_false, Bool.not_eq_true]
  exact ⟨fun ⟨hi, hl⟩ => ⟨hl, hi⟩, fun hk => ⟨hk.id, hk.lines⟩⟩

/-! ### Documents -/

namespace Document

/-- A document with all templates applied in its widgets. -/
def expanded (d : Document α) : Document α :=
  { d with widgets := (expand d.templates d.widgets).value }

/-- A document is expanded as its widgets are when the number of steps is large enough. -/
theorem widgets_expanded_eq {d : Document α} {n : Nat} {vs : List (Widget α)}
    (h : Widget.expandedWithin? n d.templates d.widgets = some vs) : d.expanded.widgets = vs :=
  Widget.value_expand_of_expandedWithin? h

/-- The scripts of widgets that are each changed in turn. -/
theorem map_script_forestMapBelow (f : List (Element α) → Element α → Element α)
    (ws : List (Widget α)) :
    (Tree.forestMapBelow f [] ws).map Widget.script
      = Tree.forestMapBelow (fun above e => (f above e).said above.isEmpty) [] ws := by
  induction ws with
  | nil => rfl
  | cons w ws ih =>
    cases w with
    | node e cs =>
      rw [Tree.forestMapBelow_nodeCons, Tree.forestMapBelow_nodeCons, List.map_cons, ih,
        Widget.script, Tree.label_node, Tree.children_node, Tree.forestMap_forestMapBelow]
      refine congrArg (· :: _) (congrArg (Tree.node _) (Tree.forestMapBelow_congr fun p hp => ?_))
      -- below a root there is always something above
      have he : e ∈ p.1 := Tree.subset_of_mem_forestPaths hp List.mem_cons_self
      rw [List.isEmpty_eq_false_iff.2 (List.ne_nil_of_mem he)]

theorem map_script_eq (ws : List (Widget α)) :
    ws.map Widget.script = Tree.forestMapBelow (fun above e => e.said above.isEmpty) [] ws := by
  have hsame : Tree.forestMapBelow (fun _ (e : Element α) => e) [] ws = ws :=
    (Tree.forestMapBelow_const id [] ws).trans (Tree.forestMap_id ws)
  have hscripts := map_script_forestMapBelow (fun _ e => e) ws
  rwa [hsame] at hscripts

theorem kept_widgets_expanded (d : Document α) :
    d.expanded.kept.widgets
      = Tree.forestMapBelow (Element.expandedIn d.templates) [] d.kept.widgets :=
  Widget.kept_expand d.templates d.widgets

/-- After expanding the same scripts of templates are written, and those of the same widgets. -/
theorem scripts_expanded (d : Document α) :
    d.expanded.kept.scripts = (firstTemplates d.kept.templates).map Template.script
      ++ Tree.forestMapBelow
          (fun above e => (e.expandedIn d.templates above).said above.isEmpty) [] d.kept.widgets := by
  rw [scripts, kept_widgets_expanded, map_script_forestMapBelow]
  rfl

namespace IsRead

variable {d : Document α}

/-- Instances that expanding brings in are of templates that the document defines. -/
theorem writtenTemplates_expanded (h : d.IsRead lines) :
    d.expanded.writtenTemplates = firstTemplates d.expanded.templates := by
  have hrefs : ∀ e : Element α, e.IsFinished lines d.templates →
      ∀ ref, e.template = some ref → ref.name ∈ d.templates.map Template.name := by
    intro e he ref href
    rw [he.template] at href
    obtain ⟨hname, hmem⟩ := name_of_refAmong href
    rwa [hname]
  have hall := (Widget.expands_allExpanded d.templates [] d.widgets).forall_labels
    (Q := fun e => ∀ ref, e.template = some ref → ref.name ∈ d.templates.map Template.name)
    (fun _ he => he) (fun _ he => he)
    (fun name t ht => by
      have hmem := List.mem_of_find?_eq_some ht
      refine ⟨fun e he => hrefs e (h.bodies t hmem e he), fun e _ _ ref href => ?_⟩
      cases href
      exact List.mem_map.2 ⟨t, hmem, rfl⟩)
    fun e he => hrefs e (h.widgets e he)
  rw [writtenTemplates, broughtTemplates_eq_nil, List.append_nil]
  intro w hw ref href
  exact name_mem_firstTemplates (hall w.label (List.mem_map.2 ⟨w, hw, rfl⟩) ref href)

/-- The widgets of a document that are written are finished. -/
theorem isFinished_of_mem_forestPaths (h : d.IsRead lines) {p : List (Element α) × Widget α}
    (hp : p ∈ Tree.forestPaths [] d.kept.widgets) : p.2.label.IsFinished lines d.templates :=
  h.widgets _ (Widget.mem_of_mem_kept
    ((Tree.mem_of_mem_forestPaths hp _ List.mem_cons_self).resolve_left List.not_mem_nil))

/-- Nothing is added to the blocks of widgets after expanding. -/
theorem isComplete_expanded [Scalar α] (h : d.IsRead lines) (hs : ∀ k ∈ lines, k.content.IsSound)
    (config : Config α) : ∀ e ∈ d.expanded.kept.elements, e.IsComplete config := by
  intro e he
  rcases List.mem_append.1 he with he | he
  · rw [kept_widgets_expanded, Tree.forestLabels_forestMapBelow] at he
    obtain ⟨p, hp, rfl⟩ := List.mem_map.1 he
    obtain ⟨ls, hr⟩ := (h.isFinished_of_mem_forestPaths hp).read
    unfold Element.expandedIn
    split
    · exact Element.isComplete_applyTo hr hs _ config
    · exact fun isRoot => (hr.isCoveredBy hs isRoot).widgetBlock_eq config
  · exact h.kept.isComplete hs config e (List.mem_append_right _ he)

/-- One widget of a document: what is written for it stays when the document is expanded, and more may
come. -/
theorem said_expandedIn (h : d.IsRead lines) (hs : ∀ k ∈ lines, k.content.IsSound)
    {p : List (Element α) × Widget α} (hp : p ∈ Tree.forestPaths [] d.kept.widgets)
    (isRoot : Bool) :
    (p.2.label.said isRoot).Sublist ((p.2.label.expandedIn d.templates p.1).said isRoot)
      ∧ ((p.2.label.expandedIn d.templates p.1).said isRoot = p.2.label.said isRoot
        ↔ ∀ t ∈ Template.appliedTo? d.templates p.1 p.2.label, p.2.label.KeepsBlock isRoot t) := by
  unfold Element.expandedIn
  cases happlied : Template.appliedTo? d.templates p.1 p.2.label with
  | none => exact ⟨List.Sublist.refl _, by simp⟩
  | some t =>
    obtain ⟨hmem, hfind⟩ := Template.mem_of_appliedTo? happlied
    obtain ⟨ls, hls⟩ := h.templates t hmem
    obtain ⟨hsub, heq⟩ := Element.said_applyTo (h.isFinished_of_mem_forestPaths hp) hfind
      (hls.not_startsWith_underscore hs) isRoot
    exact ⟨hsub, by simpa using heq⟩

/-- The texts of a document and of the expanded document are the same when expanding leaves the block
of each widget that is written, and only then. -/
theorem text_expanded_eq_iff [Scalar α] (h : d.IsRead lines) (hs : ∀ k ∈ lines, k.content.IsSound) :
    d.expanded.text (Config.standard : Config α) = d.text Config.standard
      ↔ ∀ p ∈ Tree.forestPaths [] d.kept.widgets,
          ∀ t ∈ Template.appliedTo? d.templates p.1 p.2.label,
            p.2.label.KeepsBlock p.1.isEmpty t := by
  have hscripts : d.kept.scripts = (firstTemplates d.kept.templates).map Template.script
      ++ Tree.forestMapBelow (fun above e => e.said above.isEmpty) [] d.kept.widgets := by
    rw [scripts, map_script_eq]
  rw [text_eq_scriptText h.writtenTemplates_expanded (h.isComplete_expanded hs Config.standard),
    text_eq_scriptText h.writtenTemplates_eq (h.kept.isComplete hs Config.standard),
    scripts_expanded, hscripts]
  constructor
  · intro htext p hp
    obtain ⟨w, ws, hws⟩ : ∃ w ws, d.kept.widgets = w :: ws := by
      refine List.exists_cons_of_ne_nil fun hnone => ?_
      rw [hnone] at hp
      cases hp
    have hsome : ∀ f : List (Element α) → Element α → List Said,
        (firstTemplates d.kept.templates).map Template.script
          ++ Tree.forestMapBelow f [] d.kept.widgets ≠ [] := by
      intro f
      rw [hws, Tree.forestMapBelow]
      simp
    rw [if_neg (hsome _), if_neg (hsome _), Except.ok.injEq] at htext
    -- lines only come in, and a line more anywhere makes the text longer
    have hsame := eq_of_scriptText_eq (fun q _ => by rw [Element.said_eq_cons]; simp)
      (fun q hq => (h.said_expandedIn hs hq _).1) htext.symm p hp
    exact (h.said_expandedIn hs hp _).2.1 hsame.symm
  · intro hkeeps
    have hsame : Tree.forestMapBelow
          (fun above e => (e.expandedIn d.templates above).said above.isEmpty) [] d.kept.widgets
        = Tree.forestMapBelow (fun above e => e.said above.isEmpty) [] d.kept.widgets :=
      Tree.forestMapBelow_congr fun p hp => (h.said_expandedIn hs hp _).2.2 (hkeeps p hp)
    rw [hsame]

end IsRead

/-- **Expanding and the text**: expanding the templates of a text leaves what is written for it
exactly when it leaves the block of each instance that is written: the instance has property lines of
its own, or its template nothing to write in their place; and the instance writes its id anyway, or
its template has no event. -/
theorem text_expanded_iff [Scalar α] (text : String) :
    (parsed text : Document α).expanded.text Config.standard = format α text
      ↔ ∀ p ∈ Tree.forestPaths [] (parsed text : Document α).kept.widgets,
          ∀ t ∈ Template.appliedTo? (parsed text : Document α).templates p.1 p.2.label,
            p.2.label.KeepsBlock p.1.isEmpty t :=
  (isRead_parsed text).text_expanded_eq_iff fun _ => isSound_of_mem_lines

/-- Texts with an instance whose block changes when its template is applied: one that has no property
lines of its own, and one that gets an event. -/
def changedByExpanding : List String :=
  ["Cell < UILabel\n  color: red\n\nPanel\n  id: p\n  Cell\n",
    "Ok < UIButton\n  @onClick: go()\n\nPanel\n  id: p\n  Ok\n    text: Ok\n"]

/-- These texts are formatted as themselves, and expanding their templates changes what is written. -/
theorem text_expanded_changedByExpanding :
    changedByExpanding.Forall fun text => format ℚ text = .ok text
      ∧ (parsed text : Document ℚ).expanded.text Config.standard ≠ .ok text := by
  have hinstance : changedByExpanding.Forall fun text => format ℚ text = .ok text
      ∧ (∀ e ∈ (parsed text : Document ℚ).elements, textOrEmpty e.id ≠ "")
      ∧ ¬ ∀ p ∈ Tree.forestPaths [] (parsed text : Document ℚ).widgets,
          ∀ t ∈ Template.appliedTo? (parsed text : Document ℚ).templates p.1 p.2.label,
            p.2.label.KeepsBlock p.1.isEmpty t := by
    decide +kernel
  refine hinstance.imp fun text ⟨hformat, hid, hchanged⟩ => ⟨hformat, fun htext => hchanged ?_⟩
  have hd := isRead_parsed (α := ℚ) text
  have hkeeps := (hd.text_expanded_eq_iff fun _ => isSound_of_mem_lines).1
    (htext.trans hformat.symm)
  rwa [hd.kept_eq_self hid] at hkeeps

end Document

end Otui
