import Otui.Proofs.FormattedDocuments
import Otui.Proofs.StoredBlocks

/-!
# Widgets that were built are read back

Widgets need not come from a text: an editor makes them with a type, an id and stored properties.
Written and read, such widgets come back with their types as written, their ids and their stored
properties, to which the id is added: `built_parsed`.
-/

namespace Otui

open Otui.Text Otui.Document

variable {α : Type} {lines : List Line}

/-! ### Widgets -/

/-- A widget as an editor builds it. -/
structure Element.IsBuilt (e : Element α) : Prop where
  /-- There is a type. -/
  type : e.type ≠ ""
  /-- The type as written is a name. -/
  surface : ∃ name, e.surface = some name ∧ IsWidgetName name
  /-- The id is a plain text and does not look generated. -/
  id : ∃ id, e.id = some id ∧ IsPlainText id ∧ looksGenerated id = false
  /-- The widget has no base. -/
  base : e.base = none
  /-- It is no instance of a template. -/
  template : e.template = none
  /-- It was not placed. -/
  placement : e.placement = none
  /-- No anchors are kept for it. -/
  anchors : e.anchors = none
  /-- No margins are kept for it. -/
  margins : e.margins = none
  /-- It does not come from a template. -/
  inherited : e.inherited = false
  /-- Its properties are stored. -/
  properties : e.properties.AreBuilt
  /-- It has no size, or both extents are stored. -/
  sized : e.sized = some false
    ∨ "width" ∈ e.properties.values.keys ∧ "height" ∈ e.properties.values.keys

/-- A widget that has the type as written, the id and the stored properties of another, the id among
the properties, and is no instance when the other is none. -/
structure Element.Recovers (e copy : Element α) : Prop where
  /-- The type as written is the same. -/
  surface : copy.surface = e.surface
  /-- The base is the same. -/
  base : copy.base = e.base
  /-- The template is the same. -/
  template : copy.template = e.template
  /-- The id is the same. -/
  id : copy.id = e.id
  /-- The stored properties are the same, the id apart. -/
  values : ∀ key, copy.properties.values.get? key
    = if key = "id" then e.id else e.properties.values.get? key

namespace Element.IsBuilt

variable {e : Element α} (h : e.IsBuilt)

include h

theorem isWritable : e.isWritable = true := by
  obtain ⟨id, hid, hplain, -⟩ := h.id
  simp [Element.isWritable, h.type, hid, textOrEmpty, hplain.plain.ne_empty]

/-- The block of a widget that was built has its header, its id and the lines for its stored
properties. -/
theorem exists_propertyBlock : ∃ name id ps, e.surface = some name ∧ e.id = some id
    ∧ (∀ isRoot, propertyBlock isRoot e
      = ⟨.header name none :: .id id :: (ps.map (keyedLine e.properties.written)).map pairSaid,
          coveredBy ps⟩)
    ∧ ps.Nodup
    ∧ ∀ q, q ∈ ps ↔ ∃ f ∈ e.properties.values.entries, storedLine e.properties.values f = q := by
  obtain ⟨id, hid, hplain, hgen⟩ := h.id
  obtain ⟨name, hname, c, cs, hcs, -⟩ := h.surface
  have hne : name ≠ "" := by
    rintro rfl
    cases hcs
  have hheader : header e = .header name none := by
    simp [header, h.template, h.base, displayType, hname, textOrEmpty, hne]
  have herase : e.properties.values.erase "id" = e.properties.values := by
    refine Ledger.ext_entries (List.filter_eq_self.2 fun f hf => ?_)
    simpa using (h.properties.reserved f.1 (Ledger.mem_keys hf)).1
  obtain ⟨ps, hps, hnodup, hmem⟩ :=
    h.properties.areTellable.exists_addValues [.header name none, .id id]
  refine ⟨name, id, ps, hname, hid, fun isRoot => ?_, hnodup, hmem⟩
  have hwrites : writesId isRoot e = true := by simp [writesId, hid, textOrEmpty, hgen]
  rw [propertyBlock, hheader, hwrites, h.properties.lines, herase, hid]
  exact hps

/-- Nothing is added to the block of a widget that was built. -/
theorem isComplete [Scalar α] (config : Config α) : e.IsComplete config := by
  intro isRoot
  obtain ⟨name, id, ps, -, -, hblock, -, hmem⟩ := h.exists_propertyBlock
  have hsized : (saysSize (propertyBlock isRoot e) || e.sized == some false) = true := by
    rcases h.sized with hs | ⟨hwidth, -⟩
    · simp [hs]
    · obtain ⟨f, hf, hkey⟩ := List.mem_map.1 hwidth
      have hcovered := (h.properties.areTellable.spelling_mem_covered_iff hf hf).2 rfl
      have hspelling : Key.spelling "width" = "width" := by decide
      rw [hkey, hspelling] at hcovered
      have hmemKeys : "width" ∈ (propertyBlock isRoot e).keys := by
        rw [hblock]
        exact List.mem_flatMap.2 ⟨_, (hmem _).2 ⟨f, hf, rfl⟩, hcovered⟩
      simp [saysSize, hmemKeys]
  refine IsCoveredBy.widgetBlock_eq ⟨hsized, h.placement, ?_, ?_⟩ config
  · simp [h.anchors]
  · rw [h.margins]
    exact fun _ hedge => absurd hedge List.not_mem_nil

/-- The block of a widget that was built can be read. -/
theorem isWidgetBlock (isRoot : Bool) : IsWidgetBlock (e.said isRoot) := by
  obtain ⟨id, hid, hplain, hgen⟩ := h.id
  obtain ⟨name, hname, hwidget⟩ := h.surface
  obtain ⟨name', id', ps, hname', hid', hblock, hnodup, hmem⟩ := h.exists_propertyBlock
  rw [hname, Option.some.injEq] at hname'
  rw [hid, Option.some.injEq] at hid'
  subst hname' hid'
  have hsettled := h.properties.areTellable.areSettled hnodup fun q hq => (hmem q).1 hq
  have hregular : IsRegular isRoot (e.said isRoot) := by
    refine ⟨name, [.id id], ps.map (keyedLine e.properties.written), ?_, hwidget, hsettled,
      fun q hq => ?_,
      .inr ⟨id, rfl, hplain.oneLine, by simp [hgen]⟩⟩
    · rw [Element.said, hblock]
      rfl
    · obtain ⟨r, hr, rfl⟩ := List.mem_map.1 hq
      obtain ⟨f, hf, rfl⟩ := (hmem r).1 hr
      exact h.properties.areTellable.stored_ne_id hf
  exact hregular.isWidgetBlock

/-- What is read back from the block of a widget that was built recovers the widget. -/
theorem recovers_of_isCopy {copy : Element α} (hcopy : e.IsCopy lines copy)
    (hfinished : copy.IsFinished lines []) : e.Recovers copy := by
  have htemplate : copy.template = none := hfinished.template
  obtain ⟨isRoot, ms, hcopy⟩ := hcopy
  obtain ⟨id, hid, hplain, -⟩ := h.id
  obtain ⟨name, id', ps, hname, hid', hblock, hnodup, hmem⟩ := h.exists_propertyBlock
  rw [hid, Option.some.injEq] at hid'
  subst hid'
  have htellable := h.properties.areTellable
  have hsettled := htellable.areSettled hnodup fun q hq => (hmem q).1 hq
  have hids : ∀ q ∈ ps.map (keyedLine e.properties.written), Key.stored q.1 ≠ "id" := by
    intro q hq
    obtain ⟨r, hr, rfl⟩ := List.mem_map.1 hq
    obtain ⟨f, hf, rfl⟩ := (hmem r).1 hr
    exact htellable.stored_ne_id hf
  obtain ⟨props, hprops, hms⟩ := hcopy.block
  rw [Element.said, hblock, List.cons.injEq] at hprops
  obtain ⟨hheader, rfl⟩ := hprops
  cases hms with
  | @cons _ m _ ms hm hms =>
    obtain ⟨hkey, hvalue, -⟩ : "id" = m.key ∧ stripQuotes (trim id) = m.value
        ∧ trim id = m.raw := by
      simpa [Said.ReadsAs, Said.content, Content.ofColon, OwnLine.content] using hm
    rw [hplain.plain.read_eq] at hvalue
    obtain ⟨hasRead, hvalues⟩ := hsettled.eq_of_readsAs hms
    have hread := hcopy.read
    rw [hsettled.counted_cons_eq hasRead hids hkey.symm] at hread
    have hpairs : m.pairs = [("id", id)] := by
      rw [OwnLine.pairs_of_none (by rw [← hkey]; decide), ← hkey, ← hvalue]
      simp [show Key.stored "id" = "id" by decide]
    have hentries : ∀ key v, copy.properties.values.get? key = some v
        ↔ key = "id" ∧ v = id ∨ e.properties.values.get? key = some v := by
      intro key v
      rw [Ledger.get?_eq_some_iff, Ledger.get?_eq_some_iff, hread.properties.entries_eq,
        List.flatMap_cons, hpairs, List.mem_append,
        htellable.mem_flatMap_pairs hmem hasRead hvalues,
        List.mem_singleton, Prod.mk.injEq]
    refine ⟨?_, ?_, ?_, ?_, fun key => Option.ext fun v => ?_⟩
    · obtain ⟨name', hname', -⟩ := hread.surface
      rw [hname', textOrEmpty, Option.getD_some] at hheader
      rw [hname', hname, (Said.header.inj hheader).1]
    · rw [hfinished.base, htemplate, h.base]
      rfl
    · rw [htemplate, h.template]
    · rw [hcopy.id_of_cons m ms rfl hkey.symm, ← hvalue, hid]
    · rw [hentries]
      by_cases hk : key = "id"
      · have hnone : e.properties.values.get? key = none :=
          Ledger.get?_of_not_mem fun hmem => (h.properties.reserved key hmem).1 hk
        rw [if_pos hk, hnone, hid]
        simp [hk, eq_comm]
      · rw [if_neg hk]
        simp [hk]

end Element.IsBuilt

/-! ### Documents -/

namespace Document

/-- Widgets that were built are written as a whole, and they bring no templates. -/
theorem kept_built {ws : List (Widget α)} (h : ∀ e ∈ Tree.forestLabels ws, e.IsBuilt) :
    (⟨ws, []⟩ : Document α).kept = ⟨ws, []⟩
      ∧ (⟨ws, []⟩ : Document α).writtenTemplates = firstTemplates [] := by
  refine ⟨?_, ?_⟩
  · rw [kept, Widget.kept_eq_self fun e he => ⟨(h e he).inherited, (h e he).isWritable⟩]
    rfl
  · rw [writtenTemplates, broughtTemplates_eq_nil, List.append_nil]
    intro w hw ref href
    rw [(h w.label (List.mem_map.2 ⟨w, hw, rfl⟩)).template] at href
    cases href

/-- **Reading undoes writing**: whatever the settings, widgets that were built are written, and
reading the text gives no template and, in a forest of the same shape, widgets that recover them. -/
theorem built_parsed [Scalar α] (config : Config α) {ws : List (Widget α)} (hne : ws ≠ [])
    (h : ∀ e ∈ Tree.forestLabels ws, e.IsBuilt) :
    ∃ s, (⟨ws, []⟩ : Document α).text config = .ok s
      ∧ (parsed s : Document α).templates = []
      ∧ Tree.Alike Element.Recovers ws (parsed s : Document α).widgets := by
  obtain ⟨hkept, htemplates⟩ := kept_built h
  have hscripts : (⟨ws, []⟩ : Document α).scripts = ws.map Widget.script := rfl
  have hblocks := blocks_eq config htemplates fun e he => by
    rw [hkept, elements, List.flatMap_nil, List.append_nil] at he
    exact (h e he).isComplete config
  rw [hkept, hscripts] at hblocks
  have hne' : ws.map Widget.script ≠ [] := by simpa using hne
  have htext : (⟨ws, []⟩ : Document α).text config = .ok (scriptText (ws.map Widget.script)) := by
    obtain ⟨b, bs, hb⟩ := List.exists_cons_of_ne_nil hne'
    rw [text_def, hblocks, hb]
    rfl
  have hnone : ∀ t ∈ ([] : List (Tree (List Said))), IsTemplateScript t := by simp
  obtain ⟨hts, hws⟩ := rereads_parsed (α := α) hnone
    (isWidgetBlock_scripts fun e he => (h e he).isWidgetBlock) hne'
  have htemplates := List.forall₂_nil_left_iff.1 hts
  have hread := isRead_parsed (α := α) (scriptText ([] ++ ws.map Widget.script))
  refine ⟨_, htext, htemplates, (isCopy_of_scripts hws).imp_of_mem fun e he copy hmem hcopy => ?_⟩
  have hfinished := hread.widgets copy hmem
  rw [htemplates] at hfinished
  exact (h e he).recovers_of_isCopy hcopy hfinished

/-- A window with a label whose size and text offset are stored. -/
def builtWindow : Widget Float :=
  .node
    { type := "UIWindow", surface := some "MainWindow", id := some "main"
      properties := { values := .ofList [("height", "300"), ("text", "My Window"), ("width", "400")] } }
    [.node
      { type := "UILabel", surface := some "Label", id := some "title", sized := some false
        properties :=
          { values := .ofList [("text-offset-x", "2"), ("anchors.centerin", "parent"),
              ("text-offset-y", "-3")] } }
      []]

theorem built_parsed_window :
    [builtWindow] ≠ [] ∧ (∀ e ∈ Tree.forestLabels [builtWindow], e.IsBuilt)
      ∧ ∃ s, (⟨[builtWindow], []⟩ : Document Float).text Config.standard = .ok s
        ∧ (parsed s : Document Float).templates = []
        ∧ Tree.Alike Element.Recovers [builtWindow] (parsed s : Document Float).widgets := by
  have hbuilt : ∀ e ∈ Tree.forestLabels [builtWindow], e.IsBuilt := by
    simp only [builtWindow, Tree.forestLabels_cons, Tree.forestLabels_nil, List.append_nil,
      List.mem_cons, List.not_mem_nil, or_false, forall_eq_or_imp, forall_eq]
    refine ⟨⟨by decide, ⟨"MainWindow", rfl, 'M', _, rfl, by decide, by decide⟩,
      ⟨"main", rfl, by decide, by decide⟩, rfl, rfl, rfl, rfl, rfl, rfl,
      ⟨rfl, rfl, areKeys_of_all (by decide), by decide, by decide, by decide, by decide⟩,
      .inr (by decide)⟩,
      ⟨by decide, ⟨"Label", rfl, 'L', _, rfl, by decide, by decide⟩,
      ⟨"title", rfl, by decide, by decide⟩, rfl, rfl, rfl, rfl, rfl, rfl,
      ⟨rfl, rfl, areKeys_of_all (by decide), by decide, by decide, by decide, by decide⟩, .inl rfl⟩⟩
  exact ⟨by simp, hbuilt, built_parsed Config.standard (by simp) hbuilt⟩

end Document

end Otui
