import Otui.Proofs.ExactScalar
import Otui.Proofs.FormattingLines
import Otui.Proofs.PlacedForests

/-!
# Formatting moves no widget

Where a widget stands depends on its measures, on its anchors and on the ids that these hook. When
the measures and anchors of a text are `AreSteady`, a widget that is read back has the same
(`placing_of_isCopy`); when a hook is kept by an id, it names the widget before and after. Then
formatting moves no widget (`placements_format`).
-/

namespace Otui

open Otui.Text Otui.Document

variable {α : Type} {lines : List Line}

/-! ### Lines for placing -/

namespace OwnLine

/-- Whether placing reads something that a line with a key can store. -/
def isForPlacing (key : String) : Bool := (Key.taken key).any Key.isPlacing

/-- What lines store of the properties that placing reads. -/
def placing (ls : List OwnLine) : List (String × String) :=
  (ls.flatMap pairs).filter fun a => Key.isPlacing a.1

theorem placing_cons (l : OwnLine) (ls : List OwnLine) :
    placing (l :: ls) = (l.pairs.filter fun a => Key.isPlacing a.1) ++ placing ls := by
  rw [placing, List.flatMap_cons, List.filter_append]
  rfl

/-- Only lines for placing store what placing reads. -/
theorem placing_filter (ls : List OwnLine) :
    placing (ls.filter fun l => isForPlacing l.key) = placing ls := by
  induction ls with
  | nil => rfl
  | cons l ls ih =>
    rw [List.filter_cons]
    split
    · rw [placing_cons, placing_cons, ih]
    · next hl =>
      have hnone : l.pairs.filter (fun a => Key.isPlacing a.1) = [] := by
        rw [List.filter_eq_nil_iff]
        intro a ha hplacing
        exact hl (List.any_eq_true.2 ⟨a.1, l.keys_pairs_subset (List.mem_map.2 ⟨a, ha, rfl⟩), hplacing⟩)
      rw [placing_cons, hnone, ih, List.nil_append]

/-- The line of an id is not for placing. -/
theorem placing_others (ls : List OwnLine) : placing (others ls) = placing ls := by
  rw [← placing_filter, ← placing_filter ls, others, List.filter_filter]
  congr 2
  funext l
  by_cases hid : Key.stored l.key = "id"
  · have hparts : Key.parts? l.key = none := Key.parts?_of_stored (by rw [hid]; decide)
    have hnot : isForPlacing l.key = false := by
      rw [isForPlacing, Key.taken_of_none hparts, hid]
      decide
    simp [hnot]
  · simp [hid]

/-- Lines with the same keys and values store the same. -/
theorem placing_congr {ls ks : List OwnLine}
    (h : ls.map (fun l => (l.key, l.value)) = ks.map fun l => (l.key, l.value)) :
    placing ls = placing ks := by
  have hpairs : ∀ ms : List OwnLine, ms.flatMap pairs
      = (ms.map fun l => (l.key, l.value)).flatMap fun a => pairs (a.1, a.2, a.2, 0) := by
    intro ms
    rw [List.flatMap_map]
    rfl
  rw [placing, placing, hpairs ls, hpairs ks, h]

end OwnLine

/-! ### Steady properties -/

/-- Properties of a text whose measures and anchors are written as they were read. -/
structure Properties.AreSteady (lines : List Line) (p : Properties) : Prop where
  /-- What is written for a line is read as its value. -/
  values : ∀ l ∈ p.lines, OwnLine.isForPlacing l.key = true → ∀ k ∈ lines,
    (k.number : Int) = l.line → ∀ value ∈ k.content.value?,
    value = stripQuotes (Block.writtenValue l.key l.value)
  /-- A width or a height is not left out for an earlier line for the size that did not count. -/
  sizes : p.lines.Pairwise fun l m => Key.stored l.key = "size" →
    ∀ key ∈ Key.taken m.key, key ≠ "width" ∧ key ≠ "height"
  /-- No anchor has two spellings. -/
  anchors : ∀ key ∈ p.values.keys, ∀ other ∈ p.values.keys, Key.isAnchor key = true →
    Key.isAnchor other = true → Key.anchorSpelling key = Key.anchorSpelling other → key = other

instance (lines : List Line) (p : Properties) : Decidable (p.AreSteady lines) :=
  decidable_of_iff
    ((∀ l ∈ p.lines, OwnLine.isForPlacing l.key = true → ∀ k ∈ lines, (k.number : Int) = l.line →
        ∀ value ∈ k.content.value?, value = stripQuotes (Block.writtenValue l.key l.value))
      ∧ (p.lines.Pairwise fun l m => Key.stored l.key = "size" →
        ∀ key ∈ Key.taken m.key, key ≠ "width" ∧ key ≠ "height")
      ∧ ∀ key ∈ p.values.keys, ∀ other ∈ p.values.keys, Key.isAnchor key = true →
        Key.isAnchor other = true → Key.anchorSpelling key = Key.anchorSpelling other → key = other)
    ⟨fun h => ⟨h.1, h.2.1, h.2.2⟩, fun h => ⟨h.values, h.sizes, h.anchors⟩⟩

/-- A line for placing is not left out for an earlier one for a size or an offset of the text, when
no width and no height comes after a size. -/
theorem Key.unsaid_of_compound {earlier later first second : String}
    (hc : Key.parts? (Key.stored earlier) = some (first, second))
    (hl : OwnLine.isForPlacing later = true)
    (hsize : Key.stored earlier = "size" → ∀ key ∈ Key.taken later, key ≠ "width" ∧ key ≠ "height") :
    Key.Unsaid earlier later := by
  intro hmem
  obtain ⟨key, hkey, hplacing⟩ := List.any_eq_true.1 hl
  rw [Block.covered_of_some hc] at hmem
  cases hm : Key.parts? later with
  | some cd =>
    obtain ⟨third, fourth⟩ := cd
    rw [Key.stored_compound hm, Key.spelling_of_not_isAnchor (Key.compound_plain hm).1] at hmem
    rw [Key.taken_of_some hm] at hkey hsize
    rcases Key.parts?_eq_some hm with ⟨rfl, rfl, rfl⟩ | ⟨rfl, rfl, rfl⟩
    · rcases Key.parts?_eq_some hc with ⟨hs, rfl, rfl⟩ | ⟨hs, rfl, rfl⟩
      · exact (hsize hs "width" (by simp)).1 rfl
      · rw [hs] at hmem
        revert hmem
        decide
    · have hnot : ∀ k ∈ ["text-offset-x", "text-offset-y"], Key.isPlacing k = false := by decide
      rw [hnot key hkey] at hplacing
      cases hplacing
  | none =>
    rw [Key.taken_of_none hm, List.mem_singleton] at hkey
    rw [Key.taken_of_none hm] at hsize
    subst hkey
    -- none of the keys that are covered is spelled in another way
    have hsame : ∀ key, Key.isAnchor key = false → Key.spelling (Key.stored later) = key →
        Key.stored later = key := fun _ ha h => Key.eq_of_spelling_eq ha h
    rcases Key.parts?_eq_some hc with ⟨hs, rfl, rfl⟩ | ⟨hs, rfl, rfl⟩
    · simp only [hs, List.mem_cons, List.not_mem_nil, or_false] at hmem
      rcases hmem with h | h | h
      · rw [hsame "size" (by decide) h] at hplacing
        revert hplacing
        decide
      · exact (hsize hs _ (by simp)).1 (hsame "width" (by decide) h)
      · exact (hsize hs _ (by simp)).2 (hsame "height" (by decide) h)
    · have hnot : ∀ key ∈ ["text-offset", "text-offset-x", "text-offset-y"],
          Key.isAnchor key = false ∧ Key.isPlacing key = false := by decide
      rw [hs] at hmem
      obtain ⟨hanchor, hfalse⟩ := hnot _ hmem
      rw [hsame _ hanchor rfl] at hplacing
      rw [hfalse] at hplacing
      cases hplacing

/-! ### Copies -/

namespace Properties.AreSteady

variable {p : Properties} {ls : List OwnLine}

/-- Steady lines for placing are kept. -/
theorem filter_keptFrom (h : p.AreSteady lines) (hr : p.ReadFrom lines ls) {ks : List OwnLine}
    (hk : ks.Sublist ls) :
    (OwnLine.keptFrom [] ks).filter (fun l => OwnLine.isForPlacing l.key)
      = ks.filter fun l => OwnLine.isForPlacing l.key := by
  have hsizes : ls.Pairwise fun l m => Key.stored l.key = "size" →
      ∀ key ∈ Key.taken m.key, key ≠ "width" ∧ key ≠ "height" := by
    have := h.sizes
    rwa [hr.lines_eq, List.pairwise_map] at this
  refine OwnLine.filter_keptFrom _ (by simp) ?_
  refine ((hr.unblocked.passes.and hsizes).sublist hk).imp_of_mem ?_
  rintro l m hl hm ⟨hpass, hsize⟩ hplacing
  have hl' := hk.subset hl
  have hm' := hk.subset hm
  cases hc : Key.parts? (Key.stored l.key) with
  | none =>
    exact Key.unsaid_of_plain hpass hc fun hal ham =>
      h.anchors _ (hr.isAnchor_mem_keys hl' hal) _ (hr.isAnchor_mem_keys hm' ham) hal ham
  | some ab => exact Key.unsaid_of_compound hc hplacing hsize

/-- The lines that are kept of steady properties store what placing reads, as they are written. -/
theorem placing_eq (h : p.AreSteady lines) (hr : p.ReadFrom lines ls) {ks : List OwnLine}
    (hks : (OwnLine.others ks).map OwnLine.asRead
      = (OwnLine.keptFrom [] (OwnLine.others ls)).map OwnLine.written)
    (hvalues : ∀ k ∈ OwnLine.others ks, k.value = stripQuotes k.raw) :
    OwnLine.placing ks = OwnLine.placing ls := by
  rw [← OwnLine.placing_others, ← OwnLine.placing_others ls, ← OwnLine.placing_filter,
    ← OwnLine.placing_filter (OwnLine.others ls)]
  have hfilter : ((OwnLine.others ks).filter fun l => OwnLine.isForPlacing l.key).map OwnLine.asRead
      = ((OwnLine.others ls).filter fun l => OwnLine.isForPlacing l.key).map OwnLine.written := by
    have hboth := congrArg (List.filter fun a => OwnLine.isForPlacing a.1) hks
    rw [List.filter_map, List.filter_map] at hboth
    rw [← h.filter_keptFrom hr (OwnLine.others_sublist ls)]
    exact hboth
  refine OwnLine.placing_congr ?_
  calc ((OwnLine.others ks).filter fun l => OwnLine.isForPlacing l.key).map
        (fun l => (l.key, l.value))
      = (((OwnLine.others ks).filter fun l => OwnLine.isForPlacing l.key).map OwnLine.asRead).map
          fun a => (a.1, stripQuotes a.2) := by
        rw [List.map_map]
        exact List.map_congr_left fun k hk =>
          congrArg (Prod.mk k.key) (hvalues k (List.mem_filter.1 hk).1)
    _ = (((OwnLine.others ls).filter fun l => OwnLine.isForPlacing l.key).map OwnLine.written).map
          fun a => (a.1, stripQuotes a.2) := by rw [hfilter]
    _ = ((OwnLine.others ls).filter fun l => OwnLine.isForPlacing l.key).map
          fun l => (l.key, l.value) := by
        rw [List.map_map]
        refine List.map_congr_left fun l hl => congrArg (Prod.mk l.key) ?_
        obtain ⟨hl, hplacing⟩ := List.mem_filter.1 hl
        have hmem := (OwnLine.others_sublist ls).subset hl
        exact (hr.value_of hmem (h.values l.entry (hr.entry_mem hmem) hplacing)).symm

end Properties.AreSteady

/-- A copy of a widget with steady properties has the same measures and anchors. -/
theorem placing_of_isCopy {e copy : Element α} {origin : List Line}
    {templates : List (Template α)} (h : e.IsCopy lines copy) (he : e.IsFinished origin templates)
    (hs : ∀ k ∈ origin, k.content.IsSound) (hp : e.properties.AreSteady origin) :
    copy.properties.placing = e.properties.placing := by
  obtain ⟨ls, hr⟩ := he.read
  obtain ⟨ks, hks, -, -, hlines, hvalues⟩ := h.spec he hs hr
  rw [Properties.placing, Properties.placing, hks.properties.entries_eq, hr.properties.entries_eq]
  exact hp.placing_eq hr.properties hlines hvalues

/-! ### Hooks -/

/-- A hook names a widget after formatting if it does before, and only then: an id that looks
generated is not named, and any other is named as it will be read. -/
def Element.KeepsHook (e : Element α) (hook : String) : Prop :=
  looksGenerated (lower hook) = false
    ∧ ∀ id ∈ e.id, (lower id = lower hook ↔ lower (stripQuotes (trim id)) = lower hook)
      ∧ (looksGenerated id = true → lower id ≠ lower hook)

instance (e : Element α) (hook : String) : Decidable (e.KeepsHook hook) :=
  inferInstanceAs (Decidable (_ ∧ _))

/-- A hook that is kept names a copy if and only if it names the original. -/
theorem isNamed_eq [Scalar α] {e copy : Element α} (h : IdsAgree e copy) {hook : String}
    (hk : e.KeepsHook hook) :
    (Box.ofElement e).isNamed hook = (Box.ofElement copy).isNamed hook := by
  obtain ⟨v, w, hv, hw, hids⟩ := h
  obtain ⟨hlooks, hnames⟩ := hk
  obtain ⟨hread, hgenerated⟩ := hnames v hv
  simp only [Box.isNamed, Box.ofElement, hv, hw, Option.map_some]
  rw [Bool.eq_iff_iff, beq_iff_eq, beq_iff_eq, Option.some.injEq, Option.some.injEq]
  rcases hids with rfl | ⟨hv', hw'⟩
  · exact hread
  · refine ⟨fun hlower => absurd hlower (hgenerated hv'), fun hlower => ?_⟩
    rw [← hlower, hw'.lower, hw'.looks] at hlooks
    cases hlooks

/-! ### Formatting -/

namespace Document

/-- A copy of a widget with steady properties is placed like the widget. -/
theorem isPlacedLike_of_isCopy [Scalar α] {e copy : Element α} {origin : List Line}
    {templates : List (Template α)} (h : e.IsCopy lines copy) (he : e.IsFinished origin templates)
    (hs : ∀ k ∈ origin, k.content.IsSound) (hp : e.properties.AreSteady origin) :
    e.IsPlacedLike Element.KeepsHook copy where
  placing := (placing_of_isCopy h he hs hp).symm
  named _ hk := by
    obtain ⟨ls, hr⟩ := he.read
    obtain ⟨_, -, -, hids, -⟩ := h.spec he hs hr
    exact isNamed_eq hids hk

/-- A copy of a widget has its type as written. -/
theorem surface_of_isCopy {e copy : Element α} {origin : List Line}
    {templates : List (Template α)} (h : e.IsCopy lines copy) (he : e.IsFinished origin templates)
    (hs : ∀ k ∈ origin, k.content.IsSound) : copy.surface = e.surface := by
  obtain ⟨ls, hr⟩ := he.read
  obtain ⟨_, -, hsurface, -⟩ := h.spec he hs hr
  exact hsurface

/-- What is written when there is nothing to write is read as no widgets. -/
theorem widgets_starter : (parsed (scriptText [starterScript]) : Document α).widgets = [] := by
  obtain ⟨-, hwidgets⟩ := rereads_parsed (α := α) areSettledScripts_starter.isTemplateScript
    areSettledScripts_starter.isWidgetBlock (by simp)
  exact hwidgets.eq_nil

/-- **Formatting moves no widget**: when no id of a text is empty, the measures and anchors of its
widgets are steady and the hooks among them are kept, formatting it gives a text with the same
forest of widgets, each of which stands where it stood. -/
theorem placements_format [Scalar α] (text : String)
    (hid : ∀ e ∈ (parsed text : Document α).elements, e.id ≠ some "")
    (hlines : ∀ e ∈ Tree.forestLabels (parsed text : Document α).widgets,
      e.properties.AreSteady (Document.lines text))
    (hooks : HooksHave Element.KeepsHook (parsed text : Document α).widgets) :
    ∃ s, format α text = .ok s
      ∧ Tree.forestMap Element.surface (parsed s : Document α).widgets
        = Tree.forestMap Element.surface (parsed text : Document α).widgets
      ∧ ∀ (config : Config α) (origin : α × α),
        (layout config origin (parsed s).widgets).toExcept.map
            (fun r => Tree.forestMap Element.placement r.value)
          = (layout config origin (parsed text).widgets).toExcept.map
            fun r => Tree.forestMap Element.placement r.value := by
  have hd := isRead_parsed (α := α) text
  have hs : ∀ k ∈ Document.lines text, k.content.IsSound := fun _ => isSound_of_mem_lines
  have hid' := hd.textOrEmpty_id_ne hid
  by_cases hne : (parsed text : Document α).scripts = []
  · have hformat := format_eq text hid'
    have hnone : (parsed text : Document α).widgets = [] := by
      rw [scripts, List.append_eq_nil_iff, List.map_eq_nil_iff, List.map_eq_nil_iff] at hne
      exact hne.2
    rw [if_pos hne] at hformat
    refine ⟨_, hformat, ?_, fun config origin => ?_⟩
    · rw [widgets_starter, hnone]
    · rw [widgets_starter, hnone]
  · obtain ⟨s, hformat, hwidgets, -⟩ := isCopy_parsed hid' hne
    have hfinished : ∀ e ∈ Tree.forestLabels (parsed text : Document α).widgets,
        e.IsFinished (Document.lines text) (parsed text : Document α).templates :=
      fun e he => hd.isFinished e (List.mem_append_left _ he)
    refine ⟨s, hformat, ?_, fun config origin => ?_⟩
    · exact Tree.Alike.forestMap_eq (hwidgets.imp_of_mem fun e he c _ hec =>
        surface_of_isCopy hec (hfinished e he) hs)
    · exact placements_layout config origin (hwidgets.imp_of_mem fun e he c _ hec =>
        isPlacedLike_of_isCopy hec (hfinished e he) hs (hlines e he)) hooks

/-- A panel with a button, and a label that hangs on the button by its id. -/
theorem placements_format_panel :
    ∃ s, format Float "Panel\n  Button\n    id: ok\n  Label\n    anchors.left: ok.right\n" = .ok s
      ∧ Tree.forestMap Element.surface (parsed s : Document Float).widgets
        = Tree.forestMap Element.surface
          (parsed "Panel\n  Button\n    id: ok\n  Label\n    anchors.left: ok.right\n"
            : Document Float).widgets
      ∧ ∀ (config : Config Float) (origin : Float × Float),
        (layout config origin (parsed s).widgets).toExcept.map
            (fun r => Tree.forestMap Element.placement r.value)
          = (layout config origin
              (parsed "Panel\n  Button\n    id: ok\n  Label\n    anchors.left: ok.right\n").widgets).toExcept.map
            fun r => Tree.forestMap Element.placement r.value :=
  placements_format _ (by decide +kernel) (by decide +kernel) (by decide +kernel)

/-! ### Texts with widgets that move -/

/-- The placements of the widgets of a text in exact coordinates, depth first. -/
def placements (text : String) : Option (List (Option (Placement ℚ))) :=
  ((layout Config.standard (0, 0) (parsed text).widgets).toExcept.map fun r =>
    (Tree.forestLabels r.value).map Element.placement).toOption

/-- Texts in which one thing is not steady each: a hook that looks generated, an id in quotes, a
width with a mark, a size with one part before a width, and an anchor in two spellings. -/
def unsteadyTexts : List String :=
  ["Panel\n  Button\n    id: a_1\n  Button\n    anchors.left: a_1.right\n",
    "Panel\n  Button\n    id: ' a'\n  Button\n    anchors.left: a.right\n",
    "Panel\n  !width: 50\n",
    "Panel\n  size: 5\n  width: 30\n",
    "Panel\n  Button\n    anchors.centerin: a\n    anchors.centerIn: parent\n"]

/-- Formatting moves widgets of texts that are not steady, though their ids are distinct and not
empty. -/
theorem placements_unsteadyTexts :
    unsteadyTexts.Forall fun text =>
      ((parsed text : Document ℚ).elements.map Element.id).Nodup
        ∧ (∀ e ∈ (parsed text : Document ℚ).elements, e.id ≠ some "")
        ∧ ∃ s ∈ (format ℚ text).toOption, placements s ≠ placements text := by
  decide +kernel

end Document

end Otui
