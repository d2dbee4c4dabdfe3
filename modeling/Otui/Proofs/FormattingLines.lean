import Otui.Proofs.FormattedDocuments

/-!
# Formatting loses no widget and no property line

A view of a document has its widgets and templates with their property lines, and leaves out ids and
everything that is only computed from the lines. When the properties of a text are `AreWhole`, the
formatted text is read as a document with the same view, in which the values of marked keys are calls
(`view_format`). Lines that are whole are all kept when they are written: `keptFrom_of_areWhole`.
-/

namespace Otui

open Otui.Text Otui.Document

variable {α : Type} {lines : List Line}

/-! ### Views -/

/-- The property lines without those for the id, each with a value made of its key and its value. -/
def Properties.lineView (value : String → String → String) (p : Properties) :
    List (String × String) :=
  (p.lines.filter fun l => l.key != "id" && l.key != "!id").map fun l => (l.key, value l.key l.value)

/-- What a document says of a widget. -/
structure WidgetView where
  /-- The type as written. -/
  type : Option String
  /-- The template that the widget is an instance of. -/
  template : Option TemplateRef
  /-- The property lines. -/
  lines : List (String × String)
  deriving DecidableEq

/-- What a document says of a template. -/
structure TemplateView where
  /-- The name. -/
  name : String
  /-- The base as declared. -/
  base : String
  /-- The property lines. -/
  lines : List (String × String)
  /-- The widgets of the body. -/
  body : List (Tree WidgetView)

/-- The view of a widget. -/
def Element.view (value : String → String → String) (e : Element α) : WidgetView :=
  ⟨e.surface, e.template, e.properties.lineView value⟩

/-- The view of a template. -/
def Template.view (value : String → String → String) (t : Template α) : TemplateView :=
  ⟨t.name, t.base, t.properties.lineView value, Tree.forestMap (Element.view value) t.children⟩

/-- The view of a document: its root widgets and its templates. -/
def Document.view (value : String → String → String) (d : Document α) :
    List (Tree WidgetView) × List TemplateView :=
  (Tree.forestMap (Element.view value) d.widgets, d.templates.map (Template.view value))

theorem Key.stored_eq_id_iff {key : String} : Key.stored key = "id" ↔ key = "id" ∨ key = "!id" := by
  constructor
  · intro h
    rcases Key.eq_stored_or key with he | he
    · exact .inl (he.trans h)
    · refine .inr (he.trans ?_)
      rw [h]
      rfl
  · rintro (rfl | rfl) <;> decide

/-- The lines that are not for the id can be seen from their keys. -/
theorem OwnLine.map_others {f : OwnLine → String × String} (hf : ∀ l, (f l).1 = l.key)
    (ls : List OwnLine) :
    (OwnLine.others ls).map f = (ls.map f).filter fun p => Key.stored p.1 != "id" := by
  rw [OwnLine.others, List.filter_map]
  simp only [Function.comp_def, hf]

/-- The view of lines is that of the lines that are not for the id. -/
theorem Properties.ReadFrom.lineView_eq {p : Properties} {ls : List OwnLine}
    (h : p.ReadFrom lines ls) (value : String → String → String) :
    p.lineView value = (OwnLine.others ls).map fun l => (l.key, value l.key l.raw) := by
  have hfilter : ∀ l : OwnLine, (l.key != "id" && l.key != "!id") = (Key.stored l.key != "id") := by
    intro l
    rw [Bool.eq_iff_iff]
    simp [Key.stored_eq_id_iff]
  rw [Properties.lineView, h.lines_eq, List.filter_map, List.map_map, OwnLine.others]
  simp only [Function.comp_def, OwnLine.entry_key, hfilter]
  rfl

/-! ### Lines that are all written -/

/-- The value of a property line, without quotes where they do not belong to it. -/
def Document.Content.value? : Content → Option String
  | .property _ value _ => some value
  | _ => none

namespace Properties.ReadFrom

variable {p : Properties} {ls : List OwnLine}

theorem entry_mem (h : p.ReadFrom lines ls) {l : OwnLine} (hl : l ∈ ls) : l.entry ∈ p.lines := by
  rw [h.lines_eq]
  exact List.mem_map.2 ⟨l, hl, rfl⟩

/-- What holds of the value of the line of the text holds of the value that was read. -/
theorem value_of {P : String → Prop} (h : p.ReadFrom lines ls) {l : OwnLine} (hl : l ∈ ls)
    (hP : ∀ k ∈ lines, (k.number : Int) = l.entry.line → ∀ value ∈ k.content.value?, P value) :
    P l.value := by
  obtain ⟨k, hk, hnumber, hcontent⟩ := h.among l hl
  refine hP k hk ?_ l.value ?_
  · rw [hnumber]
    rfl
  · rw [hcontent]
    rfl

theorem isAnchor_mem_keys (h : p.ReadFrom lines ls) {l : OwnLine} (hl : l ∈ ls)
    (ha : Key.isAnchor (Key.stored l.key) = true) : Key.stored l.key ∈ p.values.keys := by
  have hparts : Key.parts? l.key = none := by
    cases hp : Key.parts? l.key with
    | none => rfl
    | some ab =>
      obtain ⟨first, second⟩ := ab
      rw [Key.stored_compound hp, (Key.compound_plain hp).1] at ha
      cases ha
  rw [Ledger.keys_eq, h.entries_eq]
  refine List.mem_map.2 ⟨(Key.stored l.key, l.value), List.mem_flatMap.2 ⟨l, hl, ?_⟩, rfl⟩
  rw [OwnLine.pairs_of_none hparts]
  exact List.mem_singleton_self _

end Properties.ReadFrom

/-- Properties of a text of which no line is left out when they are written. -/
structure Properties.AreWhole (lines : List Line) (p : Properties) : Prop where
  /-- A line for two properties has two parts. -/
  parts : ∀ l ∈ p.lines, (Key.parts? l.key).isSome = true → ∀ k ∈ lines, (k.number : Int) = l.line →
    ∀ value ∈ k.content.value?, 2 ≤ (words value).length
  /-- A key that stands for two properties has no mark. -/
  unmarked : ∀ l ∈ p.lines, l.key ≠ "!size" ∧ l.key ≠ "!text-offset"
  /-- No anchor has two spellings. -/
  anchors : ∀ key ∈ p.values.keys, ∀ other ∈ p.values.keys, Key.isAnchor key = true →
    Key.isAnchor other = true → Key.anchorSpelling key = Key.anchorSpelling other → key = other

instance (lines : List Line) (p : Properties) : Decidable (p.AreWhole lines) :=
  decidable_of_iff
    ((∀ l ∈ p.lines, (Key.parts? l.key).isSome = true → ∀ k ∈ lines, (k.number : Int) = l.line →
        ∀ value ∈ k.content.value?, 2 ≤ (words value).length)
      ∧ (∀ l ∈ p.lines, l.key ≠ "!size" ∧ l.key ≠ "!text-offset")
      ∧ ∀ key ∈ p.values.keys, ∀ other ∈ p.values.keys, Key.isAnchor key = true →
        Key.isAnchor other = true → Key.anchorSpelling key = Key.anchorSpelling other → key = other)
    ⟨fun h => ⟨h.1, h.2.1, h.2.2⟩, fun h => ⟨h.parts, h.unmarked, h.anchors⟩⟩

namespace Properties.AreWhole

variable {p : Properties} {ls : List OwnLine}

theorem two_words (h : p.AreWhole lines) (hr : p.ReadFrom lines ls) {l : OwnLine} (hl : l ∈ ls)
    (hp : (Key.parts? l.key).isSome = true) : 2 ≤ (words l.value).length :=
  hr.value_of hl (h.parts l.entry (hr.entry_mem hl) hp)

/-- Lines that are whole are all kept. -/
theorem keptFrom_eq (h : p.AreWhole lines) (hr : p.ReadFrom lines ls) {ks : List OwnLine}
    (hk : ks.Sublist ls) : OwnLine.keptFrom [] ks = ks := by
  have hunmarked : ∀ l ∈ ls, l.key ≠ "!size" ∧ l.key ≠ "!text-offset" :=
    fun l hl => h.unmarked l.entry (hr.entry_mem hl)
  refine OwnLine.keptFrom_eq_self ((hr.unblocked.passes.sublist hk).imp_of_mem ?_)
  intro l m hl hm hpass
  have hl' := hk.subset hl
  have hm' := hk.subset hm
  exact Key.unsaid_of_passes hpass (h.two_words hr hl') (hunmarked l hl') (hunmarked m hm')
    fun hal ham => h.anchors _ (hr.isAnchor_mem_keys hl' hal) _ (hr.isAnchor_mem_keys hm' ham) hal ham

end Properties.AreWhole

/-! ### Formatting -/

namespace Document

/-- The properties of the widgets and the templates of a document. -/
def propertySets (d : Document α) : List Properties :=
  d.elements.map Element.properties ++ d.templates.map Template.properties

/-- A copy of a template has its name and its base. -/
theorem name_base_of_isCopy {t copy : Template α} (h : t.IsCopy lines copy)
    {origin : List Line} (hs : ∀ k ∈ origin, k.content.IsSound) {ls : List OwnLine}
    (hr : t.ReadFrom origin ls) : copy.name = t.name ∧ copy.base = t.base := by
  obtain ⟨⟨ms, hcopy⟩, -⟩ := h
  obtain ⟨props, hprops, -⟩ := hcopy.block
  rw [hr.said_eq hs, List.cons.injEq] at hprops
  obtain ⟨hname, hbase⟩ := Said.header.inj hprops.1
  exact ⟨hname.symm, (Option.some.inj hbase).symm⟩

/-- A copy of a template has its lines, when they are whole. -/
theorem lineView_of_isCopy {t copy : Template α} (h : t.IsCopy lines copy) {origin : List Line}
    (hs : ∀ k ∈ origin, k.content.IsSound) {ls : List OwnLine} (hr : t.ReadFrom origin ls)
    (hw : t.properties.AreWhole origin) :
    copy.properties.lineView (fun _ value => value)
      = t.properties.lineView Block.writtenValue := by
  obtain ⟨⟨ms, hcopy⟩, -⟩ := h
  obtain ⟨props, hprops, hms⟩ := hcopy.block
  have hsettled := OwnLine.areSettled_kept hr.properties.unblocked (hr.properties.isSound hs)
  rw [hr.said_eq hs, List.cons.injEq] at hprops
  obtain ⟨-, rfl⟩ := hprops
  rw [show (OwnLine.keptFrom [] ls).map OwnLine.said
    = ((OwnLine.keptFrom [] ls).map OwnLine.written).map pairSaid by rw [List.map_map]; rfl] at hms
  obtain ⟨hasRead, -⟩ := hsettled.eq_of_readsAs hms
  have hread := hcopy.read
  rw [hsettled.counted_eq hasRead] at hread
  rw [hread.properties.lineView_eq, hr.properties.lineView_eq]
  rw [hw.keptFrom_eq hr.properties (List.Sublist.refl _)] at hasRead
  calc (OwnLine.others ms).map OwnLine.asRead
      = (ms.map OwnLine.asRead).filter fun p => Key.stored p.1 != "id" :=
        OwnLine.map_others (fun _ => rfl) ms
    _ = (ls.map OwnLine.written).filter fun p => Key.stored p.1 != "id" := by rw [hasRead]
    _ = (OwnLine.others ls).map OwnLine.written := (OwnLine.map_others (fun _ => rfl) ls).symm

/-- A copy of a widget has its view, when its lines are whole. -/
theorem view_of_isCopy {e copy : Element α} {origin : List Line}
    {templates copies : List (Template α)} (h : e.IsCopy lines copy)
    (he : e.IsFinished origin templates) (hc : copy.IsFinished lines copies)
    (hs : ∀ k ∈ origin, k.content.IsSound) (hw : e.properties.AreWhole origin)
    (hrefs : ∀ name, refAmong copies name = refAmong templates name) :
    copy.view (fun _ value => value) = e.view Block.writtenValue := by
  obtain ⟨ls, hr⟩ := he.read
  obtain ⟨ks, hks, hsurface, -, hlines, -⟩ := h.spec he hs hr
  rw [hw.keptFrom_eq hr.properties (OwnLine.others_sublist ls)] at hlines
  rw [Element.view, Element.view, WidgetView.mk.injEq, hks.properties.lineView_eq,
    hr.properties.lineView_eq, he.template, hc.template, hsurface, hrefs]
  exact ⟨rfl, rfl, hlines⟩

/-- Forests of copies have the same views, when all lines are whole. -/
theorem forestMap_view {d copy : Document α} {origin : List Line} (hd : d.IsRead origin)
    (hcopy : copy.IsRead lines) (hs : ∀ k ∈ origin, k.content.IsSound)
    (hw : ∀ p ∈ d.propertySets, p.AreWhole origin)
    (hrefs : ∀ name, refAmong copy.templates name = refAmong d.templates name)
    {ts us : List (Widget α)} (h : Tree.Alike (Element.IsCopy lines) ts us)
    (ht : ∀ e ∈ Tree.forestLabels ts, e ∈ d.elements)
    (hu : ∀ e ∈ Tree.forestLabels us, e ∈ copy.elements) :
    Tree.forestMap (Element.view fun _ value => value) us
      = Tree.forestMap (Element.view Block.writtenValue) ts := by
  refine Tree.Alike.forestMap_eq (h.imp_of_mem fun e he c hc hec => ?_)
  refine view_of_isCopy hec (hd.isFinished e (ht e he)) (hcopy.isFinished c (hu c hc)) hs ?_ hrefs
  exact hw _ (List.mem_append_left _ (List.mem_map.2 ⟨e, ht e he, rfl⟩))

theorem map_eq_of_forall₂ {β γ δ : Type} {R : β → γ → Prop} {f : β → δ} {g : γ → δ} {xs : List β}
    {ys : List γ} (h : List.Forall₂ R xs ys) (hfg : ∀ x ∈ xs, ∀ y ∈ ys, R x y → g y = f x) :
    ys.map g = xs.map f := by
  induction h with
  | nil => rfl
  | cons hr _ ih =>
    rw [List.map_cons, List.map_cons, hfg _ (by simp) _ (by simp) hr,
      ih fun x hx y hy => hfg x (by simp [hx]) y (by simp [hy])]

/-- In a copy of a document names refer to the same templates. -/
theorem refAmong_eq {d copy : Document α} {origin : List Line} (hd : d.IsRead origin)
    (hcopy : copy.IsRead lines) (hs : ∀ k ∈ origin, k.content.IsSound)
    (h : List.Forall₂ (Template.IsCopy lines) d.templates copy.templates) (name : String) :
    refAmong copy.templates name = refAmong d.templates name := by
  have hpairs : copy.templates.map (fun t => (t.name, t.base))
      = d.templates.map fun t => (t.name, t.base) :=
    map_eq_of_forall₂ h fun t ht u _ htu => by
      obtain ⟨ls, hls⟩ := hd.templates t ht
      obtain ⟨hname, hbase⟩ := name_base_of_isCopy htu hs hls
      rw [hname, hbase]
  exact refAmong_congr (map_instanceBase_eq hcopy.bases hd.bases hpairs) name

/-- **Formatting keeps widgets and lines**: when a text has something to write, the names of its
templates are distinct, no id is empty and its property lines are whole, formatting it gives a text
that is read as a document with the same view. -/
theorem view_format [Scalar α] (text : String)
    (hsome : (parsed text : Document α).widgets ≠ [] ∨ (parsed text : Document α).templates ≠ [])
    (hnames : ((parsed text : Document α).templates.map Template.name).Nodup)
    (hid : ∀ e ∈ (parsed text : Document α).elements, e.id ≠ some "")
    (hlines : ∀ p ∈ (parsed text : Document α).propertySets, p.AreWhole (Document.lines text)) :
    ∃ s, format α text = .ok s
      ∧ (parsed s : Document α).view (fun _ value => value)
        = (parsed text : Document α).view Block.writtenValue := by
  have hd := isRead_parsed (α := α) text
  have hs : ∀ k ∈ Document.lines text, k.content.IsSound := fun _ => isSound_of_mem_lines
  have hid' := hd.textOrEmpty_id_ne hid
  have hne : (parsed text : Document α).scripts ≠ [] := by
    rw [scripts, firstTemplates_eq_self hnames]
    simp only [ne_eq, List.append_eq_nil_iff, List.map_eq_nil_iff, not_and_or]
    exact hsome.symm
  obtain ⟨s, hformat, hwidgets, htemplates⟩ := isCopy_parsed hid' hne
  rw [firstTemplates_eq_self hnames] at htemplates
  have hcopy := isRead_parsed (α := α) s
  have hrefs := refAmong_eq hd hcopy hs htemplates
  have hforest : ∀ {ts us : List (Widget α)}, Tree.Alike (Element.IsCopy (Document.lines s)) ts us →
      (∀ e ∈ Tree.forestLabels ts, e ∈ (parsed text : Document α).elements) →
      (∀ e ∈ Tree.forestLabels us, e ∈ (parsed s : Document α).elements) →
      Tree.forestMap (Element.view fun _ value => value) us
        = Tree.forestMap (Element.view Block.writtenValue) ts :=
    forestMap_view hd hcopy hs hlines hrefs
  refine ⟨s, hformat, Prod.ext ?_ ?_⟩
  · exact hforest hwidgets (fun e he => List.mem_append_left _ he)
      fun e he => List.mem_append_left _ he
  · refine map_eq_of_forall₂ htemplates fun t ht u hu htu => ?_
    obtain ⟨ls, hls⟩ := hd.templates t ht
    obtain ⟨hname, hbase⟩ := name_base_of_isCopy htu hs hls
    have hview := lineView_of_isCopy htu hs hls
      (hlines _ (List.mem_append_right _ (List.mem_map.2 ⟨t, ht, rfl⟩)))
    have hbody := hforest htu.2
      (fun e he => List.mem_append_right _ (List.mem_flatMap.2 ⟨t, ht, he⟩))
      fun e he => List.mem_append_right _ (List.mem_flatMap.2 ⟨u, hu, he⟩)
    rw [Template.view, Template.view, hname, hbase, hview, hbody]

/-- A template, and a window with an instance of it. -/
theorem view_format_instance :
    ∃ s, format Float ("Box < UIWidget\n  size: 20 30\n"
          ++ "Window\n  id: main\n  Box\n    !text: hi\n    anchors.centerin: parent\n") = .ok s
      ∧ (parsed s : Document Float).view (fun _ value => value)
        = (parsed ("Box < UIWidget\n  size: 20 30\n"
            ++ "Window\n  id: main\n  Box\n    !text: hi\n    anchors.centerin: parent\n")
          : Document Float).view Block.writtenValue :=
  view_format _ (.inl (by decide +kernel)) (by decide +kernel) (by decide +kernel)
    (by decide +kernel)

end Document

end Otui
