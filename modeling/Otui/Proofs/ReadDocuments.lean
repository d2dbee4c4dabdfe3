import Otui.Proofs.AlikeForests
import Otui.Proofs.KnownTypes
import Otui.Proofs.SourceLines
import Otui.Proofs.StoredLines

/-!
# What documents are like that were read

Whatever the text, each widget that reading gives has a name of a type, and its properties are what
lines of the text store of which none is dropped: `Element.ReadFrom`. The same is true of templates,
`Template.ReadFrom`. The last step gives ids and marks instances, and changes nothing else;
`isRead_parsed` says all this of the document that a text is read as.
-/

namespace Otui

open Otui.Text Otui.Document

variable {α : Type} {lines : List Line}

/-! ### Lines -/

namespace OwnLine

/-- What the line says. -/
def content (l : OwnLine) : Content := .property l.key l.value l.raw

/-- A line that stands among some lines of a text. -/
def IsAmong (lines : List Line) (l : OwnLine) : Prop :=
  ∃ k ∈ lines, k.number = l.number ∧ k.content = l.content

/-- A line that is like all property lines of a text. -/
def IsSound (l : OwnLine) : Prop := l.content.IsSound

theorem IsAmong.isSound {l : OwnLine} (h : l.IsAmong lines)
    (hs : ∀ k ∈ lines, k.content.IsSound) : l.IsSound := by
  obtain ⟨k, hk, -, hc⟩ := h
  rw [IsSound, ← hc]
  exact hs k hk

theorem IsSound.isKey {l : OwnLine} (h : l.IsSound) : IsKey l.key := h.1

/-- The value of a line is on one line, with quotes or without. -/
theorem IsSound.onOneLine_value {l : OwnLine} (h : l.IsSound) : OnOneLine l.value := by
  obtain ⟨-, hraw, -, hvalue⟩ := h
  rcases hvalue with hv | hv
  · rw [show l.value = l.raw from hv]
    exact hraw
  · rw [show l.value = stripQuotes l.raw from hv, stripQuotes]
    split
    · next cs hcs =>
      unfold OnOneLine
      rw [String.toList_ofList]
      exact fun hm => hraw (mem_of_mem_insideQuotes hcs hm)
    · exact hraw

end OwnLine

/-- Lines that do not count make no difference. -/
theorem Properties.recordAll_counted (p : Properties) (ls : List OwnLine) :
    p.recordAll (p.counted ls) = p.recordAll ls := by
  induction ls generalizing p with
  | nil => rfl
  | cons l ls ih =>
    by_cases h : p.Admits l.key
    · rw [counted_cons_of_admits h, recordAll_cons, recordAll_cons, ih]
    · rw [counted_cons_of_not_admits h, recordAll_cons, after_of_not_admits h, ih]

/-! ### Widgets and templates -/

/-- Properties that lines of a text store of which none is dropped. -/
structure Properties.ReadFrom (lines : List Line) (ls : List OwnLine) (p : Properties) : Prop where
  /-- The properties are what the lines store. -/
  stored : p = Properties.recordAll {} ls
  /-- None of the lines is dropped. -/
  unblocked : OwnLine.Unblocked ls
  /-- The lines stand in the text. -/
  among : ∀ l ∈ ls, l.IsAmong lines

theorem Properties.readFrom_recordAll {ls : List OwnLine} (h : ∀ l ∈ ls, l.IsAmong lines) :
    Properties.ReadFrom lines (Properties.counted {} ls) (Properties.recordAll {} ls) where
  stored := (recordAll_counted {} ls).symm
  unblocked := (unblocked_counted {} ls).1
  among l hl := h l ((counted_sublist {} ls).subset hl)

/-- A widget that was read. Its id and whether it is an instance are left open: they may be found
later. -/
structure Element.ReadFrom (lines : List Line) (ls : List OwnLine) (e : Element α) : Prop where
  /-- The type as written is a name. -/
  surface : ∃ name, e.surface = some name ∧ IsWidgetName name
  /-- There is a type. -/
  type : e.type ≠ ""
  /-- The widget is no child of a template that was expanded. -/
  inherited : e.inherited = false
  /-- The widget was not placed. -/
  placement : e.placement = none
  /-- The properties come from lines. -/
  properties : e.properties.ReadFrom lines ls
  /-- Anchors, margins and size come from the same lines. -/
  has : e.Has ls
  /-- The id is on one line. -/
  id : ∀ v, e.id = some v → OnOneLine v

/-- A widget that was read and that is not finished. -/
def Element.IsFresh (lines : List Line) (e : Element α) : Prop :=
  (∃ ls, e.ReadFrom lines ls) ∧ e.template = none ∧ e.base = none

/-- A template that was read, its body apart. -/
structure Template.ReadFrom (lines : List Line) (ls : List OwnLine) (t : Template α) : Prop where
  /-- The name starts with a capital letter. -/
  name : IsWidgetName t.name
  /-- The base is the name of a type. -/
  base : isTypeName t.base.toList = true
  /-- The properties come from lines. -/
  properties : t.properties.ReadFrom lines ls

/-! ### Reading -/

/-- What is true of every part of a document that was read, when templates of some names were known
before. -/
structure Document.Reading.IsFresh (lines : List Line) (names : List String) (r : Reading α) :
    Prop where
  /-- The widgets were read from lines. -/
  widgets : ∀ e ∈ Tree.forestLabels r.widgets, e.IsFresh lines
  /-- The templates were read from lines. -/
  templates : ∀ t ∈ r.templates, ∃ ls, t.ReadFrom lines ls
  /-- The widgets of templates were read from lines. -/
  bodies : ∀ t ∈ r.templates, ∀ e ∈ Tree.forestLabels t.children, e.IsFresh lines
  /-- The bases of the templates were resolved in order. -/
  bases : ResolvedAmong names r.templates
  /-- The templates are known now. -/
  known : r.registry.Knows (names ++ r.templates.map Template.name)

theorem Registry.Knows.resolve_ne_empty {names : List String} {r : Registry} (h : r.Knows names)
    {name : String} (hname : IsWidgetName name) : r.resolve name ≠ "" := by
  rw [h.resolve_eq]
  exact Registry.typeAmong_ne_empty hname.ne_empty

namespace Document

/-- The widget that an opening starts. -/
def opened (type name : String) : Element α :=
  { type, surface := some name, sized := some false }

/-- A widget that an opening starts has what the lines of its body store. -/
theorem readFrom_storeAll (hs : ∀ k ∈ lines, k.content.IsSound) {type name : String}
    (htype : type ≠ "") (hname : IsWidgetName name) {ls : List OwnLine}
    (hls : ∀ l ∈ ls, l.IsAmong lines) :
    (((opened type name : Element α).storeAll ls).1).ReadFrom lines (Properties.counted {} ls) := by
  have hread := Properties.readFrom_recordAll hls
  have hnone : (opened type name : Element α).Has [] :=
    ⟨.inl rfl, by simp [opened], fun k hk => by cases hk⟩
  have hhas := Element.has_storeAll hnone ls
  obtain ⟨id, anchors, margins, sized, he⟩ := Element.storeAll_eq (opened type name : Element α) ls
  refine ⟨⟨name, by rw [he]; rfl, hname⟩, by rw [he]; exact htype, by rw [he]; rfl, by rw [he]; rfl,
    ?_, hhas, fun v hv => ?_⟩
  · rw [Element.properties_storeAll]
    exact hread
  · rcases Element.id_storeAll (opened type name : Element α) ls with hid | ⟨l, hl, -, hid⟩
    · rw [hid] at hv
      cases hv
    · rw [hid] at hv
      cases hv
      exact ((hread.among l hl).isSound hs).onOneLine_value

theorem isFresh_storeAll (hs : ∀ k ∈ lines, k.content.IsSound) {type name : String}
    (htype : type ≠ "") (hname : IsWidgetName name) {ls : List OwnLine}
    (hls : ∀ l ∈ ls, l.IsAmong lines) :
    (((opened type name : Element α).storeAll ls).1).IsFresh lines := by
  obtain ⟨id, anchors, margins, sized, he⟩ := Element.storeAll_eq (opened type name : Element α) ls
  exact ⟨⟨_, readFrom_storeAll hs htype hname hls⟩, by rw [he]; rfl, by rw [he]; rfl⟩

theorem isFresh_nil {names : List String} {r : Registry} (h : r.Knows names) :
    Reading.IsFresh lines names (⟨[], [], r, []⟩ : Reading α) where
  widgets := by simp
  templates := by simp
  bodies := by simp
  bases := trivial
  known := by simpa using h

/-- Parts that are read one after the other. -/
theorem isFresh_append {names : List String} {first rest : Reading α} {notices : List (Nat × Notice)}
    (hf : first.IsFresh lines names)
    (hr : rest.IsFresh lines (names ++ first.templates.map Template.name)) :
    Reading.IsFresh lines names ⟨first.widgets ++ rest.widgets, first.templates ++ rest.templates,
      rest.registry, notices⟩ where
  widgets e he := by
    rw [Tree.forestLabels_append, List.mem_append] at he
    exact he.elim (hf.widgets e) (hr.widgets e)
  templates t ht := (List.mem_append.1 ht).elim (hf.templates t) (hr.templates t)
  bodies t ht := (List.mem_append.1 ht).elim (hf.bodies t) (hr.bodies t)
  bases := resolvedAmong_append hf.bases hr.bases
  known := by simpa using hr.known

/-- A widget with what was read inside it. -/
theorem isFresh_node {names : List String} {inner : Reading α} {e : Element α}
    {notices : List (Nat × Notice)} (h : inner.IsFresh lines names) (he : e.IsFresh lines) :
    Reading.IsFresh lines names
      ⟨[.node e inner.widgets], inner.templates, inner.registry, notices⟩ where
  widgets e' he' := by
    simp only [Tree.forestLabels_cons, Tree.forestLabels_nil, List.append_nil, List.mem_cons] at he'
    rcases he' with rfl | he'
    · exact he
    · exact h.widgets e' he'
  templates := h.templates
  bodies := h.bodies
  bases := h.bases
  known := h.known

/-- A template with what was read inside it. -/
theorem isFresh_template {names : List String} {inner : Reading α} {t : Template α}
    {notices : List (Nat × Notice)} (h : inner.IsFresh lines (names ++ [t.name]))
    {ls : List OwnLine} (ht : t.ReadFrom lines ls) (hc : t.children = inner.widgets)
    (hb : t.resolvedBase = some (Registry.typeAmong names t.base)) :
    Reading.IsFresh lines names ⟨[], t :: inner.templates, inner.registry, notices⟩ where
  widgets := by simp
  templates u hu := by
    rcases List.mem_cons.1 hu with rfl | hu
    · exact ⟨ls, ht⟩
    · exact h.templates u hu
  bodies u hu := by
    rcases List.mem_cons.1 hu with rfl | hu
    · rw [hc]
      exact h.widgets
    · exact h.bodies u hu
  bases := ⟨hb, h.bases⟩
  known := by simpa using h.known

mutual

/-- Whatever comes from sound lines is read as widgets and templates that come from them. -/
theorem isFresh_readPart (hs : ∀ k ∈ lines, k.content.IsSound) {names : List String} :
    ∀ {o : Outline} {r : Registry}, o.ComesFrom lines → r.Knows names →
      (readPart (α := α) o r).IsFresh lines names
  | .property .., _, _, hr => by
    simp only [readPart]
    exact isFresh_nil hr
  | .block name none number body, r, ho, hr => by
    obtain ⟨⟨k, hk, -, hc⟩, hbody⟩ := ho
    have hname : IsWidgetName name := by
      have := hs k hk
      rw [hc] at this
      exact this.1
    have htype : r.resolve name ≠ "" := hr.resolve_ne_empty hname
    have hown : ∀ l ∈ ownProperties body, OwnLine.IsAmong lines l := fun l hl =>
      mem_ownProperties hbody hl
    have hinner := isFresh_readParts hs hbody (hr.ensure name)
    rw [readPart]
    exact isFresh_node hinner (isFresh_storeAll hs htype hname hown)
  | .block name (some base) number body, r, ho, hr => by
    obtain ⟨⟨k, hk, -, hc⟩, hbody⟩ := ho
    have hsound := hs k hk
    rw [hc] at hsound
    have hown : ∀ l ∈ ownProperties body, OwnLine.IsAmong lines l := fun l hl =>
      mem_ownProperties hbody hl
    have hinner := isFresh_readParts hs hbody (hr.registerTemplate name base)
    rw [readPart]
    exact isFresh_template hinner
      ⟨hsound.1, hsound.2 base rfl, Properties.readFrom_recordAll hown⟩ rfl
      (congrArg some (hr.resolve_eq base))

theorem isFresh_readParts (hs : ∀ k ∈ lines, k.content.IsSound) {names : List String} :
    ∀ {os : List Outline} {r : Registry}, Outline.AllComeFrom lines os → r.Knows names →
      (readParts (α := α) os r).IsFresh lines names
  | [], _, _, hr => by
    rw [readParts]
    exact isFresh_nil hr
  | o :: os, r, ho, hr => by
    have hfirst := isFresh_readPart hs ho.1 hr
    rw [readParts]
    exact isFresh_append hfirst (isFresh_readParts hs ho.2 hfirst.known)

end

end Document

end Otui
