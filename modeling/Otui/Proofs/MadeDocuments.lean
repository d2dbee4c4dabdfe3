import Otui.Proofs.NestedDocuments

/-!
# What a document is made of

Whatever the text and the types known before, each widget of the document is what its opening starts
with the property lines of its body stored in it, together with an id and, when its type names a
template, a reference to it: `Element.IsMadeOf`. Templates have properties alone. The property lines
stand among the lines of the text in their order: `isMadeOf_read`.
-/

namespace Otui

open Otui.Document

variable {α : Type} {lines : List Line}

/-! ### Widgets and templates -/

/-- A widget as its opening starts it, with the property lines among some of the lines stored in
it. -/
def Element.IsStored (lines : List Line) (e : Element α) : Prop :=
  ∃ type name ks, List.Sublist ks lines
    ∧ e = ((opened type name).storeAll (ks.filterMap Line.property?)).1

/-- A template with the property lines among some of the lines. -/
def Template.IsStored (lines : List Line) (t : Template α) : Prop :=
  ∃ ks, List.Sublist ks lines
    ∧ t.properties = Properties.recordAll {} (ks.filterMap Line.property?)

/-- A stored widget with an id, its own if it has one, in a document with some templates. -/
def Element.IsMadeOf (lines : List Line) (templates : List (Template α)) (e : Element α) : Prop :=
  ∃ b : Element α, ∃ id, b.IsStored lines ∧ (b.id = some id ∨ b.id = none)
    ∧ e = { b with
        id := some id
        template := refAmong templates (textOrEmpty b.surface)
        base := (refAmong templates (textOrEmpty b.surface)).map TemplateRef.base }

theorem Element.IsStored.eq_none {e : Element α} (h : e.IsStored lines) :
    e.template = none ∧ e.base = none ∧ e.inherited = false := by
  obtain ⟨type, name, ks, -, rfl⟩ := h
  obtain ⟨_, _, _, _, he⟩ := Element.storeAll_eq (opened type name : Element α)
    (ks.filterMap Line.property?)
  rw [he]
  exact ⟨rfl, rfl, rfl⟩

namespace Document

/-! ### Reading -/

/-- What is true of every part of a document that was read. -/
structure Reading.IsStored (lines : List Line) (r : Reading α) : Prop where
  /-- The widgets have property lines among the lines. -/
  widgets : ∀ e ∈ Tree.forestLabels r.widgets, e.IsStored lines
  /-- So have the templates. -/
  templates : ∀ t ∈ r.templates, t.IsStored lines
  /-- So have the widgets in the bodies of templates. -/
  bodies : ∀ t ∈ r.templates, ∀ e ∈ Tree.forestLabels t.children, e.IsStored lines

theorem map_label_sublist_forestLabels {β : Type} (ts : List (Tree β)) :
    (ts.map Tree.label).Sublist (Tree.forestLabels ts) := by
  induction ts with
  | nil => exact List.Sublist.refl _
  | cons t ts ih =>
    cases t with
    | node b bs =>
      rw [List.map_cons, Tree.label_node, Tree.forestLabels_cons]
      exact (ih.trans (List.sublist_append_right _ _)).cons_cons b

/-- The property lines of a body stand among its lines. -/
theorem exists_ownProperties_outline (run : List Line) :
    ∃ ks, List.Sublist ks run ∧ ownProperties (outline run) = ks.filterMap Line.property? := by
  refine ⟨(nest run).map Tree.label, ?_, ownProperties_outline run⟩
  have h := map_label_sublist_forestLabels (nest run)
  rwa [forestLabels_nest] at h

/-- Every part of an outline is read as widgets and templates with lines that it is made of. -/
theorem isStored_readParts {run : List Line} (h : List.Sublist run lines) (r : Registry) :
    (readParts (α := α) (outline run) r).IsStored lines := by
  fun_induction outline run generalizing r with
  | case1 => exact ⟨by simp [readParts], by simp [readParts], by simp [readParts]⟩
  | case2 l rest name base hl ihbody ihrest =>
    have hbody : List.Sublist (rest.takeWhile (Line.isBelow l.level)) lines :=
      (List.takeWhile_sublist _).trans ((List.sublist_cons_self l rest).trans h)
    have hrest := ihrest ((List.dropWhile_sublist _).trans ((List.sublist_cons_self l rest).trans h))
    obtain ⟨ks, hks, hown⟩ := exists_ownProperties_outline (rest.takeWhile (Line.isBelow l.level))
    rw [readParts]
    cases base with
    | none =>
      have hinner := ihbody hbody (r.ensure (r.resolve name)).value
      have hnext := hrest (readPart (α := α) (.block name none l.number
        (outline (rest.takeWhile (Line.isBelow l.level)))) r).registry
      rw [readPart, hown] at hnext ⊢
      refine ⟨fun e he => ?_, fun t ht => ?_, fun t ht => ?_⟩
      · simp only [Tree.forestLabels_append, Tree.forestLabels_cons, Tree.forestLabels_nil,
          List.append_nil, List.mem_append, List.mem_cons] at he
        rcases he with (rfl | he) | he
        · exact ⟨_, name, ks, hks.trans hbody, rfl⟩
        · exact hinner.widgets e he
        · exact hnext.widgets e he
      · exact (List.mem_append.1 ht).elim (hinner.templates t) (hnext.templates t)
      · exact (List.mem_append.1 ht).elim (hinner.bodies t) (hnext.bodies t)
    | some base =>
      have hinner := ihbody hbody (r.registerTemplate name (r.resolve base)).value
      have hnext := hrest (readPart (α := α) (.block name (some base) l.number
        (outline (rest.takeWhile (Line.isBelow l.level)))) r).registry
      rw [readPart, hown] at hnext ⊢
      refine ⟨fun e he => hnext.widgets e he, fun t ht => ?_, fun t ht => ?_⟩
      · rcases List.mem_append.1 ht with ht | ht
        · rcases List.mem_cons.1 ht with rfl | ht
          · exact ⟨ks, hks.trans hbody, rfl⟩
          · exact hinner.templates t ht
        · exact hnext.templates t ht
      · rcases List.mem_append.1 ht with ht | ht
        · rcases List.mem_cons.1 ht with rfl | ht
          · exact hinner.widgets
          · exact hinner.bodies t ht
        · exact hnext.bodies t ht
  | case3 l rest key value raw hl ih =>
    have hnext := ih ((List.sublist_cons_self l rest).trans h) r
    rw [readParts, readPart]
    exact ⟨hnext.widgets, hnext.templates, hnext.bodies⟩
  | case4 l rest hl ih => exact ih ((List.sublist_cons_self l rest).trans h) r

/-! ### The last step -/

/-- A document whose widgets and templates are made of the lines of a text. -/
structure IsMadeOf (lines : List Line) (d : Document α) : Prop where
  /-- The widgets are made of the lines. -/
  widgets : ∀ e ∈ Tree.forestLabels d.widgets, e.IsMadeOf lines d.templates
  /-- So are the templates. -/
  templates : ∀ t ∈ d.templates, t.IsStored lines
  /-- So are the widgets in the bodies of templates. -/
  bodies : ∀ t ∈ d.templates, ∀ e ∈ Tree.forestLabels t.children, e.IsMadeOf lines d.templates

theorem isMadeOf_finish {r : Reading α} (h : r.IsStored lines) :
    (finish r.widgets r.templates).IsMadeOf lines := by
  have hstep : ∀ {b : Element α} {counts : Ledger Nat} (other : Ledger Nat), b.IsStored lines →
      (finishStep r.templates b counts).1.IsMadeOf lines
        (finishTemplates (finishStep r.templates) r.templates other) := by
    intro b counts other hb
    obtain ⟨htemplate, hbase, -⟩ := hb.eq_none
    obtain ⟨id, he, hid⟩ := finishStep_eq r.templates htemplate hbase counts
    exact ⟨b, id, hb, hid.imp_right And.left, by rw [he, refAmong_finishTemplates]⟩
  refine ⟨fun e he => ?_, fun u hu => ?_, fun u hu e he => ?_⟩
  · obtain ⟨b, hb, _, rfl⟩ := Tree.exists_of_mem_forestMapState he
    exact hstep _ (h.widgets b hb)
  · obtain ⟨t, ht, _, rfl⟩ := mem_finishTemplates hu
    exact h.templates t ht
  · obtain ⟨t, ht, _, rfl⟩ := mem_finishTemplates hu
    obtain ⟨b, hb, _, rfl⟩ := Tree.exists_of_mem_forestMapState he
    exact hstep _ (h.bodies t ht b hb)

/-- **Made of lines**: whatever the text and the types known before, the document is made of the
lines of the text. -/
theorem isMadeOf_read (registry : Registry) (text : String) :
    (read (α := α) registry text).value.document.IsMadeOf (Document.lines text) :=
  isMadeOf_finish (isStored_readParts (List.Sublist.refl _) registry)

end Document

end Otui
