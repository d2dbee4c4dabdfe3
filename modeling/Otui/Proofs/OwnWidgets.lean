import Otui.Proofs.FirstInstances
import Otui.Proofs.MadeDocuments

/-!
# Expanding only adds

What templates bring in is flagged. When it is taken out of expanded widgets, with all below it, what
is left is the forest before, each widget as it was or with the template applied that its type names
(`alike_own`). An applied template goes below the widget: what the widget says itself stays, and what
comes to it stands in the template (`Element.isExtendedBy_applyTo`). For the document of a text this
gives `own_expand`.
-/

namespace Otui

open Otui.Document

variable {α : Type} {templates unused : List (Template α)}

/-! ### One widget -/

namespace Widget

/-- The second widget is the first, or the first with the template applied that its type names. -/
def IsExpansion (templates : List (Template α)) (e e' : Element α) : Prop :=
  e' = e ∨ ∃ t, Template.find? templates (textOrEmpty e.surface) = some t ∧ e' = t.applyTo e

theorem IsExpansion.mono {e e' : Element α} (h : IsExpansion unused e e')
    (hunused : ∀ n u, Template.find? unused n = some u → Template.find? templates n = some u) :
    IsExpansion templates e e' :=
  h.imp_right fun ⟨t, ht, he⟩ => ⟨t, hunused _ t ht, he⟩

theorem IsExpansion.flags_eq {e e' : Element α} (h : IsExpansion templates e e') :
    e'.inherited = e.inherited ∧ e'.isWritable = e.isWritable := by
  rcases h with rfl | ⟨t, -, rfl⟩ <;> exact ⟨rfl, rfl⟩

end Widget

namespace Element

/-- The second widget is the first with more properties, which stand in the first template that its
type names; all else is the same. -/
structure IsExtendedBy (templates : List (Template α)) (e e' : Element α) : Prop where
  /-- Nothing is changed but the stored values and the keys as written. -/
  rest : e' = { e with
    properties :=
      { e.properties with values := e'.properties.values, written := e'.properties.written } }
  /-- Every key keeps its value. -/
  values : ∀ key value, e.properties.values.get? key = some value →
    e'.properties.values.get? key = some value
  /-- Every key keeps the way it is written. -/
  written : ∀ key value, e.properties.written.get? key = some value →
    e'.properties.written.get? key = some value
  /-- Every other key has its value from the template. -/
  added : ∀ key value, e'.properties.values.get? key = some value →
    e.properties.values.get? key = none →
    ∃ t, Template.find? templates (textOrEmpty e.surface) = some t
      ∧ t.properties.values.get? key = some value
  /-- So has every other key that is written in another way. -/
  addedWritten : ∀ key value, e'.properties.written.get? key = some value →
    e.properties.written.get? key = none →
    ∃ t, Template.find? templates (textOrEmpty e.surface) = some t
      ∧ t.properties.written.get? key = some value

theorem isExtendedBy_refl (templates : List (Template α)) (e : Element α) :
    e.IsExtendedBy templates e where
  rest := rfl
  values _ _ h := h
  written _ _ h := h
  added _ _ h hnone := by cases hnone.symm.trans h
  addedWritten _ _ h hnone := by cases hnone.symm.trans h

/-- **One application** goes below what a widget says, when the widget refers to the template. -/
theorem isExtendedBy_applyTo {e : Element α} {t : Template α}
    (ht : Template.find? templates (textOrEmpty e.surface) = some t)
    (htemplate : e.template = some ⟨t.name, t.instanceBase⟩)
    (hbase : e.base = some t.instanceBase) : e.IsExtendedBy templates (t.applyTo e) where
  rest := by
    cases e
    cases htemplate
    cases hbase
    rfl
  values key value h := by
    rw [Template.applyTo, Ledger.get?_overlay, h, Option.some_or]
  written key value h := by
    rw [Template.applyTo, Ledger.get?_overlay, h, Option.some_or]
  added key value h hnone := by
    rw [Template.applyTo, Ledger.get?_overlay, hnone, Option.none_or] at h
    exact ⟨t, ht, h⟩
  addedWritten key value h hnone := by
    rw [Template.applyTo, Ledger.get?_overlay, hnone, Option.none_or] at h
    exact ⟨t, ht, h⟩

theorem IsMadeOf.inherited_eq {lines : List Line} {e : Element α}
    (h : e.IsMadeOf lines templates) : e.inherited = false := by
  obtain ⟨b, id, hb, -, rfl⟩ := h
  exact hb.eq_none.2.2

/-- Expanding a widget of a document extends it. -/
theorem IsMadeOf.isExtendedBy {lines : List Line} {e e' : Element α}
    (h : e.IsMadeOf lines templates) (hexp : Widget.IsExpansion templates e e') :
    e.IsExtendedBy templates e' := by
  rcases hexp with rfl | ⟨t, ht, rfl⟩
  · exact isExtendedBy_refl templates _
  · obtain ⟨b, id, -, -, rfl⟩ := h
    have href : refAmong templates (textOrEmpty b.surface) = some ⟨t.name, t.instanceBase⟩ := by
      rw [refAmong, show Template.find? templates (textOrEmpty b.surface) = some t from ht]
      rfl
    exact isExtendedBy_applyTo ht href (by dsimp only; rw [href]; rfl)

end Element

/-! ### All widgets -/

namespace Widget

/-- The widgets that do not come from templates: a flagged widget is left out with all below it. -/
def own : List (Widget α) → List (Widget α)
  | [] => []
  | .node e cs :: ws => if e.inherited then own ws else .node e (own cs) :: own ws
  termination_by ws => sizeOf ws
  decreasing_by
    all_goals
      simp only [List.cons.sizeOf_spec, Tree.node.sizeOf_spec]
      omega

theorem own_cons_of_inherited {e : Element α} (h : e.inherited = true) (cs ws : List (Widget α)) :
    own (.node e cs :: ws) = own ws := by
  rw [own, if_pos h]

theorem own_cons_of_not_inherited {e : Element α} (h : e.inherited = false)
    (cs ws : List (Widget α)) : own (.node e cs :: ws) = .node e (own cs) :: own ws := by
  rw [own, if_neg (by simp [h])]

theorem own_append (vs ws : List (Widget α)) : own (vs ++ ws) = own vs ++ own ws := by
  induction vs with
  | nil => rw [own]; rfl
  | cons v vs ih =>
    cases v with
    | node e cs =>
      rw [List.cons_append]
      cases h : e.inherited with
      | true => rw [own_cons_of_inherited h, own_cons_of_inherited h, ih]
      | false => rw [own_cons_of_not_inherited h, own_cons_of_not_inherited h, ih, List.cons_append]

theorem own_eq_nil {ws : List (Widget α)} (h : ∀ w ∈ ws, w.label.inherited = true) :
    own ws = [] := by
  induction ws with
  | nil => rw [own]
  | cons w ws ih =>
    cases w with
    | node e cs =>
      obtain ⟨he, hws⟩ := List.forall_mem_cons.1 h
      rw [own_cons_of_inherited (e := e) he, ih hws]

theorem not_inherited_of_mem_own {ws : List (Widget α)} :
    ∀ e ∈ Tree.forestLabels (own ws), e.inherited = false := by
  induction ws using Tree.forest_induction with
  | nil => simp [own]
  | cons e cs ws ihc ihw =>
    cases h : e.inherited with
    | true => rwa [own_cons_of_inherited h]
    | false =>
      rw [own_cons_of_not_inherited h, Tree.forestLabels_cons, List.forall_mem_cons,
        List.forall_mem_append]
      exact ⟨h, ihc, ihw⟩

/-- What comes from templates is not written. -/
theorem keptBelow_own (ws : List (Widget α)) : keptBelow (own ws) = keptBelow ws := by
  induction ws using Tree.forest_induction with
  | nil => rw [own]
  | cons e cs ws ihc ihw =>
    cases h : e.inherited with
    | true =>
      rw [own_cons_of_inherited h, ihw, keptBelow, h]
      rfl
    | false => rw [own_cons_of_not_inherited h, keptBelow, keptBelow, ihc, ihw]

namespace Expands

/-- **Own widgets** of an expanded forest are those that were there before, each as it was or with
its template applied. -/
theorem alike_own {ws vs : List (Widget α)} (h : Expands unused ws vs)
    (hws : ∀ e ∈ Tree.forestLabels ws, e.inherited = false) :
    Tree.Alike (IsExpansion unused) ws (own vs) := by
  induction h with
  | nil =>
    rw [own]
    exact .nil
  | @applied unused e t cs bs ds ws vs ht hbody _ _ _ ihd ihv =>
    rw [Tree.forestLabels_cons, List.forall_mem_cons, List.forall_mem_append] at hws
    obtain ⟨he, hcs, hws⟩ := hws
    rw [own_cons_of_not_inherited (e := t.applyTo e) he, own_append,
      own_eq_nil hbody.inherited_of_mem, List.nil_append]
    exact .cons (.inr ⟨t, ht, rfl⟩)
      ((ihd hcs).imp fun _ _ hexp => hexp.mono fun _ _ hu => (find?_of_others hu).2) (ihv hws)
  | @kept unused e cs ds ws vs _ _ _ ihd ihv =>
    rw [Tree.forestLabels_cons, List.forall_mem_cons, List.forall_mem_append] at hws
    obtain ⟨he, hcs, hws⟩ := hws
    rw [own_cons_of_not_inherited he]
    exact .cons (.inl rfl) (ihd hcs) (ihv hws)

/-- Of expanded widgets those are written that were written before, each as it was or with its
template applied. -/
theorem isExpansion_keptBelow {ws vs : List (Widget α)} (h : Expands unused ws vs)
    (hws : ∀ e ∈ Tree.forestLabels ws, e.inherited = false ∧ e.isWritable = true) :
    Tree.Alike (IsExpansion unused) ws (keptBelow vs) := by
  have hown := h.alike_own fun e he => (hws e he).1
  rw [← keptBelow_own, keptBelow_eq_self]
  · exact hown
  · intro e' he'
    obtain ⟨e, he, hexp⟩ := hown.exists_left e' he'
    exact ⟨not_inherited_of_mem_own e' he', hexp.flags_eq.2.trans (hws e he).2⟩

/-- Among the children of an expanded widget those that come from a template stand first. -/
theorem exists_children_eq {ws vs : List (Widget α)} (h : Expands unused ws vs)
    (hbodies : ∀ n u, Template.find? unused n = some u →
      ∀ e ∈ Tree.forestLabels u.children, e.inherited = false)
    (hws : ∀ w ∈ ws, ∀ e ∈ Tree.forestLabels w.children, e.inherited = false) :
    ∀ v ∈ Tree.forestNodes vs, ∃ bs ds, v.children = bs ++ ds
      ∧ (∀ b ∈ bs, b.label.inherited = true) ∧ ∀ d ∈ ds, d.label.inherited = false := by
  induction h with
  | nil => simp [Tree.forestNodes]
  | @applied unused e t cs bs ds ws vs ht hbody hbelow _ ihb ihd ihv =>
    obtain ⟨hcs, hws⟩ := List.forall_mem_cons.1 hws
    have hothers : ∀ n u, Template.find? (Template.others unused t.name) n = some u →
        ∀ e ∈ Tree.forestLabels u.children, e.inherited = false :=
      fun n u hu => hbodies n u (find?_of_others hu).2
    intro v hv
    rw [Tree.mem_forestNodes_cons, Tree.children_node, Tree.forestNodes_append,
      List.mem_append] at hv
    rcases hv with rfl | (hv | hv) | hv
    · exact ⟨bs, ds, rfl, hbody.inherited_of_mem, hbelow.not_inherited_of_mem hcs⟩
    · exact ihb hothers (forall_children_inheritedChild (hbodies _ t ht)) v hv
    · exact ihd hothers (forall_children hcs) v hv
    · exact ihv hbodies hws v hv
  | @kept unused e cs ds ws vs _ hbelow _ ihd ihv =>
    obtain ⟨hcs, hws⟩ := List.forall_mem_cons.1 hws
    intro v hv
    rw [Tree.mem_forestNodes_cons, Tree.children_node] at hv
    rcases hv with rfl | hv | hv
    · exact ⟨[], ds, rfl, by simp, hbelow.not_inherited_of_mem hcs⟩
    · exact ihd hbodies (forall_children hcs) v hv
    · exact ihv hbodies hws v hv

end Expands

end Widget

/-! ### Documents -/

namespace Document

/-- **Expanding only adds**: whatever the text and the types known before, the expanded widgets
without those that come from templates are the widgets of the document in the same places, each with
more properties at most, which stand in the first template that its type names; and everywhere the
children that come from a template stand before the others. -/
theorem own_expand (registry : Registry) (text : String) :
    Tree.Alike (Element.IsExtendedBy (read (α := α) registry text).value.document.templates)
        (read (α := α) registry text).value.document.widgets
        (Widget.own (expand (read (α := α) registry text).value.document.templates
          (read (α := α) registry text).value.document.widgets).value)
      ∧ ∀ w ∈ Tree.forestNodes (expand (read (α := α) registry text).value.document.templates
          (read (α := α) registry text).value.document.widgets).value,
        ∃ bs ds, w.children = bs ++ ds
          ∧ (∀ b ∈ bs, b.label.inherited = true) ∧ ∀ d ∈ ds, d.label.inherited = false := by
  have hmade := isMadeOf_read (α := α) registry text
  generalize (read (α := α) registry text).value.document = d at hmade ⊢
  have hexpands : Widget.Expands d.templates d.widgets (expand d.templates d.widgets).value :=
    Widget.expands_allExpanded d.templates [] d.widgets
  have hwidgets : ∀ e ∈ Tree.forestLabels d.widgets, e.inherited = false :=
    fun e he => (hmade.widgets e he).inherited_eq
  refine ⟨?_, hexpands.exists_children_eq ?_ (Widget.Expands.forall_children hwidgets)⟩
  · exact (hexpands.alike_own hwidgets).imp_of_mem fun e he e' _ hexp =>
      (hmade.widgets e he).isExtendedBy hexp
  · intro name t ht e he
    exact (hmade.bodies t (List.mem_of_find?_eq_some ht) e he).inherited_eq

end Document

end Otui
