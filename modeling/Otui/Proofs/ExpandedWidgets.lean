import Otui.Proofs.Scripts
import Otui.Template.Expansion

/-!
# Widgets after templates were expanded

Expanding keeps track of the templates that are left on the way to a widget. For the widget itself
this comes to one rule: the template that its type names is applied to it, unless a widget above has
the same type (`Template.appliedTo?`). The widgets that an application brings in are flagged, and
flagged widgets are not written. So of expanded widgets those are written that were written before,
each changed by the rule: `Widget.kept_expand`.
-/

namespace Otui

open Otui.Document

variable {α : Type} {templates unused : List (Template α)} {above : List (Element α)}

/-! ### The template that is applied -/

namespace Template

/-- The template that is applied to a widget below others: the one that its type names, unless one
of the others has the same type. -/
def appliedTo? (templates : List (Template α)) (above : List (Element α)) (e : Element α) :
    Option (Template α) :=
  if above.any fun a => textOrEmpty a.surface == textOrEmpty e.surface then none
  else find? templates (textOrEmpty e.surface)

/-- Of some templates, those are left below some widgets that no type of these widgets names. -/
def AreLeft (templates : List (Template α)) (above : List (Element α))
    (unused : List (Template α)) : Prop :=
  ∀ name, find? unused name
    = if above.any fun a => textOrEmpty a.surface == name then none else find? templates name

theorem name_of_find? {name : String} {t : Template α} (h : find? templates name = some t) :
    t.name = name := by
  simpa using List.find?_some h

theorem mem_of_appliedTo? {e : Element α} {t : Template α}
    (h : appliedTo? templates above e = some t) :
    t ∈ templates ∧ find? templates (textOrEmpty e.surface) = some t := by
  unfold appliedTo? at h
  split at h
  · cases h
  · exact ⟨List.mem_of_find?_eq_some h, h⟩

theorem find?_others (templates : List (Template α)) (other name : String) :
    find? (others templates other) name = if other = name then none else find? templates name := by
  simp only [others, find?, List.find?_filter]
  by_cases hname : other = name
  · rw [if_pos hname, List.find?_eq_none]
    intro t _
    simp [hname]
  · rw [if_neg hname]
    congr 1
    funext t
    by_cases ht : t.name = name <;> simp [ht, Ne.symm hname]

/-- Before the roots all templates are left. -/
theorem areLeft_nil (templates : List (Template α)) : AreLeft templates [] templates :=
  fun _ => rfl

namespace AreLeft

theorem find?_eq (h : AreLeft templates above unused) (e : Element α) :
    find? unused (textOrEmpty e.surface) = appliedTo? templates above e :=
  h _

/-- A template that was applied is not left below. -/
theorem cons_of_some (h : AreLeft templates above unused) {e : Element α} {t : Template α}
    (ht : find? unused (textOrEmpty e.surface) = some t) :
    AreLeft templates (e :: above) (others unused t.name) := by
  intro name
  rw [find?_others, name_of_find? ht, h name, List.any_cons]
  by_cases hname : textOrEmpty e.surface = name <;> simp [hname]

/-- A widget without a template to apply leaves all that are left. -/
theorem cons_of_none (h : AreLeft templates above unused) {e : Element α}
    (hnone : find? unused (textOrEmpty e.surface) = none) :
    AreLeft templates (e :: above) unused := by
  intro name
  rw [List.any_cons]
  by_cases hname : textOrEmpty e.surface = name
  · rw [← hname, hnone]
    simp
  · rw [h name]
    simp [hname]

end AreLeft

end Template

/-- A widget below others after expanding, its children apart. -/
def Element.expandedIn (templates : List (Template α)) (above : List (Element α)) (e : Element α) :
    Element α :=
  match Template.appliedTo? templates above e with
  | some t => t.applyTo e
  | none => e

theorem Element.inherited_expandedIn (e : Element α) :
    (e.expandedIn templates above).inherited = e.inherited := by
  unfold expandedIn
  split <;> rfl

theorem Element.isWritable_expandedIn (e : Element α) :
    (e.expandedIn templates above).isWritable = e.isWritable := by
  unfold expandedIn
  split <;> rfl

/-! ### Widgets that are written -/

namespace Widget

theorem keptBelow_append (vs ws : List (Widget α)) :
    keptBelow (vs ++ ws) = keptBelow vs ++ keptBelow ws := by
  induction vs with
  | nil => rw [keptBelow]; rfl
  | cons v vs ih =>
    cases v with
    | node e cs =>
      rw [List.cons_append, keptBelow, keptBelow, ih]
      split <;> rfl

/-- Children that come from a template are not written. -/
theorem keptBelow_eq_nil {ws : List (Widget α)} (h : ∀ w ∈ ws, w.label.inherited = true) :
    keptBelow ws = [] := by
  induction ws with
  | nil => rw [keptBelow]
  | cons w ws ih =>
    cases w with
    | node e cs =>
      have he : e.inherited = true := h _ List.mem_cons_self
      rw [keptBelow, he, ih fun v hv => h v (List.mem_cons_of_mem _ hv)]
      rfl

/-! ### One step -/

theorem value_allExpanded (unused : List (Template α)) (applied : List String)
    (ws : List (Widget α)) :
    (allExpanded unused applied ws).value = ws.map fun w => (expanded unused applied w).value := by
  induction ws with
  | nil => rw [allExpanded]; rfl
  | cons w ws ih =>
    rw [allExpanded]
    simp only [Noted.value_bind, Noted.value_pure, ih, List.map_cons]

theorem value_expanded_of_some {e : Element α} {t : Template α}
    (h : Template.find? unused (textOrEmpty e.surface) = some t) (applied : List String)
    (cs : List (Widget α)) :
    (expanded unused applied (.node e cs)).value
      = .node (t.applyTo e)
          ((allExpanded (Template.others unused t.name) (t.name :: applied)
              (t.children.map Template.inheritedChild)).value
            ++ (allExpanded (Template.others unused t.name) (t.name :: applied) cs).value) := by
  rw [expanded]
  split
  · next u hu =>
    cases h.symm.trans hu
    rfl
  · next hnone => cases h.symm.trans hnone

theorem value_expanded_of_none {e : Element α}
    (h : Template.find? unused (textOrEmpty e.surface) = none) (applied : List String)
    (cs : List (Widget α)) :
    (expanded unused applied (.node e cs)).value
      = .node e (allExpanded unused applied cs).value := by
  rw [expanded]
  split
  · next u hu => cases h.symm.trans hu
  · -- the notice makes no difference to the widget
    dsimp only
    split <;> rfl

theorem inherited_expanded (unused : List (Template α)) (applied : List String) (w : Widget α) :
    (expanded unused applied w).value.label.inherited = w.label.inherited := by
  cases w with
  | node e cs =>
    cases h : Template.find? unused (textOrEmpty e.surface) with
    | some t => rw [value_expanded_of_some h]; rfl
    | none => rw [value_expanded_of_none h]; rfl

/-- What a template brings in is not written. -/
theorem keptBelow_inheritedChild (unused : List (Template α)) (applied : List String)
    (cs : List (Widget α)) :
    keptBelow (allExpanded unused applied (cs.map Template.inheritedChild)).value = [] := by
  refine keptBelow_eq_nil fun w hw => ?_
  rw [value_allExpanded, List.map_map] at hw
  obtain ⟨c, -, rfl⟩ := List.mem_map.1 hw
  rw [Function.comp_apply, inherited_expanded]
  cases c
  rfl

/-- **Expanding one widget** changes it by the rule, puts widgets in front of its children that are
not written, and goes on with its children and the templates that are left. -/
theorem exists_value_expanded (h : Template.AreLeft templates above unused) (applied : List String)
    (e : Element α) (cs : List (Widget α)) :
    ∃ rest applied' inherited, Template.AreLeft templates (e :: above) rest
      ∧ keptBelow inherited = []
      ∧ (expanded unused applied (.node e cs)).value
        = .node (e.expandedIn templates above)
            (inherited ++ (allExpanded rest applied' cs).value) := by
  have hrule := h.find?_eq e
  cases ht : Template.find? unused (textOrEmpty e.surface) with
  | some t =>
    refine ⟨Template.others unused t.name, t.name :: applied, _, h.cons_of_some ht,
      keptBelow_inheritedChild (Template.others unused t.name) (t.name :: applied) t.children, ?_⟩
    rw [value_expanded_of_some ht, Element.expandedIn, ← hrule, ht]
  | none =>
    refine ⟨unused, applied, [], h.cons_of_none ht, by rw [keptBelow], ?_⟩
    rw [value_expanded_of_none ht, Element.expandedIn, ← hrule, ht, List.nil_append]

/-! ### All widgets -/

/-- Of expanded children those are written that were written before, each changed by the rule. -/
theorem keptBelow_allExpanded (h : Template.AreLeft templates above unused) (applied : List String)
    (cs : List (Widget α)) :
    keptBelow (allExpanded unused applied cs).value
      = Tree.forestMapBelow (Element.expandedIn templates) above (keptBelow cs) := by
  induction cs using Tree.forest_induction generalizing above unused applied with
  | nil =>
    rw [value_allExpanded, List.map_nil, keptBelow]
    rfl
  | cons e bs cs ihb ihc =>
    have hcs := ihc h applied
    rw [value_allExpanded] at hcs ⊢
    obtain ⟨rest, applied', inherited, hrest, hnone, hvalue⟩ := exists_value_expanded h applied e bs
    rw [List.map_cons, hvalue, keptBelow, keptBelow, keptBelow_append, hnone, ihb hrest applied',
      hcs, Element.inherited_expandedIn, Element.isWritable_expandedIn]
    split
    · rfl
    · rw [Tree.forestMapBelow_nodeCons]
      rfl

/-- **Expanding** keeps the widgets that are written, and changes each of them by the rule. -/
theorem kept_expand (templates : List (Template α)) (ws : List (Widget α)) :
    kept (expand templates ws).value
      = Tree.forestMapBelow (Element.expandedIn templates) [] (kept ws) := by
  rw [expand, value_allExpanded]
  induction ws with
  | nil => rfl
  | cons w ws ih =>
    cases w with
    | node e cs =>
      obtain ⟨rest, applied', inherited, hrest, hnone, hvalue⟩ :=
        exists_value_expanded (Template.areLeft_nil templates) [] e cs
      rw [List.map_cons, hvalue, kept_cons, kept_cons, ih, Tree.label_node, Tree.label_node,
        Tree.children_node, Tree.children_node, keptBelow_append, hnone,
        keptBelow_allExpanded hrest applied', Element.isWritable_expandedIn]
      split
      · rw [Tree.forestMapBelow_nodeCons]
        rfl
      · rfl

/-! ### Expanding as a relation -/

/-- The second forest is the first with the templates that are left applied in it: to a widget whose
type names one of them, that one, and in its body and below the widget the others; and below any
other widget all that are left. -/
inductive Expands : List (Template α) → List (Widget α) → List (Widget α) → Prop where
  /-- There are no widgets. -/
  | nil {unused : List (Template α)} : Expands unused [] []
  /-- A template is applied to the first widget. -/
  | applied {unused : List (Template α)} {e : Element α} {t : Template α}
    {cs bs ds ws vs : List (Widget α)} :
    Template.find? unused (textOrEmpty e.surface) = some t →
    Expands (Template.others unused t.name) (t.children.map Template.inheritedChild) bs →
    Expands (Template.others unused t.name) cs ds → Expands unused ws vs →
    Expands unused (.node e cs :: ws) (.node (t.applyTo e) (bs ++ ds) :: vs)
  /-- No template is applied to the first widget. -/
  | kept {unused : List (Template α)} {e : Element α} {cs ds ws vs : List (Widget α)} :
    Template.find? unused (textOrEmpty e.surface) = none →
    Expands unused cs ds → Expands unused ws vs →
    Expands unused (.node e cs :: ws) (.node e ds :: vs)

theorem expands_allExpanded (unused : List (Template α)) (applied : List String)
    (ws : List (Widget α)) : Expands unused ws (allExpanded unused applied ws).value := by
  -- an application uses a template up, and otherwise the widgets get fewer
  induction hn : unused.length using Nat.strong_induction_on generalizing unused applied ws with
  | _ n ihn =>
    induction ws using Tree.forest_induction generalizing applied with
    | nil =>
      rw [value_allExpanded]
      exact .nil
    | cons e cs ws ihc ihw =>
      have hrest := ihw applied
      rw [value_allExpanded] at hrest ⊢
      rw [List.map_cons]
      cases ht : Template.find? unused (textOrEmpty e.surface) with
      | none =>
        rw [value_expanded_of_none ht]
        exact .kept ht (ihc applied) hrest
      | some t =>
        have hless : (Template.others unused t.name).length < n :=
          hn ▸ Template.length_others_lt ht
        rw [value_expanded_of_some ht]
        exact .applied ht (ihn _ hless _ _ _ rfl) (ihn _ hless _ _ _ rfl) hrest

namespace Expands

/-- Of templates that are left only those of other names are left below one that is applied. -/
theorem find?_of_others {t u : Template α} {name : String}
    (h : Template.find? (Template.others unused t.name) name = some u) :
    t.name ≠ name ∧ Template.find? unused name = some u := by
  rw [Template.find?_others] at h
  split at h
  · cases h
  · next hne => exact ⟨hne, h⟩

theorem forall_inheritedChild {Q : Element α → Prop}
    (hflag : ∀ e, Q e → Q { e with inherited := true }) {cs : List (Widget α)}
    (hcs : ∀ e ∈ Tree.forestLabels cs, Q e) :
    ∀ e ∈ Tree.forestLabels (cs.map Template.inheritedChild), Q e := by
  induction cs with
  | nil => exact hcs
  | cons c cs ih =>
    cases c with
    | node e bs =>
      simp only [Tree.forestLabels_cons, List.mem_cons, List.mem_append] at hcs
      intro f hf
      rw [List.map_cons, Template.inheritedChild, Tree.withLabel, Tree.forestLabels_cons,
        List.mem_cons, List.mem_append] at hf
      rcases hf with rfl | hf | hf
      · exact hflag e (hcs e (.inl rfl))
      · exact hcs f (.inr (.inl hf))
      · exact ih (fun d hd => hcs d (.inr (.inr hd))) f hf

/-- When something is true of all widgets of a forest and of the bodies of the templates that are
left, and stays true when a widget is flagged, and something else follows from it for a widget with
the template applied that its type names and for a widget without one, then that is true of all
widgets after expanding, those that templates bring in too. -/
theorem forall_labels {Q S : Element α → Prop}
    (hflag : ∀ e, Q e → Q { e with inherited := true }) (hkept : ∀ e, Q e → S e)
    {ws vs : List (Widget α)} (h : Expands unused ws vs)
    (hunused : ∀ name t, Template.find? unused name = some t →
      (∀ e ∈ Tree.forestLabels t.children, Q e)
        ∧ ∀ e, textOrEmpty e.surface = name → Q e → S (t.applyTo e))
    (hws : ∀ e ∈ Tree.forestLabels ws, Q e) : ∀ e ∈ Tree.forestLabels vs, S e := by
  induction h with
  | nil => simp
  | @applied unused e t cs bs ds ws vs ht _ _ _ ihb ihd ihv =>
    simp only [Tree.forestLabels_cons, Tree.forestLabels_append, List.mem_cons,
      List.mem_append] at hws ⊢
    obtain ⟨hbody, happly⟩ := hunused _ t ht
    have hothers : ∀ name u, Template.find? (Template.others unused t.name) name = some u →
        (∀ e ∈ Tree.forestLabels u.children, Q e)
          ∧ ∀ e, textOrEmpty e.surface = name → Q e → S (u.applyTo e) :=
      fun name u hu => hunused name u (find?_of_others hu).2
    rintro f (rfl | (hf | hf) | hf)
    · exact happly e rfl (hws e (.inl rfl))
    · exact ihb hothers (forall_inheritedChild hflag hbody) f hf
    · exact ihd hothers (fun g hg => hws g (.inr (.inl hg))) f hf
    · exact ihv hunused (fun g hg => hws g (.inr (.inr hg))) f hf
  | kept _ _ _ ihd ihv =>
    simp only [Tree.forestLabels_cons, List.mem_cons, List.mem_append] at hws ⊢
    rintro f (rfl | hf | hf)
    · exact hkept _ (hws _ (.inl rfl))
    · exact ihd hunused (fun g hg => hws g (.inr (.inl hg))) f hf
    · exact ihv hunused (fun g hg => hws g (.inr (.inr hg))) f hf

/-- What a forest expands to is determined. -/
theorem unique {ws vs us : List (Widget α)} (h : Expands unused ws vs) (h' : Expands unused ws us) :
    us = vs := by
  induction h generalizing us with
  | nil =>
    cases h'
    rfl
  | applied ht _ _ _ ihb ihd ihv =>
    cases h' with
    | applied ht' hbody hbelow hrest =>
      obtain rfl := Option.some.inj (ht'.symm.trans ht)
      rw [ihb hbody, ihd hbelow, ihv hrest]
    | kept hnone =>
      rw [ht] at hnone
      cases hnone
  | kept hnone _ _ ihd ihv =>
    cases h' with
    | applied ht' =>
      rw [hnone] at ht'
      cases ht'
    | kept _ hbelow hrest => rw [ihd hbelow, ihv hrest]

end Expands

/-- What a forest expands to, when at most so many widgets and levels have to be passed for it.
Unlike `allExpanded` this is evaluated by its equations, which is for runs on given texts. -/
def expandedWithin? : Nat → List (Template α) → List (Widget α) → Option (List (Widget α))
  | _, _, [] => some []
  | 0, _, _ :: _ => none
  | n + 1, unused, .node e cs :: ws =>
    match Template.find? unused (textOrEmpty e.surface) with
    | some t => do
      let rest := Template.others unused t.name
      let inherited ← expandedWithin? n rest (t.children.map Template.inheritedChild)
      let own ← expandedWithin? n rest cs
      let ws ← expandedWithin? n unused ws
      return .node (t.applyTo e) (inherited ++ own) :: ws
    | none => do
      let cs ← expandedWithin? n unused cs
      let ws ← expandedWithin? n unused ws
      return .node e cs :: ws

theorem expands_of_expandedWithin? {n : Nat} {ws vs : List (Widget α)}
    (h : expandedWithin? n unused ws = some vs) : Expands unused ws vs := by
  induction n generalizing unused ws vs with
  | zero =>
    cases ws with
    | nil =>
      cases h
      exact .nil
    | cons w ws => cases h
  | succ n ih =>
    cases ws with
    | nil =>
      cases h
      exact .nil
    | cons w ws =>
      cases w with
      | node e cs =>
        rw [expandedWithin?] at h
        split at h
        · next t ht =>
          obtain ⟨bs, hbs, h⟩ := Option.bind_eq_some_iff.1 h
          obtain ⟨ds, hds, h⟩ := Option.bind_eq_some_iff.1 h
          obtain ⟨us, hus, h⟩ := Option.bind_eq_some_iff.1 h
          cases h
          exact .applied ht (ih hbs) (ih hds) (ih hus)
        · next hnone =>
          obtain ⟨ds, hds, h⟩ := Option.bind_eq_some_iff.1 h
          obtain ⟨us, hus, h⟩ := Option.bind_eq_some_iff.1 h
          cases h
          exact .kept hnone (ih hds) (ih hus)

/-- Where the number is large enough, all templates are applied. -/
theorem value_expand_of_expandedWithin? {n : Nat} {ws vs : List (Widget α)}
    (h : expandedWithin? n templates ws = some vs) : (expand templates ws).value = vs :=
  (expands_of_expandedWithin? h).unique (expands_allExpanded templates [] ws)

end Widget

end Otui
