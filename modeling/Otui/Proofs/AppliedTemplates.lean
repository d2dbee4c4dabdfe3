import Otui.Proofs.ExpandedWidgets

/-!
# Which templates are applied on the way to a widget

`Widget.Applies` tells expanding from the templates and the names of those that were applied above,
one rule for each thing that can happen to a widget: its type names a template, which is applied or,
inside itself, refused with a notice; or it names none. With each widget of the result goes the
template that was applied to it.

Nothing in these rules gets smaller. Yet expanding ends: for every forest and all templates there is
exactly one way to apply the rules, and `expand` follows it. From a root down to any widget no
template is applied twice, and the notices are about the widgets whose type names a template that
was applied above them, one for each: `expand_ends`.
-/

namespace Otui

variable {α : Type} {templates unused : List (Template α)}

/-- A widget after expanding, with the template that was applied to it. -/
structure Traced (α : Type) where
  /-- The widget. -/
  element : Element α
  /-- The template, if one was applied. -/
  template : Option (Template α) := none

namespace Traced

/-- The names of the templates that were applied to some widgets. -/
def names (ts : List (Traced α)) : List String := ts.filterMap fun t => t.template.map Template.name

/-- The notice about a widget below others whose type names a template that was applied to one of
them. -/
def refusal? (p : List (Traced α) × Tree (Traced α)) : Option Notice :=
  let name := textOrEmpty p.2.label.element.surface
  if name ∈ names p.1 then some (.selfContaining name) else none

@[simp] theorem names_nil : names ([] : List (Traced α)) = [] := rfl

@[simp] theorem names_cons_some (e : Element α) (t : Template α) (ts : List (Traced α)) :
    names (⟨e, some t⟩ :: ts) = t.name :: names ts := rfl

@[simp] theorem names_cons_none (e : Element α) (ts : List (Traced α)) :
    names (⟨e, none⟩ :: ts) = names ts := rfl

theorem refusal?_of_mem {up : List (Traced α)} {u : Traced α} (us : List (Tree (Traced α)))
    (h : textOrEmpty u.element.surface ∈ names up) :
    refusal? (up, .node u us) = some (.selfContaining (textOrEmpty u.element.surface)) :=
  if_pos h

theorem refusal?_of_not_mem {up : List (Traced α)} {u : Traced α} (us : List (Tree (Traced α)))
    (h : textOrEmpty u.element.surface ∉ names up) : refusal? (up, .node u us) = none :=
  if_neg h

end Traced

namespace Widget

/-! ### The rules -/

/-- A forest below widgets to which templates of some names were applied becomes another forest, and
there are some notices on the way. -/
inductive Applies (templates : List (Template α)) :
    List String → List (Widget α) → List (Tree (Traced α)) → List Notice → Prop where
  /-- There are no widgets. -/
  | nil {names : List String} : Applies templates names [] [] []
  /-- The type of the first widget names a template that was not applied above: it is applied, and
  its body goes before the children. -/
  | applied {names : List String} {e : Element α} {t : Template α} {cs ws : List (Widget α)}
    {us vs : List (Tree (Traced α))} {below beside : List Notice} :
    Template.find? templates (textOrEmpty e.surface) = some t → t.name ∉ names →
    Applies templates (t.name :: names) (t.children.map Template.inheritedChild ++ cs) us below →
    Applies templates names ws vs beside →
    Applies templates names (.node e cs :: ws) (.node ⟨t.applyTo e, some t⟩ us :: vs)
      (below ++ beside)
  /-- The type of the first widget names a template that was applied above: it stays as it is, and
  there is a notice. -/
  | refused {names : List String} {e : Element α} {t : Template α} {cs ws : List (Widget α)}
    {us vs : List (Tree (Traced α))} {below beside : List Notice} :
    Template.find? templates (textOrEmpty e.surface) = some t → t.name ∈ names →
    Applies templates names cs us below → Applies templates names ws vs beside →
    Applies templates names (.node e cs :: ws) (.node ⟨e, none⟩ us :: vs)
      (.selfContaining t.name :: (below ++ beside))
  /-- The type of the first widget names no template. -/
  | plain {names : List String} {e : Element α} {cs ws : List (Widget α)}
    {us vs : List (Tree (Traced α))} {below beside : List Notice} :
    Template.find? templates (textOrEmpty e.surface) = none →
    Applies templates names cs us below → Applies templates names ws vs beside →
    Applies templates names (.node e cs :: ws) (.node ⟨e, none⟩ us :: vs) (below ++ beside)

namespace Applies

variable {names : List String} {ws ws' : List (Widget α)} {vs vs' : List (Tree (Traced α))}
  {notices notices' : List Notice}

/-- Forests beside each other are expanded one after the other. -/
theorem append (h : Applies templates names ws vs notices)
    (h' : Applies templates names ws' vs' notices') :
    Applies templates names (ws ++ ws') (vs ++ vs') (notices ++ notices') := by
  induction h with
  | nil => exact h'
  | applied ht hnew hbelow _ _ ih =>
    rw [List.append_assoc]
    exact .applied ht hnew hbelow (ih h')
  | refused ht hold hbelow _ _ ih =>
    simp only [List.cons_append, List.append_assoc]
    exact .refused ht hold hbelow (ih h')
  | plain ht hbelow _ _ ih =>
    rw [List.append_assoc]
    exact .plain ht hbelow (ih h')

/-- There is at most one way to apply the rules. -/
theorem unique (h : Applies templates names ws vs notices)
    (h' : Applies templates names ws vs' notices') : vs' = vs ∧ notices' = notices := by
  induction h generalizing vs' notices' with
  | nil =>
    cases h'
    exact ⟨rfl, rfl⟩
  | applied ht hnew _ _ ihbelow ihrest =>
    cases h' with
    | applied ht' _ hbelow hrest =>
      obtain rfl := Option.some.inj (ht'.symm.trans ht)
      obtain ⟨rfl, rfl⟩ := ihbelow hbelow
      obtain ⟨rfl, rfl⟩ := ihrest hrest
      exact ⟨rfl, rfl⟩
    | refused ht' hold =>
      obtain rfl := Option.some.inj (ht'.symm.trans ht)
      exact absurd hold hnew
    | plain hnone => cases hnone.symm.trans ht
  | refused ht hold _ _ ihbelow ihrest =>
    cases h' with
    | applied ht' hnew =>
      obtain rfl := Option.some.inj (ht'.symm.trans ht)
      exact absurd hold hnew
    | refused ht' _ hbelow hrest =>
      obtain rfl := Option.some.inj (ht'.symm.trans ht)
      obtain ⟨rfl, rfl⟩ := ihbelow hbelow
      obtain ⟨rfl, rfl⟩ := ihrest hrest
      exact ⟨rfl, rfl⟩
    | plain hnone => cases hnone.symm.trans ht
  | plain hnone _ _ ihbelow ihrest =>
    cases h' with
    | applied ht => cases hnone.symm.trans ht
    | refused ht => cases hnone.symm.trans ht
    | plain _ hbelow hrest =>
      obtain ⟨rfl, rfl⟩ := ihbelow hbelow
      obtain ⟨rfl, rfl⟩ := ihrest hrest
      exact ⟨rfl, rfl⟩

/-- **Ways from a root**: below widgets with distinct templates no template is applied that was
applied above, and the notices are the refusals. -/
theorem nodup_names_and_notices_eq (h : Applies templates names ws vs notices)
    {up : List (Traced α)} (hup : Traced.names up = names) (hnodup : names.Nodup)
    (hknown : ∀ name ∈ names, (Template.find? templates name).isSome = true) :
    (∀ p ∈ Tree.forestPaths up vs, (Traced.names (p.2.label :: p.1)).Nodup)
      ∧ notices = (Tree.forestPaths up vs).filterMap Traced.refusal? := by
  -- the widgets above are told by the names of their templates alone
  induction h generalizing up with
  | nil => exact ⟨by simp [Tree.forestPaths], rfl⟩
  | @applied names e t cs ws us vs below beside ht hnew _ _ ihbelow ihrest =>
    have hname : t.name = textOrEmpty e.surface := Template.name_of_find? ht
    have htraced : Traced.names (⟨t.applyTo e, some t⟩ :: up) = t.name :: names := by
      rw [Traced.names_cons_some, hup]
    have hbelow := ihbelow htraced (List.nodup_cons.2 ⟨hnew, hnodup⟩)
      (by simpa [hname, ht] using hknown)
    have hrest := ihrest hup hnodup hknown
    have hnone : Traced.refusal? (up, .node ⟨t.applyTo e, some t⟩ us) = none :=
      Traced.refusal?_of_not_mem us (by rw [hup]; exact hname ▸ hnew)
    rw [Tree.forestPaths, Tree.paths, List.cons_append, List.forall_mem_cons, List.forall_mem_append,
      List.filterMap_cons_none hnone, List.filterMap_append, ← hbelow.2, ← hrest.2]
    refine ⟨⟨?_, hbelow.1, hrest.1⟩, rfl⟩
    rw [Tree.label_node, Traced.names_cons_some, hup]
    exact List.nodup_cons.2 ⟨hnew, hnodup⟩
  | @refused names e t cs ws us vs below beside ht hold _ _ ihbelow ihrest =>
    have hname : t.name = textOrEmpty e.surface := Template.name_of_find? ht
    have htraced : Traced.names (⟨e, none⟩ :: up) = names := hup
    have hbelow := ihbelow htraced hnodup hknown
    have hrest := ihrest hup hnodup hknown
    have hsome : Traced.refusal? (up, .node ⟨e, none⟩ us) = some (.selfContaining t.name) := by
      rw [hname]
      exact Traced.refusal?_of_mem us (by rw [hup]; exact hname ▸ hold)
    rw [Tree.forestPaths, Tree.paths, List.cons_append, List.forall_mem_cons, List.forall_mem_append,
      List.filterMap_cons_some hsome, List.filterMap_append, ← hbelow.2, ← hrest.2]
    exact ⟨⟨by rwa [Tree.label_node, Traced.names_cons_none, hup], hbelow.1, hrest.1⟩, rfl⟩
  | @plain names e cs ws us vs below beside hnone' _ _ ihbelow ihrest =>
    have htraced : Traced.names (⟨e, none⟩ :: up) = names := hup
    have hbelow := ihbelow htraced hnodup hknown
    have hrest := ihrest hup hnodup hknown
    have hnone : Traced.refusal? (up, .node ⟨e, none⟩ us) = none := by
      refine Traced.refusal?_of_not_mem us fun hmem => ?_
      have hsome := hknown _ (hup ▸ hmem)
      rw [hnone'] at hsome
      cases hsome
    rw [Tree.forestPaths, Tree.paths, List.cons_append, List.forall_mem_cons, List.forall_mem_append,
      List.filterMap_cons_none hnone, List.filterMap_append, ← hbelow.2, ← hrest.2]
    exact ⟨⟨by rwa [Tree.label_node, Traced.names_cons_none, hup], hbelow.1, hrest.1⟩, rfl⟩

end Applies

/-! ### Expanding follows the rules -/

/-- Of some templates, those are left that were not applied, and those that were applied are among
them. -/
structure LeavesUnused (templates : List (Template α)) (names : List String)
    (unused : List (Template α)) : Prop where
  /-- A template is left unless one of its name was applied. -/
  find?_eq : ∀ name, Template.find? unused name
    = if name ∈ names then none else Template.find? templates name
  /-- What was applied was a template. -/
  isSome : ∀ name ∈ names, (Template.find? templates name).isSome = true

namespace LeavesUnused

variable {names : List String} {name : String} {t : Template α}

/-- A template that is left is one of all, and was not applied. -/
theorem of_some (h : LeavesUnused templates names unused)
    (ht : Template.find? unused name = some t) :
    Template.find? templates name = some t ∧ t.name ∉ names := by
  rw [h.find?_eq] at ht
  split at ht
  · cases ht
  · next hnew => exact ⟨ht, Template.name_of_find? ht ▸ hnew⟩

/-- Applying a template leaves those of other names. -/
theorem cons (h : LeavesUnused templates names unused)
    (ht : Template.find? unused name = some t) :
    LeavesUnused templates (t.name :: names) (Template.others unused t.name) where
  find?_eq other := by
    rw [Template.find?_others, h.find?_eq]
    by_cases hother : other = t.name
    · simp [hother]
    · simp [hother, Ne.symm hother]
  isSome other hmem := by
    rcases List.mem_cons.1 hmem with rfl | hmem
    · rw [Template.name_of_find? ht, (h.of_some ht).1]
      rfl
    · exact h.isSome other hmem

end LeavesUnused

theorem notices_allExpanded_cons (unused : List (Template α)) (applied : List String)
    (w : Widget α) (ws : List (Widget α)) :
    (allExpanded unused applied (w :: ws)).notices
      = (expanded unused applied w).notices ++ (allExpanded unused applied ws).notices := by
  rw [allExpanded]
  simp only [Noted.notices_bind, Noted.notices_pure, List.append_nil]

theorem notices_expanded_of_some {e : Element α} {t : Template α}
    (h : Template.find? unused (textOrEmpty e.surface) = some t) (applied : List String)
    (cs : List (Widget α)) :
    (expanded unused applied (.node e cs)).notices
      = (allExpanded (Template.others unused t.name) (t.name :: applied)
            (t.children.map Template.inheritedChild)).notices
          ++ (allExpanded (Template.others unused t.name) (t.name :: applied) cs).notices := by
  rw [expanded]
  split
  · next u hu =>
    cases h.symm.trans hu
    simp only [Noted.notices_bind, Noted.notices_pure, List.append_nil]
  · next hnone => cases h.symm.trans hnone

theorem notices_expanded_of_none {e : Element α}
    (h : Template.find? unused (textOrEmpty e.surface) = none) (applied : List String)
    (cs : List (Widget α)) :
    (expanded unused applied (.node e cs)).notices
      = (if textOrEmpty e.surface ∈ applied then [.selfContaining (textOrEmpty e.surface)] else [])
          ++ (allExpanded unused applied cs).notices := by
  rw [expanded]
  split
  · next u hu => cases h.symm.trans hu
  · by_cases hmem : textOrEmpty e.surface ∈ applied <;> simp [hmem]

theorem value_allExpanded_cons (unused : List (Template α)) (applied : List String)
    (w : Widget α) (ws : List (Widget α)) :
    (allExpanded unused applied (w :: ws)).value
      = (expanded unused applied w).value :: (allExpanded unused applied ws).value := by
  rw [value_allExpanded, value_allExpanded, List.map_cons]

/-- The rules can be applied to every forest, and expanding follows them. -/
theorem exists_applies (templates unused : List (Template α)) (applied : List String)
    (ws : List (Widget α)) (h : LeavesUnused templates applied unused) :
    ∃ vs, Applies templates applied ws vs (allExpanded unused applied ws).notices
      ∧ Tree.forestMap Traced.element vs = (allExpanded unused applied ws).value := by
  -- an application uses a template up, and otherwise the widgets get fewer
  induction hn : unused.length using Nat.strong_induction_on generalizing unused applied ws with
  | _ n ihn =>
    induction ws using Tree.forest_induction with
    | nil =>
      rw [allExpanded]
      exact ⟨[], .nil, rfl⟩
    | cons e cs ws ihc ihw =>
      obtain ⟨vs, hvs, hvalue⟩ := ihw
      rw [notices_allExpanded_cons, value_allExpanded_cons]
      cases ht : Template.find? unused (textOrEmpty e.surface) with
      | some t =>
        have hless : (Template.others unused t.name).length < n :=
          hn ▸ Template.length_others_lt ht
        obtain ⟨hfound, hnew⟩ := h.of_some ht
        obtain ⟨bs, hbs, hbody⟩ := ihn _ hless _ (t.name :: applied)
          (t.children.map Template.inheritedChild) (h.cons ht) rfl
        obtain ⟨ds, hds, hown⟩ := ihn _ hless _ (t.name :: applied) cs (h.cons ht) rfl
        rw [notices_expanded_of_some ht, value_expanded_of_some ht]
        refine ⟨.node ⟨t.applyTo e, some t⟩ (bs ++ ds) :: vs,
          .applied hfound hnew (hbs.append hds) hvs, ?_⟩
        rw [Tree.forestMap_nodeCons, Tree.forestMap_eq_map, List.map_append, ← Tree.forestMap_eq_map,
          ← Tree.forestMap_eq_map, hbody, hown, hvalue]
      | none =>
        obtain ⟨us, hus, hbelow⟩ := ihc
        rw [notices_expanded_of_none ht, value_expanded_of_none ht]
        refine ⟨.node ⟨e, none⟩ us :: vs, ?_, by rw [Tree.forestMap_nodeCons, hbelow, hvalue]⟩
        by_cases hmem : textOrEmpty e.surface ∈ applied
        · obtain ⟨t, hfound⟩ := Option.isSome_iff_exists.1 (h.isSome _ hmem)
          have hname : t.name = textOrEmpty e.surface := Template.name_of_find? hfound
          rw [if_pos hmem, ← hname]
          exact .refused hfound (hname ▸ hmem) hus hvs
        · have hnone := h.find?_eq (textOrEmpty e.surface)
          rw [ht, if_neg hmem] at hnone
          rw [if_neg hmem, List.nil_append]
          exact .plain hnone.symm hus hvs

/-- **Expanding ends**: whatever the templates and the widgets, the rules can be applied in exactly
one way, and that gives the widgets and the notices of `expand`; from a root down to any widget of
the result the applied templates have distinct names; and the notices are, in order, about the
widgets of the result whose type names a template that was applied to a widget above. -/
theorem expand_ends (templates : List (Template α)) (ws : List (Widget α)) :
    ∃ vs, Tree.forestMap Traced.element vs = (expand templates ws).value
      ∧ (∀ us notices, Applies templates [] ws us notices
          ↔ us = vs ∧ notices = (expand templates ws).notices)
      ∧ (∀ p ∈ Tree.forestPaths [] vs, (Traced.names (p.2.label :: p.1)).Nodup)
      ∧ (expand templates ws).notices = (Tree.forestPaths [] vs).filterMap Traced.refusal? := by
  obtain ⟨vs, hvs, hvalue⟩ := exists_applies templates templates [] ws ⟨fun _ => rfl, by simp⟩
  have hways := hvs.nodup_names_and_notices_eq Traced.names_nil List.nodup_nil (by simp)
  refine ⟨vs, hvalue, fun us notices => ⟨hvs.unique, ?_⟩, hways.1, hways.2⟩
  rintro ⟨rfl, rfl⟩
  exact hvs

end Widget

end Otui
