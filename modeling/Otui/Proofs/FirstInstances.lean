import Otui.Proofs.ExpandedWidgets

/-!
# The first instance of a template after expanding

A template is not applied to a widget inside another one of the same type. Depth first the outer
widget comes first, so the first widget of a type always has the template applied that its type
names (`Expands.exists_of_firstOf?`): its children are the body of the template, flagged and
expanded, and its own after them. When like forests are expanded by like templates, the first
widgets of a type match: `Expands.rel_firstOf?`.
-/

namespace Otui

open Otui.Document

variable {α : Type} {templates unused unused' : List (Template α)}

/-- A widget that is not flagged as one that comes from a template. -/
def Element.unflagged (e : Element α) : Element α := { e with inherited := false }

theorem Element.unflagged_eq_self {e : Element α} (h : e.inherited = false) : e.unflagged = e := by
  cases e
  cases h
  rfl

theorem Template.inheritedChild_node (e : Element α) (cs : List (Widget α)) :
    inheritedChild (.node e cs) = .node { e with inherited := true } cs := rfl

namespace Widget

/-! ### First widgets -/

/-- The first widget, depth first, of a type as written. -/
def firstOf? (name : String) (ws : List (Widget α)) : Option (Widget α) :=
  (Tree.forestNodes ws).find? fun w => textOrEmpty w.label.surface == name

theorem firstOf?_cons_of_eq {name : String} {e : Element α} (h : textOrEmpty e.surface = name)
    (cs ws : List (Widget α)) : firstOf? name (.node e cs :: ws) = some (.node e cs) := by
  rw [firstOf?, Tree.forestNodes, Tree.nodes, List.cons_append,
    List.find?_cons_of_pos (by simpa using h)]

theorem firstOf?_cons_of_ne {name : String} {e : Element α} (h : textOrEmpty e.surface ≠ name)
    (cs ws : List (Widget α)) :
    firstOf? name (.node e cs :: ws) = (firstOf? name cs).or (firstOf? name ws) := by
  rw [firstOf?, Tree.forestNodes, Tree.nodes, List.cons_append,
    List.find?_cons_of_neg (by simpa using h), List.find?_append]
  rfl

theorem firstOf?_append (name : String) (vs ws : List (Widget α)) :
    firstOf? name (vs ++ ws) = (firstOf? name vs).or (firstOf? name ws) := by
  rw [firstOf?, Tree.forestNodes_append, List.find?_append]
  rfl

namespace Expands

/-- Expanding leaves the flags of the widgets on top. -/
theorem map_inherited {ws vs : List (Widget α)} (h : Expands unused ws vs) :
    vs.map (fun v => v.label.inherited) = ws.map fun w => w.label.inherited := by
  induction h with
  | nil => rfl
  | applied _ _ _ _ _ _ ihv => rw [List.map_cons, List.map_cons, ihv]; rfl
  | kept _ _ _ _ ihv => rw [List.map_cons, List.map_cons, ihv]; rfl

/-- What a template brings in is flagged. -/
theorem inherited_of_mem {cs bs : List (Widget α)}
    (h : Expands unused (cs.map Template.inheritedChild) bs) :
    ∀ b ∈ bs, b.label.inherited = true := by
  intro b hb
  have hmem := List.mem_map_of_mem (f := fun v : Widget α => v.label.inherited) hb
  rw [h.map_inherited, List.map_map, List.mem_map] at hmem
  obtain ⟨c, -, hc⟩ := hmem
  rw [← hc]
  cases c
  rfl

/-- Widgets that are not flagged are not flagged after expanding. -/
theorem not_inherited_of_mem {cs ds : List (Widget α)} (h : Expands unused cs ds)
    (hcs : ∀ e ∈ Tree.forestLabels cs, e.inherited = false) :
    ∀ d ∈ ds, d.label.inherited = false := by
  intro d hd
  have hmem := List.mem_map_of_mem (f := fun v : Widget α => v.label.inherited) hd
  rw [h.map_inherited, List.mem_map] at hmem
  obtain ⟨c, hc, hcd⟩ := hmem
  rw [← hcd]
  cases c with
  | node e bs => exact hcs e (mem_forestLabels_of_mem hc (by simp))

/-- Clearing the flags of what a body was expanded to gives what the body would have been expanded
to without flags. -/
theorem clear {cs bs : List (Widget α)} (h : Expands unused (cs.map Template.inheritedChild) bs)
    (hcs : ∀ c ∈ cs, c.label.inherited = false) :
    Expands unused cs (bs.map fun b => b.withLabel b.label.unflagged) := by
  induction cs generalizing bs with
  | nil =>
    cases h
    exact .nil
  | cons c cs ih =>
    obtain ⟨hc, hothers⟩ := List.forall_mem_cons.1 hcs
    cases c with
    | node e ds =>
      have hflag : ({ e with inherited := true } : Element α).unflagged = e :=
        Element.unflagged_eq_self (e := e) hc
      rw [List.map_cons, Template.inheritedChild_node] at h
      cases h with
      | applied ht hbody hbelow hrest =>
        have happly : ∀ t : Template α,
            (t.applyTo { e with inherited := true }).unflagged = t.applyTo e := fun t =>
          congrArg t.applyTo hflag
        rw [List.map_cons, Tree.withLabel, Tree.label_node, happly]
        exact .applied ht hbody hbelow (ih hrest hothers)
      | kept ht hbelow hrest =>
        rw [List.map_cons, Tree.withLabel, Tree.label_node, hflag]
        exact .kept ht hbelow (ih hrest hothers)

/-! ### The first widget of a type -/

/-- A template of another name is left when one is taken out. -/
theorem find?_others_of_ne {name other : String} (hne : other ≠ name) {t : Template α}
    (ht : Template.find? unused name = some t) :
    Template.find? (Template.others unused other) name = some t := by
  rwa [Template.find?_others, if_neg hne]

theorem forall_children {Q : Element α → Prop} {cs : List (Widget α)}
    (h : ∀ e ∈ Tree.forestLabels cs, Q e) :
    ∀ c ∈ cs, ∀ e ∈ Tree.forestLabels c.children, Q e := by
  intro c hc e he
  cases c with
  | node f bs => exact h e (mem_forestLabels_of_mem hc (by simpa using .inr he))

theorem forall_children_inheritedChild {Q : Element α → Prop} {cs : List (Widget α)}
    (h : ∀ e ∈ Tree.forestLabels cs, Q e) :
    ∀ w ∈ cs.map Template.inheritedChild, ∀ e ∈ Tree.forestLabels w.children, Q e := by
  intro w hw e he
  obtain ⟨c, hc, rfl⟩ := List.mem_map.1 hw
  cases c with
  | node f bs => exact forall_children h _ hc e he

/-- **First widgets**: the first widget of a type that names a template which is left has that
template applied, and the flagged ones of its children are the body of the template, expanded with
templates that are left. -/
theorem exists_of_firstOf? {ws vs : List (Widget α)} (h : Expands unused ws vs) {name : String}
    {t : Template α} (ht : Template.find? unused name = some t)
    (hbodies : ∀ n u, Template.find? unused n = some u →
      ∀ e ∈ Tree.forestLabels u.children, e.inherited = false)
    (hws : ∀ w ∈ ws, ∀ e ∈ Tree.forestLabels w.children, e.inherited = false) {v : Widget α}
    (hv : firstOf? name vs = some v) :
    ∃ e rest, v.label = t.applyTo e
      ∧ (∀ n u, Template.find? rest n = some u → Template.find? unused n = some u)
      ∧ Expands rest (t.children.map Template.inheritedChild)
        (v.children.filter fun c => c.label.inherited) := by
  induction h with
  | nil => cases hv
  | @applied unused e u cs bs ds ws vs hu hbody hbelow _ ihb ihd ihv =>
    obtain ⟨hcs, hws⟩ := List.forall_mem_cons.1 hws
    have hothers : ∀ n w, Template.find? (Template.others unused u.name) n = some w →
        Template.find? unused n = some w := fun n w hw => (find?_of_others hw).2
    by_cases hname : textOrEmpty e.surface = name
    · rw [firstOf?_cons_of_eq (e := u.applyTo e) hname, Option.some.injEq] at hv
      rw [hname, ht, Option.some.injEq] at hu
      subst hv hu
      refine ⟨e, _, rfl, hothers, ?_⟩
      -- below the widget its own children come after the body, and they are not flagged
      have hown : ds.filter (fun c => c.label.inherited) = [] :=
        List.filter_eq_nil_iff.2 fun d hd => by simp [hbelow.not_inherited_of_mem hcs d hd]
      rw [Tree.children_node, List.filter_append, hown, List.append_nil,
        List.filter_eq_self.2 hbody.inherited_of_mem]
      exact hbody
    · rw [firstOf?_cons_of_ne (e := u.applyTo e) hname, firstOf?_append, Option.or_assoc,
        Option.or_eq_some_iff, Option.or_eq_some_iff] at hv
      have hleft : Template.find? (Template.others unused u.name) name = some t :=
        find?_others_of_ne (by rwa [Template.name_of_find? hu]) ht
      have hplain := forall_children_inheritedChild (hbodies _ u hu)
      have hsmaller := fun n w hw => hbodies n w (hothers n w hw)
      rcases hv with hv | ⟨-, hv | ⟨-, hv⟩⟩
      · obtain ⟨f, rest, hf, hrest, hexp⟩ := ihb hleft hsmaller hplain hv
        exact ⟨f, rest, hf, fun n w hw => hothers n w (hrest n w hw), hexp⟩
      · obtain ⟨f, rest, hf, hrest, hexp⟩ := ihd hleft hsmaller (forall_children hcs) hv
        exact ⟨f, rest, hf, fun n w hw => hothers n w (hrest n w hw), hexp⟩
      · exact ihv ht hbodies hws hv
  | @kept unused e cs ds ws vs hnone hbelow _ ihd ihv =>
    obtain ⟨hcs, hws⟩ := List.forall_mem_cons.1 hws
    have hname : textOrEmpty e.surface ≠ name := by
      rintro rfl
      rw [ht] at hnone
      cases hnone
    rw [firstOf?_cons_of_ne hname, Option.or_eq_some_iff] at hv
    rcases hv with hv | ⟨-, hv⟩
    · exact ihd ht hbodies (forall_children hcs) hv
    · exact ihv ht hbodies hws hv

/-! ### Two expansions -/

theorem rel_or {β γ : Type} {Q : β → γ → Prop} {a b : Option β} {c d : Option γ}
    (h : Option.Rel Q a c) (h' : Option.Rel Q b d) : Option.Rel Q (a.or b) (c.or d) := by
  cases h with
  | none => exact h'
  | some hq => exact .some hq

theorem alike_inheritedChild {R : Element α → Element α → Prop}
    (hflag : ∀ e f, R e f → R { e with inherited := true } { f with inherited := true })
    {cs cs' : List (Widget α)} (h : Tree.Alike R cs cs') :
    Tree.Alike R (cs.map Template.inheritedChild) (cs'.map Template.inheritedChild) := by
  induction cs generalizing cs' with
  | nil =>
    cases h
    exact .nil
  | cons c cs ih =>
    cases h with
    | cons hr hbelow hrest => exact .cons (hflag _ _ hr) hbelow (ih hrest)

/-- Templates of which two lists have like ones: a type of a widget of the forest names a template
of both or of neither, and templates of one name have like bodies. -/
structure AreLike (R : Element α → Element α → Prop) (unused unused' : List (Template α))
    (vs : List (Widget α)) : Prop where
  /-- A type that a widget has is found in both or in neither. -/
  isSome_eq : ∀ e ∈ Tree.forestLabels vs, (Template.find? unused' (textOrEmpty e.surface)).isSome
    = (Template.find? unused (textOrEmpty e.surface)).isSome
  /-- The bodies are like each other. -/
  bodies : ∀ name t u, Template.find? unused name = some t → Template.find? unused' name = some u →
    Tree.Alike R t.children u.children

namespace AreLike

variable {R : Element α → Element α → Prop} {vs us : List (Widget α)}

theorem mono (h : AreLike R unused unused' vs)
    (hus : ∀ e ∈ Tree.forestLabels us, e ∈ Tree.forestLabels vs) : AreLike R unused unused' us where
  isSome_eq e he := h.isSome_eq e (hus e he)
  bodies := h.bodies

/-- Of both lists the template of the same name may be taken out. -/
theorem others (h : AreLike R unused unused' vs) (name : String) :
    AreLike R (Template.others unused name) (Template.others unused' name) vs where
  isSome_eq e he := by
    rw [Template.find?_others, Template.find?_others]
    split
    · rfl
    · exact h.isSome_eq e he
  bodies n t u ht hu := by
    rw [Template.find?_others] at ht hu
    split at ht
    · cases ht
    · next hne =>
      rw [if_neg hne] at hu
      exact h.bodies n t u ht hu

/-- A template that a widget names is in both lists, under its name. -/
theorem exists_of_find? (h : AreLike R unused unused' vs) {e : Element α}
    (he : e ∈ Tree.forestLabels vs) {t : Template α}
    (ht : Template.find? unused (textOrEmpty e.surface) = some t) :
    ∃ u, Template.find? unused' (textOrEmpty e.surface) = some u ∧ u.name = t.name := by
  have hsome := h.isSome_eq e he
  rw [ht] at hsome
  obtain ⟨u, hu⟩ := Option.isSome_iff_exists.1 hsome
  exact ⟨u, hu, (Template.name_of_find? hu).trans (Template.name_of_find? ht).symm⟩

theorem find?_eq_none (h : AreLike R unused unused' vs) {e : Element α}
    (he : e ∈ Tree.forestLabels vs)
    (hnone : Template.find? unused (textOrEmpty e.surface) = none) :
    Template.find? unused' (textOrEmpty e.surface) = none := by
  have hsome := h.isSome_eq e he
  rwa [hnone, Option.isSome_none, Option.isSome_eq_false_iff, Option.isNone_iff_eq_none] at hsome

end AreLike

/-- **Two expansions**: when like forests are expanded by like templates, the first widgets of a
type that names a template have these templates applied, to widgets that match. -/
theorem rel_firstOf? {R : Element α → Element α → Prop}
    (hsurface : ∀ e f, R e f → textOrEmpty f.surface = textOrEmpty e.surface)
    (hflag : ∀ e f, R e f → R { e with inherited := true } { f with inherited := true })
    {ws vs : List (Widget α)} (h : Expands unused ws vs) {ws' vs' : List (Widget α)}
    (h' : Expands unused' ws' vs') (hws : Tree.Alike R ws ws')
    (hlike : AreLike R unused unused' vs) {name : String} {t u : Template α}
    (ht : Template.find? unused name = some t) (hu : Template.find? unused' name = some u) :
    Option.Rel (fun v v' => ∃ e f, R e f ∧ v.label = t.applyTo e ∧ v'.label = u.applyTo f)
      (firstOf? name vs) (firstOf? name vs') := by
  induction h generalizing unused' ws' vs' with
  | nil =>
    cases hws
    cases h'
    exact .none
  | @applied unused e x cs bs ds ws vs hx hbody hbelow _ ihb ihd ihv =>
    cases hws with
    | @cons _ f _ _ cs' ws' hef hcs hws =>
    have hnames : textOrEmpty f.surface = textOrEmpty e.surface := hsurface e f hef
    obtain ⟨y, hy, hxy⟩ := hlike.exists_of_find? (e := x.applyTo e) (by simp) hx
    change Template.find? unused' (textOrEmpty e.surface) = some y at hy
    have hrest : AreLike R unused unused' vs := hlike.mono fun g hg => by simp [hg]
    cases h' with
    | kept hnone =>
      rw [hnames, hy] at hnone
      cases hnone
    | @applied _ _ z _ bs' ds' _ vs' hz hbody' hbelow' hrest' =>
      rw [hnames, hy, Option.some.injEq] at hz
      subst hz
      by_cases hname : textOrEmpty e.surface = name
      · rw [firstOf?_cons_of_eq (e := x.applyTo e) hname,
          firstOf?_cons_of_eq (e := y.applyTo f) (hnames.trans hname)]
        rw [hname, ht, Option.some.injEq] at hx
        rw [hname, hu, Option.some.injEq] at hy
        exact .some ⟨e, f, hef, by rw [hx]; rfl, by rw [hy]; rfl⟩
      · rw [firstOf?_cons_of_ne (e := x.applyTo e) hname,
          firstOf?_cons_of_ne (e := y.applyTo f) (by rwa [← hnames] at hname), firstOf?_append,
          firstOf?_append]
        -- inside the widget the same template is taken from both lists
        have hother : x.name ≠ name := by rwa [Template.name_of_find? hx]
        rw [hxy] at hbody' hbelow'
        have hinside : AreLike R (Template.others unused x.name) (Template.others unused' x.name)
            (bs ++ ds) := (hlike.others x.name).mono fun g hg => by
          rw [Tree.forestLabels_cons]
          exact List.mem_cons_of_mem _ (List.mem_append_left _ hg)
        have hbodies := hinside.mono fun g (hg : g ∈ Tree.forestLabels bs) => by simp [hg]
        have hchildren := hinside.mono fun g (hg : g ∈ Tree.forestLabels ds) => by simp [hg]
        have hleft := find?_others_of_ne hother ht
        have hleft' := find?_others_of_ne hother hu
        exact rel_or
          (rel_or
            (ihb hbody' (alike_inheritedChild hflag (hlike.bodies _ x y hx hy)) hbodies hleft
              hleft')
            (ihd hbelow' hcs hchildren hleft hleft'))
          (ihv hrest' hws hrest ht hu)
  | @kept unused e cs ds ws vs hnone hbelow _ ihd ihv =>
    cases hws with
    | @cons _ f _ _ cs' ws' hef hcs hws =>
    have hnames : textOrEmpty f.surface = textOrEmpty e.surface := hsurface e f hef
    have hname : textOrEmpty e.surface ≠ name := by
      rintro rfl
      rw [ht] at hnone
      cases hnone
    cases h' with
    | applied hy =>
      rw [hnames, hlike.find?_eq_none (by simp) hnone] at hy
      cases hy
    | kept _ hbelow' hrest' =>
      rw [firstOf?_cons_of_ne hname, firstOf?_cons_of_ne (by rwa [← hnames] at hname)]
      exact rel_or
        (ihd hbelow' hcs (hlike.mono fun g hg => by simp [hg]) ht hu)
        (ihv hrest' hws (hlike.mono fun g hg => by simp [hg]) ht hu)

end Expands

end Widget

end Otui
