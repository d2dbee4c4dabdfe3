import Otui.Proofs.FinishedDocuments
import Otui.Proofs.LineNesting

/-!
# Nesting is decided by indentation alone

Whatever the text, reading makes one widget or one template of each opening and nothing else. A
widget is a child of the widget or template whose opening its own opening belongs to, or a root when
there is none; a template is never a child; a property line goes to the opening that it belongs to,
and is dropped when there is none. Roots, templates and children stand in the order of their lines:
`nested_read`.
-/

namespace Otui

open Otui.Text

variable {α : Type}

namespace Document

/-! ### Lines are in order -/

theorem number_of_read? {number : Nat} {cs : List Char} {l : ContentLine}
    (h : ContentLine.read? number cs = some l) : l.number = number := by
  simp only [ContentLine.read?] at h
  split at h
  · cases h
  · cases h
    rfl

theorem le_number_of_mem {number : Nat} {ls : List (List Char)} {l : ContentLine}
    (h : l ∈ contentLinesFrom number ls) : number ≤ l.number := by
  induction ls generalizing number with
  | nil => cases h
  | cons cs ls ih =>
    rw [contentLinesFrom] at h
    split at h
    · next k hk =>
      rcases List.mem_cons.1 h with rfl | h
      · exact (number_of_read? hk).ge
      · exact Nat.le_of_succ_le (ih h)
    · exact Nat.le_of_succ_le (ih h)

/-- The content lines of a text are in the order of their numbers. -/
theorem areNumbered_lines (text : String) : AreNumbered (lines text) := by
  have hfrom : ∀ (ls : List (List Char)) (number : Nat),
      (contentLinesFrom number ls).Pairwise fun k l => k.number < l.number := by
    intro ls
    induction ls with
    | nil => exact fun _ => .nil
    | cons cs ls ih =>
      intro number
      rw [contentLinesFrom]
      split
      · next k hk =>
        refine List.pairwise_cons.2 ⟨fun l hl => ?_, ih _⟩
        rw [number_of_read? hk]
        exact le_number_of_mem hl
      · exact ih _
  rw [AreNumbered, lines, List.pairwise_map]
  exact hfrom _ _

/-! ### Widgets and templates among the lines -/

/-- The property that a line says. -/
def Line.property? (l : Line) : Option OwnLine :=
  match l.content with
  | .property key value raw => some (key, value, raw, l.number)
  | _ => none

/-- Forests of the lines that open widgets, and trees of those that open templates with the widgets
in their bodies, that stand as indentation says. -/
structure IsNesting (ls : List Line) (widgets templates : List (Tree Line)) : Prop where
  /-- The roots are the widgets that belong to no opening, in order. -/
  roots : widgets.map Tree.label = (linesOf ls none).filter Line.isWidget
  /-- The children of a widget or a template are the widgets that belong to it, in order. -/
  children : ∀ t ∈ Tree.forestNodes (widgets ++ templates),
    t.children.map Tree.label = (linesOf ls (some t.label)).filter Line.isWidget
  /-- The templates are all there are, in order. -/
  openings : templates.map Tree.label = ls.filter Line.isTemplate
  /-- Every widget stands in one place, among the roots and all below them or in the body of a
  template. -/
  once : (Tree.forestLabels widgets ++ templates.flatMap fun t => Tree.forestLabels t.children).Perm
    (ls.filter Line.isWidget)

/-- The widgets of a forest of lines with the widgets below them. -/
def widgetsIn : List (Tree Line) → List (Tree Line)
  | [] => []
  | .node l ks :: ts => if l.isWidget then .node l (widgetsIn ks) :: widgetsIn ts else widgetsIn ts
  termination_by ts => sizeOf ts
  decreasing_by
    all_goals
      simp only [List.cons.sizeOf_spec, Tree.node.sizeOf_spec]
      omega

/-- The templates of a forest of lines with the widgets below them. -/
def templatesIn : List (Tree Line) → List (Tree Line)
  | [] => []
  | .node l ks :: ts =>
    (if l.isTemplate then [.node l (widgetsIn ks)] else []) ++ templatesIn ks ++ templatesIn ts
  termination_by ts => sizeOf ts
  decreasing_by
    all_goals
      simp only [List.cons.sizeOf_spec, Tree.node.sizeOf_spec]
      omega

theorem map_label_widgetsIn (ts : List (Tree Line)) :
    (widgetsIn ts).map Tree.label = (ts.map Tree.label).filter Line.isWidget := by
  induction ts using Tree.forest_induction with
  | nil => simp [widgetsIn]
  | cons l ks ts _ iht =>
    rw [widgetsIn, List.map_cons, Tree.label_node, List.filter_cons]
    split
    · rw [List.map_cons, Tree.label_node, iht]
    · exact iht

theorem map_label_templatesIn (ts : List (Tree Line)) :
    (templatesIn ts).map Tree.label = (Tree.forestLabels ts).filter Line.isTemplate := by
  induction ts using Tree.forest_induction with
  | nil => simp [templatesIn]
  | cons l ks ts ihk iht =>
    rw [templatesIn, List.map_append, List.map_append, ihk, iht, Tree.forestLabels_cons,
      List.filter_cons, List.filter_append, List.append_assoc]
    split <;> rfl

/-- What stands in the forest of widgets stands in the forest of lines. -/
theorem exists_of_mem_widgetsIn {ts : List (Tree Line)} {u : Tree Line}
    (h : u ∈ Tree.forestNodes (widgetsIn ts)) :
    ∃ t ∈ Tree.forestNodes ts, u.label = t.label ∧ u.children = widgetsIn t.children := by
  induction ts using Tree.forest_induction with
  | nil => simp [widgetsIn, Tree.forestNodes] at h
  | cons l ks ts ihk iht =>
    have hrest : u ∈ Tree.forestNodes (widgetsIn ts) → ∃ t ∈ Tree.forestNodes (.node l ks :: ts),
        u.label = t.label ∧ u.children = widgetsIn t.children := fun hu => by
      obtain ⟨t, ht, hu⟩ := iht hu
      exact ⟨t, Tree.mem_forestNodes_cons.2 (.inr (.inr ht)), hu⟩
    rw [widgetsIn] at h
    split at h
    · rcases Tree.mem_forestNodes_cons.1 h with rfl | h | h
      · exact ⟨_, Tree.mem_forestNodes_cons.2 (.inl rfl), rfl, rfl⟩
      · obtain ⟨t, ht, hu⟩ := ihk h
        exact ⟨t, Tree.mem_forestNodes_cons.2 (.inr (.inl ht)), hu⟩
      · exact hrest h
    · exact hrest h

theorem exists_of_mem_templatesIn {ts : List (Tree Line)} {u : Tree Line}
    (h : u ∈ Tree.forestNodes (templatesIn ts)) :
    ∃ t ∈ Tree.forestNodes ts, u.label = t.label ∧ u.children = widgetsIn t.children := by
  induction ts using Tree.forest_induction with
  | nil => simp [templatesIn, Tree.forestNodes] at h
  | cons l ks ts ihk iht =>
    rw [templatesIn, Tree.forestNodes_append, Tree.forestNodes_append, List.mem_append,
      List.mem_append] at h
    rcases h with (h | h) | h
    · split at h
      · rcases Tree.mem_forestNodes_cons.1 h with rfl | h | h
        · exact ⟨_, Tree.mem_forestNodes_cons.2 (.inl rfl), rfl, rfl⟩
        · obtain ⟨t, ht, hu⟩ := exists_of_mem_widgetsIn h
          exact ⟨t, Tree.mem_forestNodes_cons.2 (.inr (.inl ht)), hu⟩
        · cases h
      · cases h
    · obtain ⟨t, ht, hu⟩ := ihk h
      exact ⟨t, Tree.mem_forestNodes_cons.2 (.inr (.inl ht)), hu⟩
    · obtain ⟨t, ht, hu⟩ := iht h
      exact ⟨t, Tree.mem_forestNodes_cons.2 (.inr (.inr ht)), hu⟩

/-- The widgets and the bodies of the templates have the lines that open widgets, each once. -/
theorem perm_widgetsIn_templatesIn (ls : List Line) :
    (Tree.forestLabels (widgetsIn (nest ls))
        ++ (templatesIn (nest ls)).flatMap fun t => Tree.forestLabels t.children).Perm
      (ls.filter Line.isWidget) := by
  fun_induction nest ls with
  | case1 => simp [widgetsIn, templatesIn]
  | case2 l rest hl ihbody ihrest =>
    refine List.perm_iff_count.2 fun k => ?_
    have hbody := ihbody.count_eq k
    have hrest := ihrest.count_eq k
    have hfilter : rest.filter Line.isWidget
        = (rest.takeWhile (Line.isBelow l.level)).filter Line.isWidget
          ++ (rest.dropWhile (Line.isBelow l.level)).filter Line.isWidget := by
      rw [← List.filter_append, List.takeWhile_append_dropWhile]
    rw [templatesIn, widgetsIn, List.flatMap_append, List.flatMap_append, List.filter_cons, hfilter]
    by_cases hw : l.isWidget = true
    · simp only [hw, Line.isTemplate_eq_false hw, if_true, Bool.false_eq_true, if_false,
        Tree.forestLabels_cons, List.flatMap_nil, List.nil_append, List.cons_append,
        List.count_cons, List.count_append] at hbody hrest ⊢
      omega
    · have ht : l.isTemplate = true := by simpa [Line.isOpening, hw] using hl
      simp only [hw, ht, Bool.false_eq_true, if_false, if_true, List.flatMap_singleton,
        Tree.children_node, List.count_append] at hbody hrest ⊢
      omega
  | case3 l rest hl ih =>
    have hw : l.isWidget = false ∧ l.isTemplate = false := by simpa [Line.isOpening] using hl
    rw [templatesIn, widgetsIn, List.filter_cons]
    simpa [hw.1, hw.2, templatesIn, widgetsIn] using ih

/-- The forest of the lines of a text, told apart into widgets and templates, is a nesting. -/
theorem isNesting_nest {ls : List Line} (h : AreNumbered ls) :
    IsNesting ls (widgetsIn (nest ls)) (templatesIn (nest ls)) := by
  obtain ⟨hroots, hbelow⟩ := nest_eq_linesOf h
  refine ⟨?_, fun u hu => ?_, ?_, perm_widgetsIn_templatesIn ls⟩
  · rw [map_label_widgetsIn, hroots]
  · have hnode : ∃ t ∈ Tree.forestNodes (nest ls),
        u.label = t.label ∧ u.children = widgetsIn t.children := by
      rw [Tree.forestNodes_append, List.mem_append] at hu
      exact hu.elim exists_of_mem_widgetsIn exists_of_mem_templatesIn
    obtain ⟨t, ht, hlabel, hchildren⟩ := hnode
    rw [hchildren, map_label_widgetsIn, hbelow t ht, hlabel]
  · rw [map_label_templatesIn, forestLabels_nest]

/-! ### Reading the lines -/

end Document

open Document

/-- The lines of an opening's body that say properties, as reading takes them. -/
def Document.propertiesOf (ls : List Line) (l : Line) : List OwnLine :=
  (linesOf ls (some l)).filterMap Line.property?

/-- A widget that an opening makes: its type is the name in the opening, and its properties are
what the lines that belong to the opening store. -/
structure Element.IsOpenedBy (ls : List Line) (l : Line) (e : Element α) : Prop where
  /-- The opening has the name and no base. -/
  opening : ∃ name, l.content = .opening name none ∧ e.surface = some name
  /-- The properties come from the lines that belong to the opening. -/
  properties : e.properties = Properties.recordAll {} (propertiesOf ls l)

/-- A template that an opening with what stands below it makes. -/
structure Template.IsOpenedBy (ls : List Line) (u : Tree Line) (t : Template α) : Prop where
  /-- The opening has the name and the base. -/
  opening : u.label.content = .opening t.name (some t.base)
  /-- The properties come from the lines that belong to the opening. -/
  properties : t.properties = Properties.recordAll {} (propertiesOf ls u.label)
  /-- The widgets of the body are opened by what stands below. -/
  body : Tree.Alike (Element.IsOpenedBy ls) u.children t.children

namespace Document

theorem Line.exists_of_isOpening {l : Line} (h : l.isOpening = true) :
    ∃ name base, l.content = .opening name base := by
  cases hc : l.content with
  | opening name base => exact ⟨name, base, rfl⟩
  | property key value raw => simp [isOpening, isWidget, isTemplate, hc] at h
  | other => simp [isOpening, isWidget, isTemplate, hc] at h

/-- The property lines of an outline are those among its topmost lines. -/
theorem ownProperties_outline (run : List Line) :
    ownProperties (outline run) = ((nest run).map Tree.label).filterMap Line.property? := by
  fun_induction nest run with
  | case1 => simp [ownProperties]
  | case2 l rest hl _ ih =>
    obtain ⟨name, base, hc⟩ := Line.exists_of_isOpening hl
    simp only [ownProperties] at ih
    simp [outline, hc, ownProperties, Line.property?, ih]
  | case3 l rest hl ih =>
    simp only [ownProperties] at ih
    cases hc : l.content with
    | opening name base =>
      cases base <;> simp [Line.isOpening, Line.isWidget, Line.isTemplate, hc] at hl
    | property key value raw => simp [outline, hc, ownProperties, Line.property?, ih]
    | other => simp [outline, hc, ownProperties, Line.property?, ih]

/-- What is made of a run of lines whose openings have below them the lines that belong to them. -/
theorem isOpenedBy_readParts {ls run : List Line}
    (h : ∀ t ∈ Tree.forestNodes (nest run), t.children.map Tree.label = linesOf ls (some t.label))
    (r : Registry) :
    Tree.Alike (Element.IsOpenedBy ls) (widgetsIn (nest run))
        (readParts (α := α) (outline run) r).widgets
      ∧ List.Forall₂ (Template.IsOpenedBy ls) (templatesIn (nest run))
        (readParts (α := α) (outline run) r).templates := by
  fun_induction nest run generalizing r with
  | case1 => simp [widgetsIn, templatesIn, readParts, Tree.Alike.nil]
  | case2 l rest hl ihbody ihrest =>
    have hbody := ihbody fun t ht => h t (Tree.mem_forestNodes_cons.2 (.inr (.inl ht)))
    have hrest := ihrest fun t ht => h t (Tree.mem_forestNodes_cons.2 (.inr (.inr ht)))
    have htop : (nest (rest.takeWhile (Line.isBelow l.level))).map Tree.label
        = linesOf ls (some l) := h _ (Tree.mem_forestNodes_cons.2 (.inl rfl))
    have hown : ownProperties (outline (rest.takeWhile (Line.isBelow l.level)))
        = propertiesOf ls l := by
      rw [ownProperties_outline, htop, propertiesOf]
    obtain ⟨name, base, hc⟩ := Line.exists_of_isOpening hl
    rw [outline, hc, readParts, widgetsIn, templatesIn]
    cases base with
    | none =>
      have hw : l.isWidget = true := by simp [Line.isWidget, hc]
      obtain ⟨hwidgets, htemplates⟩ := hbody (r.ensure (r.resolve name)).value
      obtain ⟨_, _, _, _, he⟩ := Element.storeAll_eq (opened (r.resolve name) name : Element α)
        (propertiesOf ls l)
      rw [readPart, hown, if_pos hw, Line.isTemplate_eq_false hw]
      refine ⟨.cons ⟨⟨name, hc, ?_⟩, ?_⟩ hwidgets (hrest _).1, ?_⟩
      · exact (congrArg Element.surface he).trans rfl
      · exact Element.properties_storeAll _ _
      · exact List.rel_append (by simpa using htemplates) (hrest _).2
    | some base =>
      have ht : l.isTemplate = true := by simp [Line.isTemplate, hc]
      have hw : l.isWidget = false := by simp [Line.isWidget, hc]
      obtain ⟨hwidgets, htemplates⟩ := hbody (r.registerTemplate name (r.resolve base)).value
      rw [readPart, hown, hw, if_pos ht]
      refine ⟨(hrest _).1, List.rel_append (.cons ⟨hc, rfl, hwidgets⟩ htemplates) (hrest _).2⟩
  | case3 l rest hl ih =>
    have hrest := ih (fun t ht => h t (Tree.mem_forestNodes_cons.2 (.inr (.inr ht)))) r
    have hkind : l.isWidget = false ∧ l.isTemplate = false := by simpa [Line.isOpening] using hl
    rw [widgetsIn, templatesIn, hkind.1, hkind.2]
    cases hc : l.content with
    | opening name base => cases base <;> simp [Line.isWidget, Line.isTemplate, hc] at hkind
    | property key value raw =>
      simpa [outline, hc, readParts, readPart, widgetsIn, templatesIn] using hrest
    | other => simpa [outline, hc, widgetsIn, templatesIn] using hrest

/-! ### The last step of reading -/

/-- Giving ids and marking instances leaves the canonical type. -/
theorem type_finishStep (templates : List (Template α)) (e : Element α) (counts : Ledger Nat) :
    (finishStep templates e counts).1.type = e.type := by
  obtain ⟨v, hv, -⟩ := withId_eq e counts
  rw [finishStep, hv, withTemplate]
  split <;> rfl

/-- Giving ids and marking instances leaves names and properties. -/
theorem surface_properties_finishStep (templates : List (Template α)) (e : Element α)
    (counts : Ledger Nat) :
    (finishStep templates e counts).1.surface = e.surface
      ∧ (finishStep templates e counts).1.properties = e.properties := by
  obtain ⟨v, hv, -⟩ := withId_eq e counts
  rw [finishStep, hv, withTemplate]
  split <;> exact ⟨rfl, rfl⟩

theorem isOpenedBy_finishStep {ls : List Line} {l : Line} {e : Element α} (h : e.IsOpenedBy ls l)
    (templates : List (Template α)) (counts : Ledger Nat) :
    (finishStep templates e counts).1.IsOpenedBy ls l := by
  obtain ⟨hsurface, hproperties⟩ := surface_properties_finishStep templates e counts
  exact ⟨by rw [hsurface]; exact h.opening, by rw [hproperties]; exact h.properties⟩

theorem isOpenedBy_finishTemplates {ls : List Line} {us : List (Tree Line)} {ts : List (Template α)}
    (h : List.Forall₂ (Template.IsOpenedBy ls) us ts) (templates : List (Template α))
    (counts : Ledger Nat) :
    List.Forall₂ (Template.IsOpenedBy ls) us
      (finishTemplates (finishStep templates) ts counts) := by
  induction h generalizing counts with
  | nil => exact .nil
  | cons hu _ ih =>
    refine .cons ⟨hu.opening, hu.properties, ?_⟩ (ih _)
    exact hu.body.forestMapState (fun _ _ s hb => isOpenedBy_finishStep hb templates s) counts

/-- **Nesting**: whatever the text and the types known before, each opening makes one widget or one
template, and each stands where the indentation of its opening says and has the properties of the
lines that belong to it. -/
theorem nested_read (registry : Registry) (text : String) :
    ∃ widgets templates : List (Tree Line), IsNesting (lines text) widgets templates
      ∧ Tree.Alike (Element.IsOpenedBy (lines text)) widgets
        (read (α := α) registry text).value.document.widgets
      ∧ List.Forall₂ (Template.IsOpenedBy (lines text)) templates
        (read (α := α) registry text).value.document.templates := by
  have hnumbered := areNumbered_lines text
  obtain ⟨hwidgets, htemplates⟩ :=
    isOpenedBy_readParts (α := α) (nest_eq_linesOf hnumbered).2 registry
  refine ⟨_, _, isNesting_nest hnumbered, ?_, isOpenedBy_finishTemplates htemplates _ _⟩
  exact hwidgets.forestMapState (fun _ _ s hb => isOpenedBy_finishStep hb _ s) {}

end Document

end Otui
