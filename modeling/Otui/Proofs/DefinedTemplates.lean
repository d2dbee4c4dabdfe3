import Otui.Proofs.BroughtTemplates

/-!
# Which templates are defined

A document is written with a definition for every template that it needs. Its own templates come
first, one for each name; then come those that its widgets bring, in the order in which the first
instances stand in the document, depth first. What an instance brings has its children from below the
instance, so all that these refer to is defined as well: `defined_once`.
-/

namespace Otui

open Otui.Document

variable {α : Type}

/-! ### Names of templates -/

/-- The names of the templates that widgets of a forest are instances of. -/
def Widget.instanceNames (ws : List (Widget α)) : List String :=
  (Tree.forestLabels ws).filterMap fun e => e.template.map TemplateRef.name

/-- A document whose templates refer to templates of the document only. -/
def Document.IsClosed (d : Document α) : Prop :=
  ∀ t ∈ d.templates, ∀ name ∈ Widget.instanceNames t.children, name ∈ d.templates.map Template.name

instance (d : Document α) : Decidable d.IsClosed :=
  inferInstanceAs (Decidable (∀ t ∈ d.templates, ∀ name ∈ Widget.instanceNames t.children,
    name ∈ d.templates.map Template.name))

theorem Widget.mem_instanceNames {ws : List (Widget α)} {name : String} :
    name ∈ instanceNames ws ↔ ∃ w ∈ Tree.forestNodes ws, isInstance name w = true := by
  simp only [instanceNames, Tree.forestLabels, List.mem_filterMap, List.mem_map,
    exists_exists_and_eq_and, isInstance, beq_iff_eq]

theorem Widget.mem_instanceNames_of_label {ws : List (Widget α)} {e : Element α}
    (he : e ∈ Tree.forestLabels ws) {ref : TemplateRef} (href : e.template = some ref) :
    ref.name ∈ instanceNames ws :=
  List.mem_filterMap.2 ⟨e, he, by rw [href, Option.map_some]⟩

/-! ### The first of each name -/

/-- How many templates stand before the first of a name. -/
def Template.place (ts : List (Template α)) (name : String) : Nat :=
  ts.findIdx fun t => t.name == name

/-- How many widgets stand, depth first, before the first instance of a template of a name. -/
def Widget.instancePlace (ws : List (Widget α)) (name : String) : Nat :=
  (Tree.forestNodes ws).findIdx (isInstance name)

namespace Document

theorem find?_of_mem_firstTemplates {ts : List (Template α)} {t : Template α}
    (h : t ∈ firstTemplates ts) : Template.find? ts t.name = some t := by
  induction ts with
  | nil => cases h
  | cons u ts ih =>
    rw [firstTemplates, List.mem_cons, List.mem_filter, bne_iff_ne] at h
    rw [Template.find?_cons]
    rcases h with rfl | ⟨h, hne⟩
    · exact if_pos rfl
    · rw [if_neg (Ne.symm hne), ih h]

/-- The first templates stand in the order in which their names come up. -/
theorem pairwise_place_firstTemplates (ts : List (Template α)) :
    (firstTemplates ts).Pairwise fun t u => Template.place ts t.name < Template.place ts u.name := by
  induction ts with
  | nil => exact .nil
  | cons t ts ih =>
    have hplace : ∀ u : Template α, u.name ≠ t.name →
        Template.place (t :: ts) u.name = Template.place ts u.name + 1 := by
      intro u hu
      have hne : (t.name == u.name) = false := by simpa using Ne.symm hu
      rw [Template.place, List.findIdx_cons, hne, cond_false, Template.place]
    have hfirst : Template.place (t :: ts) t.name = 0 := by simp [Template.place, List.findIdx_cons]
    rw [firstTemplates, List.pairwise_cons]
    constructor
    · intro u hu
      rw [List.mem_filter, bne_iff_ne] at hu
      rw [hfirst, hplace u hu.2]
      omega
    · refine (ih.sublist List.filter_sublist).imp_of_mem ?_
      intro u v hu hv hlt
      rw [List.mem_filter, bne_iff_ne] at hu hv
      rw [hplace u hu.2, hplace v hv.2]
      omega

section broughtTemplates

variable {known : List String} {ws : List (Widget α)}

/-- What is brought stands in the order in which the first instances come up. -/
theorem pairwise_place_broughtTemplates (known : List String) (ws : List (Widget α)) :
    (broughtTemplates known ws).Pairwise fun t u =>
      ws.findIdx (isInstance t.name) < ws.findIdx (isInstance u.name) := by
  induction ws generalizing known with
  | nil => exact .nil
  | cons w ws ih =>
    -- A widget that brings nothing is no instance of anything that is brought after it.
    have hshift : ∀ known : List String,
        (∀ t ∈ broughtTemplates known ws, isInstance t.name w = false) →
        (broughtTemplates known ws).Pairwise fun t u =>
          (w :: ws).findIdx (isInstance t.name) < (w :: ws).findIdx (isInstance u.name) := by
      intro known hnot
      refine (ih known).imp_of_mem ?_
      intro t u ht hu hlt
      rw [List.findIdx_cons, List.findIdx_cons, hnot t ht, hnot u hu, cond_false, cond_false]
      omega
    cases href : w.label.template with
    | none =>
      rw [broughtTemplates_cons_of_none href]
      exact hshift known fun t _ => by simp [isInstance, href]
    | some ref =>
      have hinstance : ∀ name, isInstance name w = true ↔ ref.name = name := by
        simp [isInstance, href]
      have hnot : ∀ known : List String, ref.name ∈ known → ∀ t ∈ broughtTemplates known ws,
          isInstance t.name w = false := by
        intro known hknown t ht
        rw [Bool.eq_false_iff]
        intro hw
        rw [hinstance] at hw
        exact (nodup_broughtTemplates known ws).2 t ht (hw ▸ hknown)
      by_cases hknown : ref.name ∈ known
      · rw [broughtTemplates_cons_of_known href hknown]
        exact hshift known (hnot known hknown)
      · have hlater := hnot (ref.name :: known) List.mem_cons_self
        rw [broughtTemplates_cons_of_new href hknown, List.pairwise_cons]
        refine ⟨fun t ht => ?_, hshift _ hlater⟩
        rw [List.findIdx_cons, List.findIdx_cons, name_templateOfInstance,
          (hinstance ref.name).2 rfl, hlater t ht, cond_true, cond_false]
        omega

/-- What is brought for a name comes from its first instance, and the name is not known. -/
theorem exists_first_of_mem_broughtTemplates {t : Template α} (h : t ∈ broughtTemplates known ws) :
    t.name ∉ known ∧ ∃ w ref, ws.find? (isInstance t.name) = some w
      ∧ w.label.template = some ref ∧ t = templateOfInstance ref w := by
  obtain ⟨hnodup, hnew⟩ := nodup_broughtTemplates known ws
  have hfound : Template.find? (broughtTemplates known ws) t.name = some t := by
    refine find?_of_mem_firstTemplates ?_
    rwa [firstTemplates_eq_self hnodup]
  rw [find?_broughtTemplates, if_neg (hnew t h), Option.bind_eq_some_iff] at hfound
  obtain ⟨w, hw, hbrought⟩ := hfound
  obtain ⟨ref, href, hmade⟩ := Option.map_eq_some_iff.1 hbrought
  exact ⟨hnew t h, w, ref, hw, href, hmade.symm⟩

/-- The names that are brought are those of instances that are not known. -/
theorem mem_names_broughtTemplates {name : String} :
    name ∈ (broughtTemplates known ws).map Template.name
      ↔ name ∉ known ∧ ∃ w ∈ ws, isInstance name w = true := by
  constructor
  · intro h
    obtain ⟨t, ht, rfl⟩ := List.mem_map.1 h
    obtain ⟨hnew, w, -, hw, -, -⟩ := exists_first_of_mem_broughtTemplates ht
    exact ⟨hnew, w, List.mem_of_find?_eq_some hw, List.find?_some hw⟩
  · rintro ⟨hnew, hinstance⟩
    obtain ⟨w, hw⟩ := Option.isSome_iff_exists.1 (List.find?_isSome.2 hinstance)
    obtain ⟨ref, href, -⟩ := isInstance_iff.1 (List.find?_some hw)
    have hfound := find?_broughtTemplates known ws name
    rw [if_neg hnew, hw, Option.bind_some, href, Option.map_some] at hfound
    exact List.mem_map.2 ⟨_, List.mem_of_find?_eq_some hfound, Template.name_of_find? hfound⟩

end broughtTemplates

/-! ### Own templates and those that are brought -/

theorem mem_names_firstTemplates {ts : List (Template α)} {name : String} :
    name ∈ (firstTemplates ts).map Template.name ↔ name ∈ ts.map Template.name :=
  ⟨fun h => ((firstTemplates_sublist ts).map Template.name).subset h, name_mem_firstTemplates⟩

end Document

/-- A definition that an instance brings: the name and the base of its template, the lines and the
stored properties of the instance without the id, and the children that it has from its template. -/
structure Template.IsBroughtBy (t : Template α) (w : Widget α) : Prop where
  /-- The widget is an instance of the template. -/
  ref : w.label.template = some ⟨t.name, t.base⟩
  /-- The lines are those of the instance without the id. -/
  lines : t.properties.lines = w.label.properties.lines.filter fun l => l.key != "id"
  /-- The stored properties are those of the instance without the id. -/
  values : t.properties.values = w.label.properties.values.erase "id"
  /-- Stored properties are written as for the instance. -/
  written : t.properties.written = w.label.properties.written
  /-- The body has the children of the instance that are flagged, without the flag. -/
  children : t.children = (w.children.filter fun c => c.label.inherited).map fun c =>
    c.withLabel c.label.unflagged

theorem Template.isBroughtBy_templateOfInstance {ref : TemplateRef} {w : Widget α}
    (h : w.label.template = some ref) : (templateOfInstance ref w).IsBroughtBy w :=
  ⟨h, rfl, rfl, rfl, rfl⟩

/-- The definitions that a document is written with: its own templates and those that its widgets
bring. -/
structure Document.AreDefined (d : Document α) (own brought : List (Template α)) : Prop where
  /-- No name is defined twice. -/
  nodup : ((own ++ brought).map Template.name).Nodup
  /-- The names of templates and those that widgets refer to are defined, and no others. -/
  names : ∀ name, name ∈ (own ++ brought).map Template.name
    ↔ name ∈ d.templates.map Template.name ∨ name ∈ Widget.instanceNames d.widgets
  /-- An own template is the first of its name. -/
  own_first : ∀ t ∈ own, Template.find? d.templates t.name = some t
  /-- Own templates stand in the order in which their names come up. -/
  own_order : own.Pairwise fun t u =>
    Template.place d.templates t.name < Template.place d.templates u.name
  /-- What is brought has a name that no own template has, and comes from its first instance. -/
  brought_first : ∀ t ∈ brought, t.name ∉ d.templates.map Template.name
    ∧ ∃ w, firstInstance? t.name d.widgets = some w ∧ t.IsBroughtBy w
  /-- What is brought stands in the order in which the first instances come up. -/
  brought_order : brought.Pairwise fun t u =>
    Widget.instancePlace d.widgets t.name < Widget.instancePlace d.widgets u.name
  /-- Definitions refer to what is defined. -/
  closed : ∀ t ∈ own ++ brought, ∀ name ∈ Widget.instanceNames t.children,
    name ∈ (own ++ brought).map Template.name

namespace Document

variable {d : Document α}

/-- What an instance brings refers to what the document refers to. -/
theorem mem_instanceNames_of_brought {ref : TemplateRef} {w : Widget α}
    (hw : w ∈ Tree.forestNodes d.widgets) {name : String}
    (h : name ∈ Widget.instanceNames (templateOfInstance ref w).children) :
    name ∈ Widget.instanceNames d.widgets := by
  obtain ⟨e, he, href⟩ := List.mem_filterMap.1 h
  obtain ⟨f, hf, heq⟩ := exists_of_mem_body_templateOfInstance he
  have hsame : e.template = f.template := by rcases heq with rfl | rfl <;> rfl
  exact List.mem_filterMap.2 ⟨f, Tree.mem_forestLabels_of_children hw f hf, by rw [← hsame, href]⟩

/-- **What is defined**: the templates that are written for a closed document are its own and those
that its widgets bring. -/
theorem areDefined_writtenTemplates (hclosed : d.IsClosed) :
    ∃ own brought, d.writtenTemplates = own ++ brought ∧ d.AreDefined own brought := by
  have hnames : ∀ name,
      name ∈ d.writtenTemplates.map Template.name
        ↔ name ∈ d.templates.map Template.name ∨ name ∈ Widget.instanceNames d.widgets := by
    intro name
    rw [writtenTemplates, List.map_append, List.mem_append, mem_names_broughtTemplates,
      mem_names_firstTemplates, Widget.mem_instanceNames]
    by_cases hname : name ∈ d.templates.map Template.name <;> simp only [hname, not_true,
      not_false_iff, true_or, true_and, false_or]
  obtain ⟨hbrought, hnew⟩ := nodup_broughtTemplates
    ((firstTemplates d.templates).map Template.name) (Tree.forestNodes d.widgets)
  refine ⟨_, _, rfl, ?_, hnames, fun t ht => find?_of_mem_firstTemplates ht,
    pairwise_place_firstTemplates d.templates, fun t ht => ?_,
    pairwise_place_broughtTemplates _ _, fun t ht name hname => (hnames name).2 ?_⟩
  · rw [List.map_append, List.nodup_append]
    refine ⟨nodup_firstTemplates d.templates, hbrought, fun a ha b hb hab => ?_⟩
    obtain ⟨t, ht, rfl⟩ := List.mem_map.1 hb
    exact hnew t ht (hab ▸ ha)
  · obtain ⟨hnot, w, ref, hw, href, rfl⟩ := exists_first_of_mem_broughtTemplates ht
    rw [mem_names_firstTemplates] at hnot
    exact ⟨hnot, w, hw, Template.isBroughtBy_templateOfInstance href⟩
  · rcases List.mem_append.1 ht with ht | ht
    · exact .inl (hclosed t ((firstTemplates_sublist _).subset ht) name hname)
    · obtain ⟨w, hw, ref, -, rfl⟩ := exists_of_mem_broughtTemplates ht
      exact .inr (mem_instanceNames_of_brought hw hname)

end Document

/-! ### Blocks -/

variable [Scalar α] {config : Config α}

/-- The lines that define a template: its header, with the name and the base, its property lines,
and the lines of the widgets of its body. -/
structure Template.IsDefinedBy (config : Config α) (t : Template α)
    (ls : List WrittenLine) : Prop where
  /-- The lines are those of the template. -/
  written : t.lines config = .ok ls
  /-- The first line is the header, with the name and the base. -/
  header : ∃ body, t.children.mapM (Widget.lines config false 1) = .ok body
    ∧ ls = ⟨0, .header t.name (some t.base)⟩
      :: ((t.bodyBlock.lines.map fun s => ⟨1, s⟩) ++ body.flatten)

theorem Template.isDefinedBy_of_lines_eq_ok {t : Template α} {ls : List WrittenLine}
    (h : t.lines config = .ok ls) : t.IsDefinedBy config ls := by
  refine ⟨h, ?_⟩
  rw [Template.lines_def] at h
  obtain ⟨body, hbody, h⟩ := exists_of_bind_eq_ok h
  refine ⟨body, hbody, (Except.ok.inj h).symm.trans ?_⟩
  have hsaid : (templateBlock t).lines = .header t.name (some t.base) :: t.bodyBlock.lines :=
    t.said_eq_cons
  rw [blockLines, hsaid]
  rfl

namespace Document

/-- The blocks of a document: those of the templates that are written, and those of the root widgets
that have lines. -/
theorem exists_of_blocks_eq_ok {d : Document α} {bs : List (List WrittenLine)}
    (h : d.blocks config = .ok bs) :
    ∃ definitions roots, bs = definitions ++ roots.filter (fun ls => !ls.isEmpty)
      ∧ List.Forall₂ (fun t ls => t.lines config = .ok ls) d.writtenTemplates definitions
      ∧ List.Forall₂ (fun w ls => Widget.lines config true 0 w = .ok ls) d.widgets roots := by
  rw [blocks_def] at h
  obtain ⟨definitions, hdefinitions, h⟩ := exists_of_bind_eq_ok h
  obtain ⟨roots, hroots, h⟩ := exists_of_bind_eq_ok h
  exact ⟨definitions, roots, (Except.ok.inj h).symm, mapM_eq_ok_iff.1 hdefinitions,
    mapM_eq_ok_iff.1 hroots⟩

/-- The text of a document that has blocks is that of its blocks. -/
theorem text_eq_textOf {d : Document α} {bs : List (List WrittenLine)} (h : d.blocks config = .ok bs)
    (hne : bs ≠ []) : d.text config = .ok (textOf bs) := by
  rw [text_def, h]
  cases bs with
  | nil => exact absurd rfl hne
  | cons b bs => rfl

/-- A window with a badge, in which there is an icon: neither has a template in the document. There
are two templates for rows, with a cell in the first of them. -/
def badgeWindow : Document Float where
  widgets := [.node { type := "UIWindow", surface := some "MainWindow", id := some "main" }
    [.node
      { type := "UIPanel", surface := some "Badge", id := some "new",
        properties := { lines := [⟨"id", "new", 0⟩, ⟨"height", "20", 0⟩] },
        template := some ⟨"Badge", "UIPanel"⟩ }
      [.node
        { type := "UIWidget", surface := some "Icon", id := some "star",
          template := some ⟨"Icon", "UIWidget"⟩, inherited := true } []]]]
  templates := [
    { name := "Row", base := "Panel",
      children := [.node
        { type := "UILabel", surface := some "Cell", id := some "first",
          template := some ⟨"Cell", "UILabel"⟩ } []] },
    { name := "Cell", base := "Label" },
    { name := "Row", base := "Label" }]

example : badgeWindow.writtenTemplates.map Template.name = ["Row", "Cell", "Badge", "Icon"] := by
  decide

end Document

end Otui
