import Otui.Proofs.KeptProperties

/-!
# Templates that are found again

Expanded widgets can be written without the templates of their document: each name that an instance
has is defined again, from the first instance. When the text is read and expanded, each type as
written names a template of both documents or of neither, and the widgets of a body come from the
body of the template that the first instance had (`IsRead.comesBackAs_body`). So the first instances
of a name match, and the second one has the template applied that was made from the first one
(`IsBroughtBack.exists_firstInstance?`). It keeps the properties of the first one as far as these
survive writing and reading: `first_instances_kept`.
-/

namespace Otui

open Otui.Text Otui.Document

variable {α : Type} {lines : List Line}

/-! ### First instances -/

namespace Document

/-- Where widgets are instances of the templates that their types name, the first instance of a
template is the first widget of its type. -/
theorem firstInstance?_eq {templates : List (Template α)} {ws : List (Widget α)}
    (h : ∀ e ∈ Tree.forestLabels ws, e.template = refAmong templates (textOrEmpty e.surface))
    {name : String} (hname : (Template.find? templates name).isSome = true) :
    firstInstance? name ws = Widget.firstOf? name ws := by
  rw [firstInstance?, Widget.firstOf?, ← List.head?_filter, ← List.head?_filter]
  refine congrArg List.head? (List.filter_congr fun w hw => ?_)
  have htemplate := h w.label (Tree.label_mem_forestLabels hw)
  rw [Bool.eq_iff_iff, isInstance_iff, beq_iff_eq, htemplate]
  constructor
  · rintro ⟨ref, href, rfl⟩
    exact (name_of_refAmong href).1.symm
  · rintro rfl
    obtain ⟨t, ht⟩ := Option.isSome_iff_exists.1 hname
    exact ⟨_, by rw [refAmong, ht]; rfl, Template.name_of_find? ht⟩

/-- A name that a widget is an instance of has a first instance. -/
theorem exists_firstInstance?_of_mem {ws : List (Widget α)} {e : Element α}
    (he : e ∈ Tree.forestLabels ws) {ref : TemplateRef} (href : e.template = some ref) :
    ∃ v, firstInstance? ref.name ws = some v := by
  obtain ⟨w, hw, rfl⟩ := List.mem_map.1 he
  exact Option.isSome_iff_exists.1 (List.find?_isSome.2 ⟨w, hw, isInstance_iff.2 ⟨ref, href, rfl⟩⟩)

/-- The written part of a template that is brought comes from the first instance. -/
theorem find?_kept_withBrought (ws : List (Widget α)) (name : String) :
    Template.find? (withBrought ws).kept.templates name
      = (firstInstance? name ws).bind fun v => v.label.template.map fun ref =>
          { templateOfInstance ref v with
            children := Widget.kept (templateOfInstance ref v).children } := by
  have hkept : Template.find? (withBrought ws).kept.templates name
      = (Template.find? (withBrought ws).templates name).map fun t =>
          { t with children := Widget.kept t.children } := by
    rw [Document.kept, Template.find?, List.find?_map]
    rfl
  rw [hkept, withBrought, find?_broughtTemplates, if_neg List.not_mem_nil, Option.map_bind]
  refine congrArg (Option.bind _) (funext fun v => ?_)
  rw [Function.comp_apply, Option.map_map]
  rfl

theorem isSome_eq_of_rel {β γ : Type} {Q : β → γ → Prop} {a : Option β} {b : Option γ}
    (h : Option.Rel Q a b) : a.isSome = b.isSome := by
  cases h <;> rfl

theorem exists_of_rel_some {β γ : Type} {Q : β → γ → Prop} {a : Option β} {c : γ}
    (h : Option.Rel Q a (some c)) : ∃ b, a = some b ∧ Q b c := by
  cases h with
  | some hq => exact ⟨_, rfl, hq⟩

theorem exists_of_some_rel {β γ : Type} {Q : β → γ → Prop} {b : β} {c : Option γ}
    (h : Option.Rel Q (some b) c) : ∃ d, c = some d ∧ Q b d := by
  cases h with
  | some hq => exact ⟨_, rfl, hq⟩

/-- Copies of templates are found under the same names. -/
theorem rel_find? {ts us : List (Template α)} (h : List.Forall₂ (Template.IsCopy lines) ts us)
    (name : String) :
    Option.Rel (Template.IsCopy lines) (Template.find? ts name) (Template.find? us name) := by
  induction h with
  | nil => exact .none
  | @cons t u ts us hcopy _ ih =>
    obtain ⟨ms, hread⟩ := hcopy.1
    obtain ⟨props, hprops, -⟩ := hread.block
    rw [Template.said_eq_cons, List.cons.injEq, Said.header.injEq] at hprops
    rw [Template.find?_cons, Template.find?_cons, ← hprops.1.1]
    split
    · exact .some hcopy
    · exact ih

end Document

/-- A copy has the type as written of its original. -/
theorem Element.IsCopy.surface_eq {e copy : Element α} (h : e.IsCopy lines copy)
    (hheader : header e = .header (textOrEmpty e.surface) none) :
    textOrEmpty copy.surface = textOrEmpty e.surface := by
  obtain ⟨isRoot, ms, hread⟩ := h
  obtain ⟨props, hprops, -⟩ := hread.block
  rw [Element.said_eq_cons, hheader, List.cons.injEq, Said.header.injEq] at hprops
  exact hprops.1.1.symm

/-- Widgets on top that are not flagged are written like children. -/
theorem Widget.kept_eq_keptBelow {ws : List (Widget α)}
    (h : ∀ w ∈ ws, w.label.inherited = false) : kept ws = keptBelow ws := by
  induction ws with
  | nil => rw [keptBelow]; rfl
  | cons w ws ih =>
    obtain ⟨hw, hws⟩ := List.forall_mem_cons.1 h
    cases w with
    | node e cs =>
      have hflag : e.inherited = false := hw
      rw [kept_cons, keptBelow, ih hws, hflag, Tree.label_node, Tree.children_node, Bool.false_or]
      cases e.isWritable <;> rfl

/-! ### Widgets that come back -/

/-- A widget whose copy was read back from its block, as it was or with its template applied;
whether the two are flagged makes no difference. -/
def Element.ComesBackAs (lines lines' : List Line) (templates : List (Template α))
    (e copy : Element α) : Prop :=
  e.unflagged.IsFinished lines templates
    ∧ ∃ e', Widget.IsExpansion templates e.unflagged e' ∧ e'.IsCopy lines' copy.unflagged

theorem Element.ComesBackAs.surface_eq {lines' : List Line} {templates : List (Template α)}
    {e copy : Element α} (h : e.ComesBackAs lines lines' templates copy) :
    textOrEmpty copy.surface = textOrEmpty e.surface := by
  obtain ⟨he, e', hexp, hcopy⟩ := h
  have hheader := hexp.header_eq he
  rw [← hexp.surface_eq] at hheader
  exact (hcopy.surface_eq hheader).trans (congrArg textOrEmpty hexp.surface_eq)

/-- Copies of the expanded widgets that are written are copies of the widgets before. -/
theorem Widget.Expands.comesBackAs {lines' : List Line} {templates unused : List (Template α)}
    {ws vs us : List (Widget α)} (h : Expands unused ws vs)
    (hunused : ∀ n t, Template.find? unused n = some t → Template.find? templates n = some t)
    (hws : ∀ e ∈ Tree.forestLabels ws, e.IsFinished lines templates ∧ textOrEmpty e.id ≠ "")
    (hus : Tree.Alike (Element.IsCopy lines') (keptBelow vs) us) :
    Tree.Alike (Element.ComesBackAs lines lines' templates) ws us := by
  have hwritten : ∀ e ∈ Tree.forestLabels ws, e.inherited = false ∧ e.isWritable = true :=
    fun e he => ⟨(hws e he).1.inherited, (hws e he).1.isWritable (hws e he).2⟩
  refine ((h.isExpansion_keptBelow hwritten).comp hus).imp_of_mem ?_
  rintro e he copy - ⟨e', hexp, hcopy⟩
  obtain ⟨isRoot, ms, hread⟩ := hcopy
  rw [Element.ComesBackAs, Element.unflagged_eq_self (hwritten e he).1,
    Element.unflagged_eq_self hread.read.inherited]
  exact ⟨(hws e he).1, e', hexp.mono hunused, isRoot, ms, hread⟩

namespace Document.IsRead

variable {d d' : Document α} {lines' : List Line}

theorem not_inherited (h : d.IsRead lines) :
    (∀ e ∈ Tree.forestLabels d.widgets, e.inherited = false)
      ∧ ∀ n t, Template.find? d.templates n = some t →
        ∀ e ∈ Tree.forestLabels t.children, e.inherited = false :=
  ⟨fun e he => (h.widgets e he).inherited,
    fun _ t ht e he => (h.bodies t (List.mem_of_find?_eq_some ht) e he).inherited⟩

/-- An instance among the expanded widgets is of a template of the document. -/
theorem exists_template (h : d.IsRead lines) {name : String} {v : Widget α}
    (hv : firstInstance? name d.expanded.widgets = some v) :
    ∃ ref t, v.label.template = some ref ∧ Template.find? d.templates name = some t
      ∧ Widget.firstOf? name d.expanded.widgets = some v := by
  obtain ⟨ref, href, rfl⟩ := isInstance_iff.1 (List.find?_some hv)
  have hmem := Tree.label_mem_forestLabels (List.mem_of_find?_eq_some hv)
  have htemplate := (h.isExpanded v.label hmem).template_eq
  rw [href] at htemplate
  obtain ⟨t, ht, -⟩ := Option.map_eq_some_iff.1 htemplate.symm
  rw [← (name_of_refAmong htemplate.symm).1] at ht
  refine ⟨ref, t, href, ht, ?_⟩
  rw [← hv, firstInstance?_eq (fun e he => (h.isExpanded e he).template_eq) (by rw [ht]; rfl)]

/-- The template that the first instance brings is found under its name. -/
theorem find?_brought (h : d.IsRead lines) {name : String} {v : Widget α}
    (hv : firstInstance? name d.expanded.widgets = some v) :
    ∃ ref, Template.find? (withBrought d.expanded.widgets).kept.templates name
      = some { templateOfInstance ref v with
          children := Widget.kept (templateOfInstance ref v).children } := by
  obtain ⟨ref, t, href, -⟩ := h.exists_template hv
  refine ⟨ref, ?_⟩
  rw [find?_kept_withBrought, hv, Option.bind_some, href]
  rfl

/-- A type of an expanded widget names a template of the document, or none and no instance brings
one. -/
theorem isSome_find?_brought (h : d.IsRead lines) {e : Element α}
    (he : e ∈ Tree.forestLabels d.expanded.widgets) :
    (Template.find? (withBrought d.expanded.widgets).kept.templates (textOrEmpty e.surface)).isSome
      = (Template.find? d.templates (textOrEmpty e.surface)).isSome := by
  have htemplate := (h.isExpanded e he).template_eq
  cases ht : Template.find? d.templates (textOrEmpty e.surface) with
  | some t =>
    rw [refAmong, ht, Option.map_some] at htemplate
    obtain ⟨v, hv⟩ := exists_firstInstance?_of_mem he htemplate
    rw [Template.name_of_find? ht] at hv
    obtain ⟨ref, hfound⟩ := h.find?_brought hv
    rw [hfound]
    rfl
  | none =>
    cases hv : firstInstance? (textOrEmpty e.surface) d.expanded.widgets with
    | none => rw [find?_kept_withBrought, hv]; rfl
    | some v =>
      obtain ⟨-, t, -, hfound, -⟩ := h.exists_template hv
      rw [ht] at hfound
      cases hfound

/-- **Bodies**: what comes back of the body of the template that a first instance brings comes from
the body of the template of the document. -/
theorem comesBackAs_body (h : d.IsRead lines) (hid : ∀ e ∈ d.elements, textOrEmpty e.id ≠ "")
    {name : String} {t : Template α} (ht : Template.find? d.templates name = some t) {v : Widget α}
    (hv : firstInstance? name d.expanded.widgets = some v) {ref : TemplateRef}
    {cs : List (Widget α)}
    (hcs : Tree.Alike (Element.IsCopy lines')
      (Widget.kept (templateOfInstance ref v).children) cs) :
    Tree.Alike (Element.ComesBackAs lines lines' d.templates) t.children cs := by
  obtain ⟨hroots, hbodies⟩ := h.not_inherited
  have hmem : t ∈ d.templates := List.mem_of_find?_eq_some ht
  obtain ⟨-, -, -, -, hfirst⟩ := h.exists_template hv
  obtain ⟨-, rest, -, hrest, hexp⟩ :=
    (Widget.expands_allExpanded d.templates [] d.widgets).exists_of_firstOf? ht hbodies
      (Widget.Expands.forall_children hroots) hfirst
  have hplain := hbodies name t ht
  have hclear : Widget.Expands rest t.children (templateOfInstance ref v).children :=
    hexp.clear fun c hc => by
      cases c with
      | node e bs => exact hplain e (mem_forestLabels_of_mem hc (by simp))
  rw [Widget.kept_eq_keptBelow (hclear.not_inherited_of_mem hplain)] at hcs
  exact hclear.comesBackAs hrest (fun e he => ⟨h.bodies t hmem e he,
    hid e (List.mem_append_right _ (List.mem_flatMap.2 ⟨t, hmem, he⟩))⟩) hcs

end Document.IsRead

namespace Document.IsBroughtBack

variable {d d' : Document α} {lines' : List Line}

/-- A template that is found again is a copy of the one that the first instance brings. -/
theorem exists_of_find? (hback : d.IsBroughtBack lines' d') {name : String} {u : Template α}
    (hu : Template.find? d'.templates name = some u) :
    ∃ w ref, firstInstance? name d.expanded.widgets = some w
      ∧ Template.IsCopy lines' { templateOfInstance ref w with
          children := Widget.kept (templateOfInstance ref w).children } u := by
  have hrel := rel_find? hback.templates name
  rw [hu, find?_kept_withBrought] at hrel
  obtain ⟨b, hb, hcopy⟩ := exists_of_rel_some hrel
  obtain ⟨w, hw, hb⟩ := Option.bind_eq_some_iff.1 hb
  obtain ⟨ref, -, rfl⟩ := Option.map_eq_some_iff.1 hb
  exact ⟨w, ref, hw, hcopy⟩

/-- The widgets of a document come back. -/
theorem alike (hback : d.IsBroughtBack lines' d') (h : d.IsRead lines)
    (hid : ∀ e ∈ d.elements, textOrEmpty e.id ≠ "") :
    Tree.Alike (Element.ComesBackAs lines lines' d.templates) d.widgets d'.widgets := by
  have hexpands : Widget.Expands d.templates d.widgets d.expanded.widgets :=
    Widget.expands_allExpanded d.templates [] d.widgets
  have hwidgets := hback.widgets
  rw [Widget.kept_eq_keptBelow (hexpands.not_inherited_of_mem h.not_inherited.1)] at hwidgets
  exact hexpands.comesBackAs (fun _ _ hu => hu)
    (fun e he => ⟨h.widgets e he, hid e (List.mem_append_left _ he)⟩) hwidgets

/-- The names of templates come back, and their bodies. -/
theorem areLike (hback : d.IsBroughtBack lines' d') (h : d.IsRead lines)
    (hid : ∀ e ∈ d.elements, textOrEmpty e.id ≠ "") :
    Widget.Expands.AreLike (Element.ComesBackAs lines lines' d.templates) d.templates d'.templates
      d.expanded.widgets where
  isSome_eq e he :=
    (isSome_eq_of_rel (rel_find? hback.templates _)).symm.trans (h.isSome_find?_brought he)
  bodies name t u ht hu := by
    obtain ⟨w, ref, hw, hcopy⟩ := hback.exists_of_find? hu
    exact h.comesBackAs_body hid ht hw hcopy.2

/-- **First instances**: when what was brought back is expanded, the first instance of a name keeps
the properties of the first instance before. -/
theorem exists_firstInstance? (hback : d.IsBroughtBack lines' d') (h : d.IsRead lines)
    (hs : ∀ k ∈ lines, k.content.IsSound) (hid : ∀ e ∈ d.elements, textOrEmpty e.id ≠ "")
    (h' : d'.IsRead lines') {name : String} {v : Widget α}
    (hv : firstInstance? name d.expanded.widgets = some v) :
    ∃ v', firstInstance? name d'.expanded.widgets = some v'
      ∧ v.label.properties.IsKeptBy v'.label.properties := by
  have hexpands : Widget.Expands d.templates d.widgets d.expanded.widgets :=
    Widget.expands_allExpanded d.templates [] d.widgets
  have hexpands' : Widget.Expands d'.templates d'.widgets d'.expanded.widgets :=
    Widget.expands_allExpanded d'.templates [] d'.widgets
  obtain ⟨-, t, -, ht, hfirst⟩ := h.exists_template hv
  have hname : textOrEmpty v.label.surface = name := by simpa using List.find?_some hfirst
  have hlike := hback.areLike h hid
  obtain ⟨u, hu⟩ : ∃ u, Template.find? d'.templates name = some u := by
    have hmem := Tree.label_mem_forestLabels (List.mem_of_find?_eq_some hv)
    obtain ⟨u, hu, -⟩ := hlike.exists_of_find? hmem (hname ▸ ht)
    exact ⟨u, hname ▸ hu⟩
  have hrel := hexpands.rel_firstOf? (fun _ _ hef => hef.surface_eq) (fun _ _ hef => hef) hexpands'
    (hback.alike h hid) hlike ht hu
  rw [hfirst] at hrel
  obtain ⟨v', hfirst', e, f, ⟨he, e', hexp, hcopy⟩, hlabel, hlabel'⟩ := exists_of_some_rel hrel
  have hv' : firstInstance? name d'.expanded.widgets = some v' := by
    rw [← hfirst',
      firstInstance?_eq (fun e he => (h'.isExpanded e he).template_eq) (by rw [hu]; rfl)]
  -- the template of the second document is made from the first instance itself
  obtain ⟨w, ref, hw, hbrought, -⟩ := hback.exists_of_find? hu
  obtain rfl : v = w := Option.some.inj (hv.symm.trans hw)
  have hsurface : textOrEmpty e.unflagged.surface = name := by
    rw [← hname, hlabel]
    rfl
  refine ⟨v', hv', ?_⟩
  have hkept := isKeptBy_of_isCopy h hs he (hsurface ▸ ht) hexp hcopy (by
    change v.label.properties.withoutId = _
    rw [hlabel]
    rfl) hbrought
  rw [hlabel, hlabel']
  exact hkept

end Document.IsBroughtBack

namespace Document.IsRead

variable {d : Document α}

/-- Each template that an instance in a document names has a first instance among the expanded
widgets, and one that is written. -/
theorem exists_instance (h : d.IsRead lines) (hid : ∀ e ∈ d.elements, textOrEmpty e.id ≠ "")
    {e : Element α} (he : e ∈ Tree.forestLabels d.widgets) {ref : TemplateRef}
    (href : e.template = some ref) :
    Widget.kept d.expanded.widgets ≠ []
      ∧ ∃ v, firstInstance? ref.name d.expanded.widgets = some v := by
  have hexpands : Widget.Expands d.templates d.widgets d.expanded.widgets :=
    Widget.expands_allExpanded d.templates [] d.widgets
  have hwritten : ∀ e ∈ Tree.forestLabels d.widgets, e.inherited = false ∧ e.isWritable = true :=
    fun e he =>
      ⟨(h.widgets e he).inherited, (h.widgets e he).isWritable (hid e (List.mem_append_left _ he))⟩
  have hlike := hexpands.isExpansion_keptBelow hwritten
  rw [← Widget.kept_eq_keptBelow (hexpands.not_inherited_of_mem h.not_inherited.1)] at hlike
  obtain ⟨e', he', hexp⟩ := hlike.exists_right e he
  refine ⟨fun hnil => ?_, ?_⟩
  · rw [hnil] at he'
    cases he'
  · have hmem := Widget.mem_of_mem_kept he'
    refine exists_firstInstance?_of_mem hmem ?_
    rw [(h.isExpanded e' hmem).template_eq, hexp.surface_eq, ← (h.widgets e he).template, href]

end Document.IsRead

namespace Document

/-- **Templates that are found again**: when no widget of a text has an empty id, a text is written
for its expanded widgets without its templates. When that text is read and expanded, the first
instance of each template that the widgets of the first text name keeps the properties of the first
instance before. -/
theorem first_instances_kept [Scalar α] (text : String)
    (hid : ∀ e ∈ (parsed text : Document α).elements, e.id ≠ some "") :
    ∃ s, (⟨(parsed text : Document α).expanded.widgets, []⟩ : Document α).text Config.standard
        = .ok s
      ∧ ∀ e ∈ Tree.forestLabels (parsed text : Document α).widgets, ∀ ref, e.template = some ref →
        ∃ v v', firstInstance? ref.name (parsed text : Document α).expanded.widgets = some v
          ∧ firstInstance? ref.name (parsed s : Document α).expanded.widgets = some v'
          ∧ v.label.properties.IsKeptBy v'.label.properties := by
  have hd := isRead_parsed (α := α) text
  have hs : ∀ k ∈ Document.lines text, k.content.IsSound := fun _ => isSound_of_mem_lines
  have hid' := hd.textOrEmpty_id_ne hid
  obtain ⟨s, htext, hback⟩ := hd.isBroughtBack_parsed hs
  refine ⟨s, htext, fun e he ref href => ?_⟩
  obtain ⟨hne, v, hv⟩ := hd.exists_instance hid' he href
  have hscripts : (withBrought (parsed text : Document α).expanded.widgets).kept.scripts ≠ [] := by
    intro hnil
    rw [scripts, List.append_eq_nil_iff, List.map_eq_nil_iff] at hnil
    exact hne (List.map_eq_nil_iff.1 hnil.2)
  obtain ⟨v', hv', hkept⟩ :=
    (hback hscripts).exists_firstInstance? hd hs hid' (isRead_parsed s) hv
  exact ⟨v, v', hv, hv', hkept⟩

/-- A panel with an instance that has no lines of its own and one that has a line of its own. -/
def panelOfInstances : String :=
  "Cell < UILabel\n  color: red\n\nOk < UIButton\n\nPanel\n  id: p\n  Cell\n  Ok\n    text: Ok\n"

/-- What the two instances of the panel have comes back, the id apart. -/
theorem first_instances_kept_panel :
    (∀ e ∈ (parsed panelOfInstances : Document ℚ).elements, e.id ≠ some "")
      ∧ ∃ s, (⟨(parsed panelOfInstances).expanded.widgets, []⟩ : Document ℚ).text Config.standard
          = .ok s
        ∧ ∀ name ∈ ["Cell", "Ok"], ∃ v v',
          firstInstance? name (parsed panelOfInstances : Document ℚ).expanded.widgets = some v
            ∧ firstInstance? name (parsed s : Document ℚ).expanded.widgets = some v'
            ∧ ∀ k ∈ v.label.properties.values.keys, k ≠ "id" →
              v'.label.properties.values.get? k = v.label.properties.values.get? k := by
  have hid : ∀ e ∈ (parsed panelOfInstances : Document ℚ).elements, e.id ≠ some "" := by
    decide +kernel
  have hnamed : ∀ name ∈ ["Cell", "Ok"],
      ∃ e ∈ Tree.forestLabels (parsed panelOfInstances : Document ℚ).widgets,
        ∃ ref ∈ e.template, ref.name = name := by
    decide +kernel
  -- each of the two is read back, and its lines are for all that it has
  have hback : ∃ vs ∈ Widget.expandedWithin? 9 (parsed panelOfInstances : Document ℚ).templates
      (parsed panelOfInstances : Document ℚ).widgets,
      ∀ name ∈ ["Cell", "Ok"], ∀ v ∈ firstInstance? name vs,
        (v.label.properties.withoutId.lines = [] ∧ v.label.properties.withoutId.ValuesReadBack)
          ∨ (v.label.properties.withoutId.lines ≠ [] ∧ v.label.properties.LinesReadBack
            ∧ ∀ k ∈ v.label.properties.values.keys, k ≠ "id" →
              ∃ l ∈ v.label.properties.lines, k ∈ Key.taken l.key) := by
    decide +kernel
  obtain ⟨s, htext, hkept⟩ := first_instances_kept (α := ℚ) panelOfInstances hid
  refine ⟨hid, s, htext, fun name hname => ?_⟩
  obtain ⟨e, he, ref, href, rfl⟩ := hnamed name hname
  obtain ⟨v, v', hv, hv', hkept⟩ := hkept e he ref href
  obtain ⟨vs, hvs, hback⟩ := hback
  rw [widgets_expanded_eq hvs] at hv ⊢
  refine ⟨v, v', hv, hv', fun k hk hne => ?_⟩
  rcases hback _ hname v hv with ⟨hnone, hvalues⟩ | ⟨hsome, hlines, hall⟩
  · exact hkept.values hnone hvalues k hne
  · obtain ⟨l, hl, htaken⟩ := hall k hk hne
    exact (hkept.lines hsome hlines).1 l hl k htaken hne

/-- Texts, what is written for their expanded widgets without their templates, and a key under which
the first instance of the type `Cell` has something else when the template was found again: the
instance has lines, and the template has others; a text is translated, once more or not at all; and
what is stored is not what its line is read as. -/
def changedByBringing : List (String × String × String) :=
  [("Cell < UILabel\n  color: red\n\nCell\n  id: a\n  text: hi\n",
      "Cell < UILabel\n  text: hi\n\nCell\n  id: a\n  text: hi\n", "color"),
    ("Cell < UILabel\n\nCell\n  id: a\n  !text: Hi\n",
      "Cell < UILabel\n  !text: tr('Hi')\n\nCell\n  id: a\n  !text: tr('Hi')\n", "text"),
    ("Cell < UILabel\n  !text: Hi\n\nCell\n  id: a\n",
      "Cell < UILabel\n  !text: tr('Hi')\n\nCell\n  id: a\n", "text"),
    ("Cell < UILabel\n\nCell\n  id: a\n  text \"Hi\"\n",
      "Cell < UILabel\n  text: \"Hi\"\n\nCell\n  id: a\n  text: \"Hi\"\n", "text"),
    ("Cell < UILabel\n  text:\n\nCell\n  id: a\n", "Cell < UILabel\n\nCell\n  id: a\n", "text"),
    ("Cell < UILabel\n\nCell\n  id: a\n  size: 5\n  width: 30\n",
      "Cell < UILabel\n  size: 5\n\nCell\n  id: a\n  size: 5\n", "width"),
    ("Cell < UILabel\n  width: 5 6\n  height: 7\n\nCell\n  id: a\n",
      "Cell < UILabel\n  size: 5 6 7\n\nCell\n  id: a\n", "width")]

/-- In these texts the ids are not empty and have no white space and no quotes around them, and
still the first instance changes. -/
theorem firstInstance_changedByBringing :
    changedByBringing.Forall fun c =>
      (∀ e ∈ (parsed c.1 : Document ℚ).elements, textOrEmpty e.id ≠ ""
          ∧ stripQuotes (trim (textOrEmpty e.id)) = textOrEmpty e.id)
        ∧ (∃ e ∈ Tree.forestLabels (parsed c.1 : Document ℚ).widgets,
            ∃ ref ∈ e.template, ref.name = "Cell")
        ∧ (⟨(parsed c.1 : Document ℚ).expanded.widgets, []⟩ : Document ℚ).text Config.standard
          = .ok c.2.1
        ∧ ∃ v ∈ firstInstance? "Cell" (parsed c.1 : Document ℚ).expanded.widgets,
          ∃ v' ∈ firstInstance? "Cell" (parsed c.2.1 : Document ℚ).expanded.widgets,
            c.2.2 ≠ "id"
              ∧ v'.label.properties.values.get? c.2.2 ≠ v.label.properties.values.get? c.2.2 := by
  -- nine steps are enough to expand each of the texts, before and after
  have hchecked : changedByBringing.Forall fun c =>
      (∀ e ∈ (parsed c.1 : Document ℚ).elements, textOrEmpty e.id ≠ ""
          ∧ stripQuotes (trim (textOrEmpty e.id)) = textOrEmpty e.id)
        ∧ (∃ e ∈ Tree.forestLabels (parsed c.1 : Document ℚ).widgets,
            ∃ ref ∈ e.template, ref.name = "Cell")
        ∧ ∃ vs ∈ Widget.expandedWithin? 9 (parsed c.1 : Document ℚ).templates
            (parsed c.1 : Document ℚ).widgets,
          ∃ us ∈ Widget.expandedWithin? 9 (parsed c.2.1 : Document ℚ).templates
            (parsed c.2.1 : Document ℚ).widgets,
          (⟨vs, []⟩ : Document ℚ).text Config.standard = .ok c.2.1
            ∧ ∃ v ∈ firstInstance? "Cell" vs, ∃ v' ∈ firstInstance? "Cell" us,
              c.2.2 ≠ "id"
                ∧ v'.label.properties.values.get? c.2.2 ≠ v.label.properties.values.get? c.2.2 := by
    decide +kernel
  refine hchecked.imp fun c ⟨hid, hnamed, vs, hvs, us, hus, hrun⟩ => ⟨hid, hnamed, ?_⟩
  rwa [widgets_expanded_eq hvs, widgets_expanded_eq hus]

end Document

end Otui
