import Otui.Proofs.ExpandedDocuments
import Otui.Proofs.FormattedDocuments
import Otui.Proofs.LegibleBlocks
import Otui.Proofs.OwnWidgets

/-!
# Templates that instances bring

A document without templates brings one for each name that its instances have, made from the first
of them (`find?_broughtTemplates`). The templates might as well have been defined:
`text_withBrought`. For the expanded widgets of a document that was read, all that is written then
can be read, so reading the text gives copies of the widgets and of the templates that were brought:
`IsRead.isBroughtBack_parsed`.
-/

namespace Otui

open Otui.Text Otui.Document

variable {α : Type} {lines : List Line}

theorem Template.find?_cons (t : Template α) (ts : List (Template α)) (name : String) :
    find? (t :: ts) name = if t.name = name then some t else find? ts name := by
  by_cases h : t.name = name <;> simp [find?, h]

namespace Document

/-! ### One template for each name -/

/-- Whether a widget is an instance of a template of some name. -/
def isInstance (name : String) (w : Widget α) : Bool :=
  w.label.template.map TemplateRef.name == some name

/-- The first widget, depth first, that is an instance of a template of some name. -/
def firstInstance? (name : String) (ws : List (Widget α)) : Option (Widget α) :=
  (Tree.forestNodes ws).find? (isInstance name)

theorem isInstance_iff {name : String} {w : Widget α} :
    isInstance name w = true ↔ ∃ ref, w.label.template = some ref ∧ ref.name = name := by
  rw [isInstance, beq_iff_eq, Option.map_eq_some_iff]

@[simp] theorem name_templateOfInstance (ref : TemplateRef) (w : Widget α) :
    (templateOfInstance ref w).name = ref.name := rfl

/-- The body that an instance brings has widgets from below the instance, those on top without their
flags. -/
theorem exists_of_mem_body_templateOfInstance {ref : TemplateRef} {w : Widget α} {e : Element α}
    (he : e ∈ Tree.forestLabels (templateOfInstance ref w).children) :
    ∃ f ∈ Tree.forestLabels w.children, e = f ∨ e = f.unflagged := by
  rw [templateOfInstance] at he
  generalize w.children = cs at he
  induction cs with
  | nil => cases he
  | cons c cs ih =>
    cases c with
    | node f bs =>
      simp only [Tree.forestLabels_cons, List.mem_cons, List.mem_append]
      rw [List.filter_cons, Tree.label_node] at he
      split at he
      · rw [List.map_cons, Tree.withLabel, Tree.forestLabels_cons, List.mem_cons,
          List.mem_append] at he
        rcases he with rfl | he | he
        · exact ⟨f, .inl rfl, .inr rfl⟩
        · exact ⟨e, .inr (.inl he), .inl rfl⟩
        · obtain ⟨g, hg, heg⟩ := ih he
          exact ⟨g, .inr (.inr hg), heg⟩
      · obtain ⟨g, hg, heg⟩ := ih he
        exact ⟨g, .inr (.inr hg), heg⟩

section broughtTemplates

variable {known : List String} {w : Widget α} {ws : List (Widget α)} {ref : TemplateRef}

theorem broughtTemplates_cons_of_none (h : w.label.template = none) :
    broughtTemplates known (w :: ws) = broughtTemplates known ws := by
  rw [broughtTemplates, h]

theorem broughtTemplates_cons_of_known (h : w.label.template = some ref)
    (hknown : ref.name ∈ known) :
    broughtTemplates known (w :: ws) = broughtTemplates known ws := by
  rw [broughtTemplates, h]
  exact if_pos (by simpa using hknown)

theorem broughtTemplates_cons_of_new (h : w.label.template = some ref) (hnew : ref.name ∉ known) :
    broughtTemplates known (w :: ws)
      = templateOfInstance ref w :: broughtTemplates (ref.name :: known) ws := by
  rw [broughtTemplates, h]
  exact if_neg (by simpa using hnew)

/-- The template of a name that is not known comes from the first instance. -/
theorem find?_broughtTemplates (known : List String) (ws : List (Widget α)) (name : String) :
    Template.find? (broughtTemplates known ws) name
      = if name ∈ known then none
        else (ws.find? (isInstance name)).bind fun w =>
          w.label.template.map fun ref => templateOfInstance ref w := by
  induction ws generalizing known with
  | nil => exact (ite_self none).symm
  | cons w ws ih =>
    cases href : w.label.template with
    | none =>
      have hnot : ¬ isInstance name w = true := by simp [isInstance, href]
      rw [broughtTemplates_cons_of_none href, ih known, List.find?_cons_of_neg hnot]
    | some ref =>
      have hinstance : isInstance name w = true ↔ ref.name = name := by simp [isInstance, href]
      by_cases hknown : ref.name ∈ known
      · rw [broughtTemplates_cons_of_known href hknown, ih known]
        by_cases hname : name ∈ known
        · rw [if_pos hname, if_pos hname]
        · have hnot : ¬ isInstance name w = true := fun hw => hname (hinstance.1 hw ▸ hknown)
          rw [List.find?_cons_of_neg hnot]
      · rw [broughtTemplates_cons_of_new href hknown, Template.find?_cons, name_templateOfInstance]
        by_cases hname : ref.name = name
        · rw [if_pos hname, if_neg (hname ▸ hknown), List.find?_cons_of_pos (hinstance.2 hname),
            Option.bind_some, href, Option.map_some]
        · rw [if_neg hname, ih, List.find?_cons_of_neg (mt hinstance.1 hname)]
          simp [Ne.symm hname]

/-- No name is brought twice, and none that is known. -/
theorem nodup_broughtTemplates (known : List String) (ws : List (Widget α)) :
    ((broughtTemplates known ws).map Template.name).Nodup
      ∧ ∀ t ∈ broughtTemplates known ws, t.name ∉ known := by
  induction ws generalizing known with
  | nil => exact ⟨List.nodup_nil, by simp [broughtTemplates]⟩
  | cons w ws ih =>
    cases href : w.label.template with
    | none =>
      rw [broughtTemplates_cons_of_none href]
      exact ih known
    | some ref =>
      by_cases hknown : ref.name ∈ known
      · rw [broughtTemplates_cons_of_known href hknown]
        exact ih known
      · obtain ⟨hnodup, hnew⟩ := ih (ref.name :: known)
        rw [broughtTemplates_cons_of_new href hknown, List.map_cons, List.nodup_cons, List.mem_map,
          List.forall_mem_cons]
        refine ⟨⟨?_, hnodup⟩, hknown, fun t ht hmem => hnew t ht (List.mem_cons_of_mem _ hmem)⟩
        rintro ⟨t, ht, hname⟩
        exact hnew t ht (hname ▸ List.mem_cons_self)

/-- What is brought is made from instances. -/
theorem exists_of_mem_broughtTemplates {t : Template α} (h : t ∈ broughtTemplates known ws) :
    ∃ w ∈ ws, ∃ ref, w.label.template = some ref ∧ t = templateOfInstance ref w := by
  induction ws generalizing known with
  | nil => cases h
  | cons w ws ih =>
    rw [List.exists_mem_cons_iff]
    cases href : w.label.template with
    | none =>
      rw [broughtTemplates_cons_of_none href] at h
      exact .inr (ih h)
    | some ref =>
      by_cases hknown : ref.name ∈ known
      · rw [broughtTemplates_cons_of_known href hknown] at h
        exact .inr (ih h)
      · rw [broughtTemplates_cons_of_new href hknown] at h
        rcases List.mem_cons.1 h with rfl | h
        · exact .inl ⟨ref, rfl, rfl⟩
        · exact .inr (ih h)

end broughtTemplates

/-! ### Defining what is brought -/

/-- A forest with the templates that its instances bring. -/
def withBrought (ws : List (Widget α)) : Document α :=
  ⟨ws, broughtTemplates [] (Tree.forestNodes ws)⟩

/-- The templates that instances bring are all that is written for a forest. -/
theorem writtenTemplates_withBrought (ws : List (Widget α)) :
    (withBrought ws).writtenTemplates = firstTemplates (withBrought ws).templates
      ∧ firstTemplates (withBrought ws).templates = (withBrought ws).templates := by
  have hfirst : firstTemplates (withBrought ws).templates = (withBrought ws).templates :=
    firstTemplates_eq_self (nodup_broughtTemplates [] _).1
  refine ⟨?_, hfirst⟩
  rw [writtenTemplates, broughtTemplates_eq_nil, List.append_nil]
  intro w hw ref href
  have hsome : ((Tree.forestNodes ws).find? (isInstance ref.name)).isSome = true :=
    List.find?_isSome.2 ⟨w, hw, isInstance_iff.2 ⟨ref, href, rfl⟩⟩
  obtain ⟨v, hv⟩ := Option.isSome_iff_exists.1 hsome
  obtain ⟨ref', href', hname⟩ := isInstance_iff.1 (List.find?_some hv)
  have hfound := find?_broughtTemplates [] (Tree.forestNodes ws) ref.name
  rw [if_neg List.not_mem_nil, hv, Option.bind_some, href', Option.map_some] at hfound
  rw [hfirst]
  exact List.mem_map.2 ⟨_, List.mem_of_find?_eq_some hfound, hname⟩

/-- The same text is written for a forest when what it brings is defined. -/
theorem text_withBrought [Scalar α] (config : Config α) (ws : List (Widget α)) :
    (⟨ws, []⟩ : Document α).text config = (withBrought ws).text config := by
  obtain ⟨hwritten, hfirst⟩ := writtenTemplates_withBrought ws
  have hsame : (⟨ws, []⟩ : Document α).writtenTemplates = (withBrought ws).writtenTemplates :=
    (List.nil_append _).trans (hwritten.trans hfirst).symm
  rw [text_def, text_def, blocks_def, blocks_def, hsame]
  rfl

end Document

/-! ### Bases -/

namespace Registry

theorem isTypeName_typeAmong {names : List String} {name : String}
    (h : isTypeName name.toList = true) : isTypeName (typeAmong names name).toList = true := by
  have halias : ∀ e ∈ packaged.aliases.entries, isTypeName e.2.toList = true := by decide +kernel
  unfold typeAmong
  split
  · next type htype => exact halias _ (Ledger.mem_of_get? htype)
  · split
    · exact h
    · cases hcs : name.toList with
      | nil =>
        rw [hcs] at h
        cases h
      | cons c cs =>
        rw [hcs, isTypeName, Bool.and_eq_true] at h
        have hname : isNameChar c = true := by simp [isNameChar, Char.isAlphanum, h.1]
        have hfront : ("UI" ++ name).toList = 'U' :: 'I' :: c :: cs := by
          rw [String.toList_append, hcs]
          rfl
        have hi : isNameChar 'I' = true := by decide
        have hu : 'U'.isAlpha = true := by decide
        rw [hfront, isTypeName, hu, List.all_cons, List.all_cons, hi, hname, h.2]
        rfl

end Registry

/-- What instances of a template are based on is the name of a type. -/
theorem Document.IsRead.isTypeName_instanceBase {d : Document α} (h : d.IsRead lines)
    {t : Template α} (ht : t ∈ d.templates) : isTypeName t.instanceBase.toList = true := by
  obtain ⟨ls, hls⟩ := h.templates t ht
  have hresolved : ∀ (names : List String) (ts : List (Template α)), ResolvedAmong names ts →
      t ∈ ts → ∃ names, t.resolvedBase = some (Registry.typeAmong names t.base) := by
    intro names ts hts ht
    induction ts generalizing names with
    | nil => cases ht
    | cons u ts ih =>
      rcases List.mem_cons.1 ht with rfl | ht
      · exact ⟨names, hts.1⟩
      · exact ih _ hts.2 ht
  obtain ⟨names, hnames⟩ := hresolved [] d.templates h.bases ht
  rw [Template.instanceBase, hnames]
  split
  · exact Registry.isTypeName_typeAmong hls.base
  · exact hls.base

/-! ### Expanded widgets -/

namespace Widget.IsExpansion

variable {templates : List (Template α)} {e e' : Element α}

theorem surface_eq (h : IsExpansion templates e e') : e'.surface = e.surface := by
  rcases h with rfl | ⟨t, -, rfl⟩ <;> rfl

theorem id_eq (h : IsExpansion templates e e') : e'.id = e.id := by
  rcases h with rfl | ⟨t, -, rfl⟩ <;> rfl

/-- The header stays when a template is applied. -/
theorem header_eq (h : IsExpansion templates e e') (he : e.IsFinished lines templates) :
    header e' = .header (textOrEmpty e.surface) none := by
  rcases h with rfl | ⟨t, ht, rfl⟩
  · exact he.header_eq
  · rw [Element.header_applyTo he ht, he.header_eq]

end Widget.IsExpansion

/-- A widget of an expanded document: one that was read, or one with the template applied that its
type names, flagged or not. -/
def Element.IsExpanded (lines : List Line) (templates : List (Template α)) (e : Element α) : Prop :=
  ∃ e₀, e₀.IsFinished lines templates ∧ Widget.IsExpansion templates e₀ e.unflagged

namespace Document.IsRead

variable {d : Document α}

/-- **Expanding**: all widgets of an expanded document are of this kind. -/
theorem isExpanded (h : d.IsRead lines) :
    ∀ e ∈ Tree.forestLabels d.expanded.widgets, e.IsExpanded lines d.templates := by
  have hplain : ∀ e : Element α, e.IsFinished lines d.templates →
      e.unflagged.IsFinished lines d.templates := by
    intro e he
    rwa [Element.unflagged_eq_self he.inherited]
  refine (Widget.expands_allExpanded d.templates [] d.widgets).forall_labels
    (Q := fun e => e.unflagged.IsFinished lines d.templates) (fun _ he => he)
    (fun e he => ⟨e.unflagged, he, .inl rfl⟩) (fun name t ht => ?_) fun e he =>
      hplain e (h.widgets e he)
  exact ⟨fun e he => hplain e (h.bodies t (List.mem_of_find?_eq_some ht) e he),
    fun e hname he => ⟨e.unflagged, he, .inr ⟨t, hname ▸ ht, rfl⟩⟩⟩

end Document.IsRead

namespace Element.IsExpanded

variable {d : Document α} {e : Element α}

/-- An expanded widget is an instance of the template that its type names. -/
theorem template_eq (h : e.IsExpanded lines d.templates) :
    e.template = refAmong d.templates (textOrEmpty e.surface) := by
  obtain ⟨e₀, he₀, hexp⟩ := h
  change e.unflagged.template = refAmong d.templates (textOrEmpty e.unflagged.surface)
  rcases hexp with he | ⟨t, ht, he⟩
  · rw [he]
    exact he₀.template
  · rw [he]
    change _ = refAmong d.templates (textOrEmpty e₀.surface)
    rw [refAmong, ht]
    rfl

/-- The type as written of an expanded widget is a name. -/
theorem isWidgetName (h : e.IsExpanded lines d.templates) :
    IsWidgetName (textOrEmpty e.surface) := by
  obtain ⟨e₀, he₀, hexp⟩ := h
  obtain ⟨ls, hr⟩ := he₀.read
  obtain ⟨name, hname, hwidget⟩ := hr.surface
  have hsame : e.surface = e₀.surface := hexp.surface_eq
  rw [hsame, hname]
  exact hwidget

/-- The properties of an expanded widget can be written. -/
theorem isLegible (h : e.IsExpanded lines d.templates) (hd : d.IsRead lines)
    (hs : ∀ k ∈ lines, k.content.IsSound) : e.properties.IsLegible := by
  obtain ⟨e₀, he₀, hexp⟩ := h
  obtain ⟨ls, hr⟩ := he₀.read
  have hown := hr.properties.isLegible hs
  change e.unflagged.properties.IsLegible
  rcases hexp with he | ⟨t, ht, he⟩
  · rwa [he]
  · obtain ⟨ks, hks⟩ := hd.templates t (List.mem_of_find?_eq_some ht)
    rw [he]
    exact (hks.properties.isLegible hs).overlay hown

/-- The block of an expanded widget can be read. -/
theorem isWidgetBlock (h : e.IsExpanded lines d.templates) (hd : d.IsRead lines)
    (hs : ∀ k ∈ lines, k.content.IsSound) (isRoot : Bool) : IsWidgetBlock (e.said isRoot) := by
  have hlegible := h.isLegible hd hs
  have hname := h.isWidgetName
  obtain ⟨e₀, he₀, hexp⟩ := h
  obtain ⟨ls, hr⟩ := he₀.read
  obtain ⟨v, hv⟩ := he₀.id
  have hheader : header e = .header (textOrEmpty e.surface) none := by
    have hsame : e.surface = e₀.surface := hexp.surface_eq
    rw [hsame]
    exact hexp.header_eq he₀
  have hid : e.id = some v := hexp.id_eq.trans hv
  refine Element.isWidgetBlock hheader hname ?_ hlegible isRoot
  rw [hid]
  exact hr.id v hv

/-- Nothing is added to the block of an expanded widget. -/
theorem isComplete [Scalar α] (h : e.IsExpanded lines d.templates)
    (hs : ∀ k ∈ lines, k.content.IsSound) (config : Config α) : e.IsComplete config := by
  obtain ⟨e₀, he₀, hexp⟩ := h
  obtain ⟨ls, hr⟩ := he₀.read
  change e.unflagged.IsComplete config
  rcases hexp with he | ⟨t, -, he⟩
  · rw [he]
    exact fun isRoot => (hr.isCoveredBy hs isRoot).widgetBlock_eq config
  · rw [he]
    exact isComplete_applyTo hr hs t config

end Element.IsExpanded

/-! ### Reading back what instances bring -/

/-- The second document has copies of the expanded widgets of the first one that are written, and of
the templates that these bring. -/
structure Document.IsBroughtBack (lines' : List Line) (d d' : Document α) : Prop where
  /-- The widgets are copies. -/
  widgets : Tree.Alike (Element.IsCopy lines') (Widget.kept d.expanded.widgets) d'.widgets
  /-- The templates are copies. -/
  templates : List.Forall₂ (Template.IsCopy lines') (withBrought d.expanded.widgets).kept.templates
    d'.templates

namespace Document.IsRead

variable {d : Document α}

/-- The bodies of templates that expanded widgets bring are of expanded widgets. -/
theorem isExpanded_of_mem_brought (h : d.IsRead lines) {t : Template α}
    (ht : t ∈ (withBrought d.expanded.widgets).templates) :
    ∀ e ∈ Tree.forestLabels t.children, e.IsExpanded lines d.templates := by
  obtain ⟨w, hw, ref, -, rfl⟩ := exists_of_mem_broughtTemplates ht
  intro e he
  obtain ⟨f, hf, heq⟩ := exists_of_mem_body_templateOfInstance he
  have hexp := h.isExpanded f (Tree.mem_forestLabels_of_children hw f hf)
  rcases heq with rfl | rfl
  · exact hexp
  · exact hexp

/-- The scripts of templates that expanded widgets bring can be read. -/
theorem isTemplateScript_of_mem_brought (h : d.IsRead lines) (hs : ∀ k ∈ lines, k.content.IsSound)
    {t : Template α} (ht : t ∈ (withBrought d.expanded.widgets).kept.templates) :
    IsTemplateScript (Template.script t) := by
  obtain ⟨u, hu, rfl⟩ := List.mem_map.1 ht
  have hbody := h.isExpanded_of_mem_brought hu
  obtain ⟨w, hw, ref, href, hbrought⟩ := exists_of_mem_broughtTemplates hu
  have hexp := h.isExpanded w.label (Tree.label_mem_forestLabels hw)
  have htemplate := hexp.template_eq
  rw [href] at htemplate
  obtain ⟨t, hfound, htref⟩ := Option.map_eq_some_iff.1 htemplate.symm
  have hname : IsWidgetName u.name := by
    rw [hbrought, name_templateOfInstance, (name_of_refAmong htemplate.symm).1]
    exact hexp.isWidgetName
  have hbase : isTypeName u.base.toList = true := by
    rw [hbrought, templateOfInstance, ← htref]
    exact h.isTypeName_instanceBase (List.mem_of_find?_eq_some hfound)
  have hlegible : u.properties.IsLegible := by
    rw [hbrought]
    exact (hexp.isLegible h hs).filter _ "id"
  obtain ⟨hblock, props, hprops⟩ := Template.isBlock hname hbase hlegible
  refine ⟨hblock, ⟨_, _, props, hprops⟩, fun b hb => ?_⟩
  rw [Template.script, Tree.children_node, Tree.forestLabels_forestMap] at hb
  obtain ⟨e, he, rfl⟩ := List.mem_map.1 hb
  exact (hbody e (Widget.mem_of_mem_kept he)).isWidgetBlock h hs false

/-- **Reading back**: a text is written for the expanded widgets of a document that was read, and
when there is something to write, reading it gives what was written back. -/
theorem isBroughtBack_parsed [Scalar α] (h : d.IsRead lines) (hs : ∀ k ∈ lines, k.content.IsSound) :
    ∃ s, (⟨d.expanded.widgets, []⟩ : Document α).text Config.standard = .ok s
      ∧ ((withBrought d.expanded.widgets).kept.scripts ≠ [] →
        d.IsBroughtBack (Document.lines s) (parsed s)) := by
  have hwidgets : ∀ e ∈ Tree.forestLabels (Widget.kept d.expanded.widgets),
      e.IsExpanded lines d.templates := fun e he => h.isExpanded e (Widget.mem_of_mem_kept he)
  have hcomplete : ∀ e ∈ (withBrought d.expanded.widgets).kept.elements,
      e.IsComplete (Config.standard : Config α) := by
    intro e he
    rcases List.mem_append.1 he with he | he
    · exact (hwidgets e he).isComplete hs _
    · obtain ⟨t, ht, he⟩ := List.mem_flatMap.1 he
      obtain ⟨u, hu, rfl⟩ := List.mem_map.1 ht
      exact (h.isExpanded_of_mem_brought hu e (Widget.mem_of_mem_kept he)).isComplete hs _
  have hfirst : firstTemplates (withBrought d.expanded.widgets).kept.templates
      = (withBrought d.expanded.widgets).kept.templates := by
    refine firstTemplates_eq_self ?_
    rw [Document.kept, List.map_map]
    exact (nodup_broughtTemplates [] (Tree.forestNodes d.expanded.widgets)).1
  have htext := text_eq_scriptText (writtenTemplates_withBrought d.expanded.widgets).1 hcomplete
  rw [← text_withBrought] at htext
  refine ⟨_, htext, fun hne => ?_⟩
  rw [if_neg hne]
  have hscripts : (withBrought d.expanded.widgets).kept.scripts
      = (withBrought d.expanded.widgets).kept.templates.map Template.script
        ++ (Widget.kept d.expanded.widgets).map Widget.script := by
    rw [scripts, hfirst]
    rfl
  obtain ⟨hroots, htemplates⟩ :=
    isCopy_scriptText (fun t ht => h.isTemplateScript_of_mem_brought hs ht)
      (fun e he => (hwidgets e he).isWidgetBlock h hs) (congrArg scriptText hscripts)
      (by rwa [← hscripts])
  exact ⟨hroots, htemplates⟩

end Document.IsRead

end Otui
