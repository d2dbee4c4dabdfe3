import Otui.Proofs.Formatting

/-!
# What a formatted text is read as

The document that a formatted text is read as is a copy of the document that was written
(`isCopy_parsed`): the forests have the same shape, and each widget is read back from the block that
was written for its original. `Element.IsCopy.spec` says what a copy has of its original: the type as
written, the property lines that are kept, and the id, unless that looks generated.
-/

namespace Otui

open Otui.Text Otui.Document

variable {α : Type} {lines : List Line}

/-! ### Copies -/

/-- A widget that was read back from the block of another. -/
def Element.IsCopy (lines : List Line) (e copy : Element α) : Prop :=
  ∃ isRoot ms, copy.Rereads lines (e.said isRoot) ms

/-- A template that was read back from the script of another. -/
def Template.IsCopy (lines : List Line) (t copy : Template α) : Prop :=
  (∃ ms, copy.Rereads lines t.said ms)
    ∧ Tree.Alike (Element.IsCopy lines) t.children copy.children

/-- What two ids of a widget have to do with each other: the second is what the first reads as, or
the first looks generated and the second was generated. -/
def IdsAgree (e copy : Element α) : Prop :=
  ∃ v w, e.id = some v ∧ copy.id = some w
    ∧ (w = stripQuotes (trim v) ∨ looksGenerated v = true ∧ IsGenerated w)

theorem pairSaid_injective : Function.Injective pairSaid := by
  rintro ⟨a, b⟩ ⟨c, d⟩ h
  simpa [pairSaid] using h

/-- The id of a block and its property lines can be told apart. -/
theorem eq_of_ids_append {v : String} {c : Bool} {ids : List Said} {ps qs : List (String × String)}
    (hids : ids = [] ∨ ∃ w, ids = [.id w])
    (h : ids ++ ps.map pairSaid = (if c then [.id v] else []) ++ qs.map pairSaid) :
    ps = qs ∧ ids = if c then [.id v] else [] := by
  have hhead : ∀ (rs : List (String × String)) w ss, rs.map pairSaid ≠ Said.id w :: ss := by
    intro rs w ss hrs
    cases rs with
    | nil => cases hrs
    | cons r rs => cases hrs
  rcases hids with rfl | ⟨w, rfl⟩
  · cases c with
    | true => exact absurd h (hhead _ _ _)
    | false => exact ⟨pairSaid_injective.list_map h, rfl⟩
  · cases c with
    | true =>
      obtain ⟨hid, hps⟩ := List.cons.inj h
      exact ⟨pairSaid_injective.list_map hps, by rw [hid]; rfl⟩
    | false => exact absurd h.symm (hhead _ _ _)

/-- A copy has the type of its original, its lines that are kept, and its id or one that looks
generated. -/
theorem Element.IsCopy.spec {origin : List Line} {templates : List (Template α)}
    {e copy : Element α} (h : e.IsCopy lines copy) (he : e.IsFinished origin templates)
    (hs : ∀ k ∈ origin, k.content.IsSound) {ls : List OwnLine} (hr : e.ReadFrom origin ls) :
    ∃ ks, copy.ReadFrom lines ks ∧ copy.surface = e.surface ∧ IdsAgree e copy
      ∧ (OwnLine.others ks).map OwnLine.asRead
        = (OwnLine.keptFrom [] (OwnLine.others ls)).map OwnLine.written
      ∧ ∀ k ∈ OwnLine.others ks, k.value = stripQuotes k.raw := by
  obtain ⟨isRoot, ms, hcopy⟩ := h
  obtain ⟨ids, ps, ks, hb, -, hks, hasRead, hvalues, hids⟩ :=
    hcopy.of_isRegular (he.isRegular hs isRoot)
  obtain ⟨v, hv⟩ := he.id
  obtain ⟨name, hname, -⟩ := hr.surface
  obtain ⟨name', hname', -⟩ := hks.surface
  have hsaid := he.said_eq hs hr isRoot
  have hmap : (OwnLine.keptFrom [] (OwnLine.others ls)).map OwnLine.said
      = ((OwnLine.keptFrom [] (OwnLine.others ls)).map OwnLine.written).map pairSaid := by
    rw [List.map_map]
    rfl
  rw [hb, List.cons_append, List.cons.injEq, hmap, hv, hname, hname'] at hsaid
  obtain ⟨hheader, hprops⟩ := hsaid
  obtain ⟨hps, hwritten⟩ := eq_of_ids_append
    (hids.imp (fun h => h.1) fun ⟨w, hw, _⟩ => ⟨w, hw⟩) hprops
  refine ⟨ks, hks, ?_, ?_, by rw [hasRead, hps], hvalues⟩
  · rw [hname, hname']
    exact congrArg some (Said.header.inj hheader).1
  · rcases hids with ⟨rfl, ⟨w, hw, hgen⟩, -⟩ | ⟨w, rfl, hw, -⟩
    · refine ⟨v, w, hv, hw, .inr ⟨?_, hgen⟩⟩
      have hnone : writesId isRoot e = false := by
        rw [Bool.eq_false_iff]
        intro hw
        rw [if_pos hw] at hwritten
        cases hwritten
      rw [writesId, hv, textOrEmpty, Option.getD_some, Bool.or_eq_false_iff] at hnone
      simpa using hnone.2
    · refine ⟨v, _, hv, hw, .inl ?_⟩
      split at hwritten
      · rw [Said.id.inj (List.singleton_inj.1 hwritten)]
        rfl
      · cases hwritten

/-! ### Documents -/

namespace Document

/-- The blocks of a document that was read can be read. -/
theorem IsRead.isWidgetBlock {d : Document α} (h : d.IsRead lines)
    (hs : ∀ k ∈ lines, k.content.IsSound) {e : Element α} (he : e ∈ d.elements) (isRoot : Bool) :
    IsWidgetBlock (e.said isRoot) :=
  ((h.isFinished e he).isRegular hs isRoot).isWidgetBlock

/-- In a document that was read each widget has an id, so that only a written one can be empty. -/
theorem IsRead.textOrEmpty_id_ne {d : Document α} (h : d.IsRead lines)
    (hid : ∀ e ∈ d.elements, e.id ≠ some "") : ∀ e ∈ d.elements, textOrEmpty e.id ≠ "" := by
  intro e he hempty
  obtain ⟨v, hv⟩ := (h.isFinished e he).id
  rw [hv, textOrEmpty, Option.getD_some] at hempty
  exact hid e he (by rw [hv, hempty])

/-- The scripts of templates that were read can be read. -/
theorem IsRead.isTemplateScript {d : Document α} (h : d.IsRead lines)
    (hs : ∀ k ∈ lines, k.content.IsSound) {t : Template α} (ht : t ∈ d.templates) :
    IsTemplateScript (Template.script t) := by
  obtain ⟨ls, hls⟩ := h.templates t ht
  obtain ⟨hblock, hheader⟩ := (hls.isSettled hs).isBlock
  refine ⟨hblock, hheader, fun b hb => ?_⟩
  rw [Template.script, Tree.children_node, Tree.forestLabels_forestMap] at hb
  obtain ⟨e, he, rfl⟩ := List.mem_map.1 hb
  exact h.isWidgetBlock hs (List.mem_append_right _ (List.mem_flatMap.2 ⟨t, ht, he⟩)) false

/-- The scripts of widgets whose blocks can be read can be read. -/
theorem isWidgetBlock_scripts {ws : List (Widget α)}
    (h : ∀ e ∈ Tree.forestLabels ws, ∀ isRoot, IsWidgetBlock (e.said isRoot)) :
    ∀ b ∈ Tree.forestLabels (ws.map Widget.script), IsWidgetBlock b := by
  induction ws with
  | nil => simp
  | cons w ws ih =>
    cases w with
    | node e cs =>
      simp only [Tree.forestLabels_cons, List.mem_cons, List.mem_append] at h
      intro b hb
      simp only [List.map_cons, Widget.script, Tree.label_node, Tree.children_node,
        Tree.forestLabels_cons, Tree.forestLabels_forestMap, List.mem_cons, List.mem_append,
        List.mem_map] at hb
      rcases hb with rfl | ⟨f, hf, rfl⟩ | hb
      · exact h e (.inl rfl) true
      · exact h f (.inr (.inl hf)) false
      · exact ih (fun f hf => h f (.inr (.inr hf))) b hb

/-- The scripts of templates that were read can be read. -/
theorem IsRead.isTemplateScript_scripts {d : Document α} (h : d.IsRead lines)
    (hs : ∀ k ∈ lines, k.content.IsSound) :
    ∀ t ∈ (firstTemplates d.templates).map Template.script, IsTemplateScript t := by
  intro t ht
  obtain ⟨u, hu, rfl⟩ := List.mem_map.1 ht
  exact h.isTemplateScript hs ((firstTemplates_sublist _).subset hu)

/-- The scripts of a document that was read can be read. -/
theorem IsRead.isBlock_scripts {d : Document α} (h : d.IsRead lines)
    (hs : ∀ k ∈ lines, k.content.IsSound) : ∀ b ∈ Tree.forestLabels d.scripts, IsBlock b :=
  isBlock_of_mem_scripts (h.isTemplateScript_scripts hs)
    (isWidgetBlock_scripts fun _ he => h.isWidgetBlock hs (List.mem_append_left _ he))

theorem isCopy_of_forestMap {cs copies : List (Widget α)}
    (h : Tree.Alike (fun b e => ∃ ms, e.Rereads lines b ms)
      (Tree.forestMap (Element.said false) cs) copies) :
    Tree.Alike (Element.IsCopy lines) cs copies :=
  h.of_forestMap.imp fun _ _ ⟨ms, hms⟩ => ⟨false, ms, hms⟩

theorem isCopy_of_scripts {ws copies : List (Widget α)}
    (h : Tree.Alike (fun b e => ∃ ms, e.Rereads lines b ms) (ws.map Widget.script) copies) :
    Tree.Alike (Element.IsCopy lines) ws copies := by
  induction ws generalizing copies with
  | nil =>
    cases h
    exact .nil
  | cons w ws ih =>
    cases w with
    | node e cs =>
      cases h with
      | cons hr hbs hws =>
        obtain ⟨ms, hms⟩ := hr
        exact .cons ⟨true, ms, hms⟩ (isCopy_of_forestMap hbs) (ih hws)

/-- Templates and widgets whose scripts can be read are read back from the text of their scripts. -/
theorem isCopy_scriptText {ts : List (Template α)} {ws : List (Widget α)}
    (hts : ∀ t ∈ ts, IsTemplateScript (Template.script t))
    (hws : ∀ e ∈ Tree.forestLabels ws, ∀ isRoot, IsWidgetBlock (e.said isRoot)) {s : String}
    (hs : s = scriptText (ts.map Template.script ++ ws.map Widget.script))
    (hne : ts.map Template.script ++ ws.map Widget.script ≠ []) :
    Tree.Alike (Element.IsCopy (Document.lines s)) ws (parsed s : Document α).widgets
      ∧ List.Forall₂ (Template.IsCopy (Document.lines s)) ts
        (parsed s : Document α).templates := by
  subst hs
  obtain ⟨htemplates, hwidgets⟩ := rereads_parsed (α := α) (List.forall_mem_map.2 hts)
    (isWidgetBlock_scripts hws) hne
  refine ⟨isCopy_of_scripts hwidgets, (List.forall₂_map_left_iff.1 htemplates).imp ?_⟩
  rintro t copy ⟨hms, hbody⟩
  exact ⟨hms, isCopy_of_forestMap hbody⟩

/-- **Copies**: the document that a formatted text is read as is a copy of the one that was
written. -/
theorem isCopy_parsed [Scalar α] {text : String}
    (hid : ∀ e ∈ (parsed text : Document α).elements, textOrEmpty e.id ≠ "")
    (hne : (parsed text : Document α).scripts ≠ []) :
    ∃ s, format α text = .ok s
      ∧ Tree.Alike (Element.IsCopy (Document.lines s)) (parsed text : Document α).widgets
        (parsed s).widgets
      ∧ List.Forall₂ (Template.IsCopy (Document.lines s))
        (firstTemplates (parsed text : Document α).templates) (parsed s).templates := by
  have hd := isRead_parsed (α := α) text
  have hs : ∀ k ∈ Document.lines text, k.content.IsSound := fun _ => isSound_of_mem_lines
  have hformat := format_eq text hid
  rw [if_neg hne] at hformat
  exact ⟨_, hformat, isCopy_scriptText
    (fun t ht => hd.isTemplateScript hs ((firstTemplates_sublist _).subset ht))
    (fun e he => hd.isWidgetBlock hs (List.mem_append_left _ he)) rfl hne⟩

end Document

end Otui
