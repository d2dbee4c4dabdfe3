import Otui.Document.Printer
import Otui.Proofs.Faults
import Otui.Proofs.WrittenBlocks

/-!
# What is written for a document

Scripts are trees of blocks. Of a document those widgets are written that have a type and an id and
do not come from a template: `Document.kept`. When a document brings no templates and nothing is
added to the blocks of these widgets, what is written for it is given by their scripts: `blocks_eq`.
A document that was read is of that kind, and is written as a whole when no id is empty.
-/

namespace Otui

open Otui.Text Otui.Document

variable {α : Type} {lines : List Line}

/-! ### Scripts -/

/-- What is written for a root widget: the blocks of the widget and of all below it. -/
def Widget.script (w : Widget α) : Tree (List Said) :=
  .node (w.label.said true) (Tree.forestMap (Element.said false) w.children)

/-- What is written for a template: its block and those of all widgets in its body. -/
def Template.script (t : Template α) : Tree (List Said) :=
  .node t.said (Tree.forestMap (Element.said false) t.children)

namespace Document

/-- The lines of a block whose header is at a level. -/
def saidLines (level : Nat) (b : List Said) : List WrittenLine := blockLines level ⟨b, []⟩

mutual

/-- The lines of a script whose first header is at a level. -/
def scriptLines (level : Nat) : Tree (List Said) → List WrittenLine
  | .node b cs => saidLines level b ++ scriptLinesAmong (level + 1) cs

/-- The lines of scripts, one after the other. -/
def scriptLinesAmong (level : Nat) : List (Tree (List Said)) → List WrittenLine
  | [] => []
  | t :: ts => scriptLines level t ++ scriptLinesAmong level ts

end

/-- The scripts of a document, those of templates first. -/
def scripts (d : Document α) : List (Tree (List Said)) :=
  (firstTemplates d.templates).map Template.script ++ d.widgets.map Widget.script

end Document

/-! ### Widgets that are written -/

/-- The children of a widget that are written, with what is written below them: those that it has
from its template are left out, and those that cannot be written are passed over. -/
def Widget.keptBelow : List (Widget α) → List (Widget α)
  | [] => []
  | .node e cs :: ws =>
    if e.inherited || !e.isWritable then keptBelow ws else .node e (keptBelow cs) :: keptBelow ws
  termination_by ws => sizeOf ws
  decreasing_by
    all_goals
      simp only [List.cons.sizeOf_spec, Tree.node.sizeOf_spec]
      omega

/-- A widget that was read is not flagged as one that comes from a template. -/
theorem Element.IsFinished.inherited {templates : List (Template α)} {e : Element α}
    (h : e.IsFinished lines templates) : e.inherited = false := by
  obtain ⟨ls, hr⟩ := h.read
  exact hr.inherited

/-- A widget that was read is written unless its id is empty. -/
theorem Element.IsFinished.isWritable {templates : List (Template α)} {e : Element α}
    (h : e.IsFinished lines templates) (hid : textOrEmpty e.id ≠ "") : e.isWritable = true := by
  obtain ⟨ls, hr⟩ := h.read
  simp [Element.isWritable, hr.type, hid]

/-- The widgets on top that are written, with what is written below them. -/
def Widget.kept (ws : List (Widget α)) : List (Widget α) :=
  (ws.filter fun w => w.label.isWritable).map fun w => .node w.label (keptBelow w.children)

/-- The part of a document that is written. -/
def Document.kept (d : Document α) : Document α where
  widgets := Widget.kept d.widgets
  templates := d.templates.map fun t => { t with children := Widget.kept t.children }

theorem Widget.mem_of_mem_keptBelow {ws : List (Widget α)} {e : Element α}
    (h : e ∈ Tree.forestLabels (keptBelow ws)) : e ∈ Tree.forestLabels ws := by
  induction ws using Tree.forest_induction with
  | nil => rwa [keptBelow] at h
  | cons f cs ws ihc ihw =>
    rw [Tree.forestLabels_cons, List.mem_cons, List.mem_append]
    rw [keptBelow] at h
    split at h
    · exact .inr (.inr (ihw h))
    · rw [Tree.forestLabels_cons, List.mem_cons, List.mem_append] at h
      exact h.imp_right fun h => h.imp ihc ihw

theorem Widget.keptBelow_eq_self {ws : List (Widget α)}
    (h : ∀ e ∈ Tree.forestLabels ws, e.inherited = false ∧ e.isWritable = true) :
    keptBelow ws = ws := by
  induction ws using Tree.forest_induction with
  | nil => rw [keptBelow]
  | cons e cs ws ihc ihw =>
    simp only [Tree.forestLabels_cons, List.mem_cons, List.mem_append] at h
    obtain ⟨hinherited, hwritable⟩ := h e (.inl rfl)
    rw [keptBelow, hinherited, hwritable, ihc fun e he => h e (.inr (.inl he)),
      ihw fun e he => h e (.inr (.inr he))]
    rfl

theorem Widget.kept_cons (w : Widget α) (ws : List (Widget α)) :
    kept (w :: ws)
      = if w.label.isWritable then .node w.label (keptBelow w.children) :: kept ws else kept ws := by
  rw [kept, List.filter_cons]
  split <;> rfl

theorem Widget.mem_of_mem_kept {ws : List (Widget α)} {e : Element α}
    (h : e ∈ Tree.forestLabels (kept ws)) : e ∈ Tree.forestLabels ws := by
  induction ws with
  | nil => exact h
  | cons w ws ih =>
    cases w with
    | node f cs =>
      rw [Tree.forestLabels_cons, List.mem_cons, List.mem_append]
      rw [kept_cons] at h
      split at h
      · rw [Tree.forestLabels_cons, List.mem_cons, List.mem_append] at h
        exact h.imp_right fun h => h.imp mem_of_mem_keptBelow ih
      · exact .inr (.inr (ih h))

theorem Widget.kept_eq_self {ws : List (Widget α)}
    (h : ∀ e ∈ Tree.forestLabels ws, e.inherited = false ∧ e.isWritable = true) :
    kept ws = ws := by
  induction ws with
  | nil => rfl
  | cons w ws ih =>
    cases w with
    | node e cs =>
      simp only [Tree.forestLabels_cons, List.mem_cons, List.mem_append] at h
      rw [kept_cons, Tree.label_node, Tree.children_node, if_pos (h e (.inl rfl)).2,
        keptBelow_eq_self fun e he => h e (.inr (.inl he)), ih fun e he => h e (.inr (.inr he))]

/-- Nothing is added to the block of a widget. -/
def Element.IsComplete [Scalar α] (config : Config α) (e : Element α) : Prop :=
  ∀ isRoot, widgetBlock config isRoot e = .ok (propertyBlock isRoot e)

namespace Document

theorem mem_forestLabels_of_mem {β : Type} {ts : List (Tree β)} {t : Tree β} (ht : t ∈ ts) {b : β}
    (hb : b ∈ Tree.forestLabels [t]) : b ∈ Tree.forestLabels ts := by
  obtain ⟨as, bs, rfl⟩ := List.append_of_mem ht
  rw [← List.singleton_append, Tree.forestLabels_append, Tree.forestLabels_append]
  simp [hb]

/-- What is written for a widget on top and all below it. -/
def keptScript (isRoot : Bool) (w : Widget α) : Tree (List Said) :=
  .node (w.label.said isRoot) (Tree.forestMap (Element.said false) (Widget.keptBelow w.children))

theorem flatten_keptScripts (level : Nat) (ws : List (Widget α)) :
    (ws.map fun w =>
        if w.label.isWritable then scriptLines level (keptScript false w) else []).flatten
      = scriptLinesAmong level (Tree.forestMap (Element.said false) (Widget.kept ws)) := by
  induction ws with
  | nil => rfl
  | cons w ws ih =>
    rw [List.map_cons, List.flatten_cons, ih, Widget.kept_cons]
    split
    · rw [Tree.forestMap_nodeCons, scriptLinesAmong]
      rfl
    · rfl

variable [Scalar α] {config : Config α}

/-- The lines for children are those of the scripts of the children that are written. -/
theorem linesAmong_eq {cs : List (Widget α)}
    (h : ∀ e ∈ Tree.forestLabels (Widget.keptBelow cs), e.IsComplete config) (level : Nat) :
    Widget.linesAmong config level cs
      = .ok (scriptLinesAmong level
          (Tree.forestMap (Element.said false) (Widget.keptBelow cs))) := by
  induction cs using Tree.forest_induction generalizing level with
  | nil => rw [Widget.keptBelow]; rfl
  | cons e bs cs ihb ihc =>
    rw [Widget.keptBelow] at h ⊢
    rw [Widget.linesAmong_cons, Tree.label_node]
    cases hinherited : e.inherited with
    | true =>
      rw [hinherited] at h
      exact ihc h level
    | false =>
      cases hwritable : e.isWritable with
      | false =>
        rw [hinherited, hwritable] at h
        rw [Widget.lines_node, hwritable]
        change (Except.ok [] >>= fun first => Widget.linesAmong config level cs >>= fun rest =>
          Except.ok (first ++ rest)) = _
        rw [ihc h level]
        rfl
      | true =>
        rw [hinherited, hwritable] at h
        have h' : ∀ f ∈ Tree.forestLabels (.node e (Widget.keptBelow bs) :: Widget.keptBelow cs),
            f.IsComplete config := h
        simp only [Tree.forestLabels_cons, List.mem_cons, List.mem_append] at h'
        have hb := ihb (fun f hf => h' f (.inr (.inl hf))) (level + 1)
        have hc := ihc (fun f hf => h' f (.inr (.inr hf))) level
        rw [Widget.lines_node, if_pos hwritable, h' e (.inl rfl) false, hb, hc]
        rfl

/-- The lines for widgets on top are those of their scripts; there are none for a widget that cannot
be written. -/
theorem mapM_lines_eq {ws : List (Widget α)}
    (h : ∀ e ∈ Tree.forestLabels (Widget.kept ws), e.IsComplete config) (isRoot : Bool)
    (level : Nat) :
    ws.mapM (Widget.lines config isRoot level)
      = .ok (ws.map fun w =>
          if w.label.isWritable then scriptLines level (keptScript isRoot w) else []) := by
  refine mapM_eq_ok fun w hw => ?_
  cases w with
  | node e cs =>
    rw [Widget.lines_node, Tree.label_node]
    split
    · next hwritable =>
      have hmem : Tree.node e (Widget.keptBelow cs) ∈ Widget.kept ws :=
        List.mem_map.2 ⟨.node e cs, List.mem_filter.2 ⟨hw, hwritable⟩, rfl⟩
      have hlabels : ∀ f ∈ e :: Tree.forestLabels (Widget.keptBelow cs), f.IsComplete config :=
        fun f hf => h f (mem_forestLabels_of_mem hmem (by simpa using hf))
      rw [hlabels e List.mem_cons_self isRoot,
        linesAmong_eq fun f hf => hlabels f (List.mem_cons_of_mem _ hf)]
      rfl
    · rfl

/-- The lines for a template are those of its script. -/
theorem template_lines_eq {t : Template α}
    (h : ∀ e ∈ Tree.forestLabels (Widget.kept t.children), e.IsComplete config) :
    Template.lines config t
      = .ok (scriptLines 0 (Template.script { t with children := Widget.kept t.children })) := by
  have hbody := mapM_lines_eq h false 1
  rw [Template.lines_def, hbody]
  refine congrArg Except.ok ?_
  rw [flatten_keptScripts]
  rfl

end Document

/-! ### Documents -/

namespace Document

theorem firstTemplates_sublist (ts : List (Template α)) : (firstTemplates ts).Sublist ts := by
  induction ts with
  | nil => exact List.Sublist.slnil
  | cons t ts ih => exact (List.filter_sublist.trans ih).cons_cons t

/-- No name is written twice. -/
theorem nodup_firstTemplates (ts : List (Template α)) :
    ((firstTemplates ts).map Template.name).Nodup := by
  induction ts with
  | nil => exact List.nodup_nil
  | cons t ts ih =>
    rw [firstTemplates, List.map_cons, List.nodup_cons]
    refine ⟨?_, (List.filter_sublist.map Template.name).nodup ih⟩
    simp only [List.mem_map, List.mem_filter, bne_iff_ne, not_exists, not_and]
    rintro u ⟨-, hne⟩ he
    exact hne he

/-- Every name is written. -/
theorem name_mem_firstTemplates {ts : List (Template α)} {name : String}
    (h : name ∈ ts.map Template.name) : name ∈ (firstTemplates ts).map Template.name := by
  induction ts with
  | nil => cases h
  | cons t ts ih =>
    rw [firstTemplates, List.map_cons, List.mem_cons]
    by_cases he : name = t.name
    · exact .inl he
    · rw [List.map_cons, List.mem_cons] at h
      obtain ⟨u, hu, rfl⟩ := List.mem_map.1 (ih (h.resolve_left he))
      exact .inr (List.mem_map.2 ⟨u, List.mem_filter.2 ⟨hu, by simpa using he⟩, rfl⟩)

theorem firstTemplates_eq_self {ts : List (Template α)} (h : (ts.map Template.name).Nodup) :
    firstTemplates ts = ts := by
  induction ts with
  | nil => rfl
  | cons t ts ih =>
    obtain ⟨ht, hts⟩ := List.nodup_cons.1 h
    rw [firstTemplates, ih hts, List.filter_eq_self.2]
    intro u hu
    rw [bne_iff_ne]
    exact fun he => ht (List.mem_map.2 ⟨u, hu, he⟩)

theorem broughtTemplates_eq_nil {known : List String} {ws : List (Widget α)}
    (h : ∀ w ∈ ws, ∀ ref, w.label.template = some ref → ref.name ∈ known) :
    broughtTemplates known ws = [] := by
  induction ws with
  | nil => rfl
  | cons w ws ih =>
    have hws := ih fun v hv => h v (by simp [hv])
    rw [broughtTemplates]
    split
    · next ref href =>
      have hmem := h w (by simp) ref href
      rw [if_pos (by simpa using hmem), hws]
    · exact hws

/-- A document that was read brings no templates that it does not define. -/
theorem IsRead.writtenTemplates_eq {d : Document α} (h : d.IsRead lines) :
    d.writtenTemplates = firstTemplates d.templates := by
  rw [writtenTemplates, broughtTemplates_eq_nil, List.append_nil]
  intro w hw ref href
  have hfinished := h.widgets w.label (List.mem_map.2 ⟨w, hw, rfl⟩)
  rw [hfinished.template] at href
  obtain ⟨hname, hmem⟩ := name_of_refAmong href
  rw [hname]
  exact name_mem_firstTemplates hmem

/-- The widgets of a document, those in bodies of templates too. -/
def elements (d : Document α) : List (Element α) :=
  Tree.forestLabels d.widgets ++ d.templates.flatMap fun t => Tree.forestLabels t.children

theorem IsRead.isFinished {d : Document α} (h : d.IsRead lines) :
    ∀ e ∈ d.elements, e.IsFinished lines d.templates := by
  intro e he
  rcases List.mem_append.1 he with he | he
  · exact h.widgets e he
  · obtain ⟨t, ht, he⟩ := List.mem_flatMap.1 he
    exact h.bodies t ht e he

theorem firstTemplates_map {f : Template α → Template α} (hf : ∀ t, (f t).name = t.name)
    (ts : List (Template α)) : firstTemplates (ts.map f) = (firstTemplates ts).map f := by
  induction ts with
  | nil => rfl
  | cons t ts ih =>
    rw [List.map_cons, firstTemplates, firstTemplates, List.map_cons, ih, List.filter_map]
    simp only [Function.comp_def, hf]

theorem scriptLines_said_ne_nil (isRoot : Bool) (e : Element α) (cs : List (Tree (List Said))) :
    scriptLines 0 (.node (e.said isRoot) cs) ≠ [] := by
  rw [scriptLines, saidLines, e.said_eq_cons]
  exact List.cons_ne_nil _ _

/-- What is written for a document is given by the scripts of the part of it that is written, when
it brings no templates and nothing is added to the blocks. -/
theorem blocks_eq [Scalar α] (config : Config α) {d : Document α}
    (ht : d.writtenTemplates = firstTemplates d.templates)
    (h : ∀ e ∈ d.kept.elements, e.IsComplete config) :
    d.blocks config = .ok (d.kept.scripts.map (scriptLines 0)) := by
  have htemplates : (firstTemplates d.templates).mapM (Template.lines config)
      = .ok ((firstTemplates d.kept.templates).map fun t => scriptLines 0 (Template.script t)) := by
    have hkept := firstTemplates_map
      (f := fun t : Template α => { t with children := Widget.kept t.children }) (fun _ => rfl)
      d.templates
    rw [kept, hkept, List.map_map]
    refine mapM_eq_ok fun t ht => template_lines_eq fun e he => h e ?_
    have ht' := (firstTemplates_sublist _).subset ht
    exact List.mem_append_right _
      (List.mem_flatMap.2 ⟨_, List.mem_map.2 ⟨t, ht', rfl⟩, he⟩)
  have hwidgets := mapM_lines_eq (fun e he => h e (List.mem_append_left _ he)) true 0
  have hne : (d.widgets.map fun w =>
        if w.label.isWritable then scriptLines 0 (keptScript true w) else []).filter
          (fun ls => !ls.isEmpty)
      = d.kept.widgets.map fun w => scriptLines 0 (Widget.script w) := by
    rw [kept, Widget.kept, List.map_map]
    induction d.widgets with
    | nil => rfl
    | cons w ws ih =>
      rw [List.map_cons, List.filter_cons, List.filter_cons, ih]
      split
      · have hscript := scriptLines_said_ne_nil true w.label
          (Tree.forestMap (Element.said false) (Widget.keptBelow w.children))
        rw [if_pos (by simpa [keptScript] using hscript), List.map_cons]
        rfl
      · rfl
  rw [blocks_def, ht, htemplates, hwidgets]
  refine congrArg Except.ok ?_
  rw [hne, scripts, List.map_append, List.map_map, List.map_map]
  rfl

theorem IsRead.isComplete [Scalar α] {d : Document α} (h : d.IsRead lines)
    (hs : ∀ k ∈ lines, k.content.IsSound) (config : Config α) :
    ∀ e ∈ d.elements, e.IsComplete config := by
  intro e he isRoot
  obtain ⟨ls, hr⟩ := (h.isFinished e he).read
  exact (hr.isCoveredBy hs isRoot).widgetBlock_eq config

/-- The part of a document that is written is like a document that was read. -/
theorem IsRead.kept {d : Document α} (h : d.IsRead lines) : d.kept.IsRead lines := by
  have hrefs : ∀ name, refAmong d.kept.templates name = refAmong d.templates name :=
    refAmong_congr (by rw [Document.kept, List.map_map]; rfl)
  have hfinished : ∀ e : Element α, e.IsFinished lines d.templates →
      e.IsFinished lines d.kept.templates := fun e he =>
    ⟨he.read, he.id, by rw [hrefs]; exact he.template, he.base⟩
  refine ⟨fun e he => hfinished e (h.widgets e (Widget.mem_of_mem_kept he)), fun u hu => ?_,
    fun u hu e he => ?_, ?_⟩
  · obtain ⟨t, ht, rfl⟩ := List.mem_map.1 hu
    obtain ⟨ls, hls⟩ := h.templates t ht
    exact ⟨ls, hls.name, hls.base, hls.properties⟩
  · obtain ⟨t, ht, rfl⟩ := List.mem_map.1 hu
    exact hfinished e (h.bodies t ht e (Widget.mem_of_mem_kept he))
  · have hbases : ∀ (names : List String) (ts : List (Template α)), ResolvedAmong names ts →
        ResolvedAmong names (ts.map fun t => { t with children := Widget.kept t.children }) := by
      intro names ts hts
      induction ts generalizing names with
      | nil => exact trivial
      | cons t ts ih => exact ⟨hts.1, ih _ hts.2⟩
    exact hbases [] d.templates h.bases

/-- A document that was read is written as a whole when no id is empty. -/
theorem IsRead.kept_eq_self {d : Document α} (h : d.IsRead lines)
    (hid : ∀ e ∈ d.elements, textOrEmpty e.id ≠ "") : d.kept = d := by
  have hwritten : ∀ e ∈ d.elements, e.inherited = false ∧ e.isWritable = true := fun e he =>
    ⟨(h.isFinished e he).inherited, (h.isFinished e he).isWritable (hid e he)⟩
  have hbodies : d.templates.map (fun t => { t with children := Widget.kept t.children })
      = d.templates := by
    refine (List.map_congr_left fun t ht => ?_).trans (List.map_id _)
    rw [Widget.kept_eq_self fun e he =>
      hwritten e (List.mem_append_right _ (List.mem_flatMap.2 ⟨t, ht, he⟩))]
    rfl
  rw [Document.kept, hbodies, Widget.kept_eq_self fun e he => hwritten e (List.mem_append_left _ he)]

/-- **Writing**: what is written for a document that was read is given by its scripts. -/
theorem IsRead.blocks_eq [Scalar α] {d : Document α} (h : d.IsRead lines)
    (hs : ∀ k ∈ lines, k.content.IsSound) (hid : ∀ e ∈ d.elements, textOrEmpty e.id ≠ "")
    (config : Config α) : d.blocks config = .ok (d.scripts.map (scriptLines 0)) := by
  have hkept := h.kept_eq_self hid
  have hblocks := Document.blocks_eq config h.writtenTemplates_eq
    fun e he => h.isComplete hs config e (by rwa [hkept] at he)
  rwa [hkept] at hblocks

end Document

end Otui
