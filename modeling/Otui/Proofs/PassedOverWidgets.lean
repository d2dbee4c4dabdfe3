import Otui.Proofs.DefinedTemplates

/-!
# Widgets that are passed over

A widget without a type or an id cannot be written. It is passed over with all below it, and nothing
else changes: the text is the one that would be written without it (`text_writable`). Passing over is
reported once for each such widget that writing comes upon (`reports_print`), which are those that
have only widgets above them that can be written, and that do not come from a template with a widget
above them (`passedOver_eq_reported`). When writing ends with a fault, the first of these have been
reported.
-/

namespace Otui

open Otui.Document

variable {α : Type}

/-! ### Forests without what cannot be written -/

/-- A forest without the widgets that cannot be written and all below them. -/
def Widget.writable : List (Widget α) → List (Widget α)
  | [] => []
  | .node e cs :: ws => if e.isWritable then .node e (writable cs) :: writable ws else writable ws
  termination_by ws => sizeOf ws
  decreasing_by
    all_goals
      simp only [List.cons.sizeOf_spec, Tree.node.sizeOf_spec]
      omega

/-- A document without the widgets that cannot be written and all below them. -/
def Document.writable (d : Document α) : Document α where
  widgets := Widget.writable d.widgets
  templates := d.templates.map fun t => { t with children := Widget.writable t.children }

namespace Widget

theorem writable_cons_of_writable {e : Element α} (h : e.isWritable = true)
    (cs ws : List (Widget α)) :
    writable (.node e cs :: ws) = .node e (writable cs) :: writable ws := by
  rw [writable, if_pos h]

theorem writable_cons_of_not_writable {e : Element α} (h : e.isWritable = false)
    (cs ws : List (Widget α)) : writable (.node e cs :: ws) = writable ws := by
  rw [writable, if_neg (by simp [h])]

/-- What is left of a forest can be written, and was there. -/
theorem mem_of_mem_writable {ws : List (Widget α)} {e : Element α}
    (h : e ∈ Tree.forestLabels (writable ws)) :
    e.isWritable = true ∧ e ∈ Tree.forestLabels ws := by
  induction ws using Tree.forest_induction with
  | nil =>
    rw [writable] at h
    cases h
  | cons f cs ws ihc ihw =>
    rw [Tree.forestLabels_cons, List.mem_cons, List.mem_append]
    cases hf : f.isWritable with
    | false =>
      rw [writable_cons_of_not_writable hf] at h
      exact ⟨(ihw h).1, .inr (.inr (ihw h).2)⟩
    | true =>
      rw [writable_cons_of_writable hf, Tree.forestLabels_cons, List.mem_cons,
        List.mem_append] at h
      rcases h with rfl | h | h
      · exact ⟨hf, .inl rfl⟩
      · exact ⟨(ihc h).1, .inr (.inl (ihc h).2)⟩
      · exact ⟨(ihw h).1, .inr (.inr (ihw h).2)⟩

theorem instanceNames_writable_subset (ws : List (Widget α)) :
    instanceNames (writable ws) ⊆ instanceNames ws := by
  intro name h
  obtain ⟨e, he, href⟩ := List.mem_filterMap.1 h
  exact List.mem_filterMap.2 ⟨e, (mem_of_mem_writable he).2, href⟩

end Widget

namespace Document

variable {d : Document α}

/-- A document that refers to its templates only is written with its templates only. -/
theorem writtenTemplates_eq_firstTemplates
    (h : ∀ name ∈ Widget.instanceNames d.widgets, name ∈ d.templates.map Template.name) :
    d.writtenTemplates = firstTemplates d.templates := by
  rw [writtenTemplates, broughtTemplates_eq_nil, List.append_nil]
  intro w hw ref href
  exact mem_names_firstTemplates.2
    (h ref.name (Widget.mem_instanceNames_of_label (Tree.label_mem_forestLabels hw) href))

theorem writtenTemplates_writable
    (h : ∀ name ∈ Widget.instanceNames d.widgets, name ∈ d.templates.map Template.name) :
    d.writable.writtenTemplates = (firstTemplates d.templates).map fun t =>
      { t with children := Widget.writable t.children } := by
  rw [writtenTemplates_eq_firstTemplates, writable]
  · exact firstTemplates_map
      (f := fun t : Template α => { t with children := Widget.writable t.children }) (fun _ => rfl)
      d.templates
  · intro name hname
    have hmem := h name (Widget.instanceNames_writable_subset d.widgets hname)
    rw [writable, List.map_map]
    exact hmem

end Document

/-! ### The text -/

section text

variable [Scalar α] (config : Config α)

namespace Widget

theorem lines_of_not_writable {e : Element α} (h : e.isWritable = false) (isRoot : Bool)
    (level : Nat) (cs : List (Widget α)) : lines config isRoot level (.node e cs) = .ok [] := by
  rw [lines_node, if_neg (by simp [h])]

/-- The lines of children are those of the children that can be written. -/
theorem linesAmong_writable (level : Nat) (ws : List (Widget α)) :
    linesAmong config level (writable ws) = linesAmong config level ws := by
  induction ws using Tree.forest_induction generalizing level with
  | nil => rw [writable]
  | cons e cs ws ihc ihw =>
    cases he : e.isWritable with
    | false =>
      rw [writable_cons_of_not_writable he, ihw, linesAmong_cons, Tree.label_node]
      split
      · rfl
      · rw [lines_of_not_writable config he]
        cases linesAmong config level ws <;> rfl
    | true =>
      rw [writable_cons_of_writable he, linesAmong_cons, linesAmong_cons, lines_node, lines_node, ihc,
        ihw, Tree.label_node, Tree.label_node]

/-- The lines of widgets on top are those of the widgets that can be written, but for those that are
empty. -/
theorem mapM_lines_writable (isRoot : Bool) (level : Nat) (ws : List (Widget α)) :
    ((writable ws).mapM (lines config isRoot level)).map (List.filter fun ls => !ls.isEmpty)
      = (ws.mapM (lines config isRoot level)).map (List.filter fun ls => !ls.isEmpty) := by
  induction ws with
  | nil => rw [writable]
  | cons w ws ih =>
    cases w with
    | node e cs =>
      cases he : e.isWritable with
      | false =>
        rw [writable_cons_of_not_writable he, ih, List.mapM_cons,
          lines_of_not_writable config he]
        cases ws.mapM (lines config isRoot level) <;> rfl
      | true =>
        have hsame : lines config isRoot level (.node e (writable cs))
            = lines config isRoot level (.node e cs) := by
          rw [lines_node, lines_node, linesAmong_writable]
        rw [writable_cons_of_writable he, List.mapM_cons, List.mapM_cons, hsame]
        cases lines config isRoot level (.node e cs) with
        | error fault => rfl
        | ok first =>
          have hcons : ∀ x : Except Fault (List (List WrittenLine)),
              ((Except.ok first >>= fun ls => x >>= fun rest => pure (ls :: rest)).map
                  (List.filter fun ls => !ls.isEmpty) : Except Fault (List (List WrittenLine)))
                = (x.map (List.filter fun ls => !ls.isEmpty)).map fun rest =>
                    if first.isEmpty then rest else first :: rest := by
            intro x
            cases x with
            | error fault => rfl
            | ok rest =>
              refine congrArg Except.ok ?_
              by_cases hfirst : first.isEmpty = true <;> simp [hfirst]
          rw [hcons, hcons, ih]

end Widget

/-- The lines of a template are those of the template with the widgets that can be written. -/
theorem Template.lines_writable (t : Template α) :
    Template.lines config { t with children := Widget.writable t.children }
      = Template.lines config t := by
  have hlines : ∀ u : Template α, Template.lines config u
      = ((u.children.mapM (Widget.lines config false 1)).map
          (List.filter fun ls => !ls.isEmpty)).map fun body =>
            blockLines 0 (templateBlock u) ++ body.flatten := by
    intro u
    rw [Template.lines_def]
    cases u.children.mapM (Widget.lines config false 1) with
    | error fault => rfl
    | ok body => exact congrArg Except.ok (by simp only [List.flatten_filter_not_isEmpty])
  rw [hlines, hlines, Widget.mapM_lines_writable]
  rfl

namespace Document

variable {d : Document α}

/-- **The text**: nothing but the widgets themselves is missing when widgets that cannot be written
are taken out. -/
theorem text_writable
    (h : ∀ name ∈ Widget.instanceNames d.widgets, name ∈ d.templates.map Template.name) :
    d.writable.text config = d.text config := by
  have htemplates : ((firstTemplates d.templates).map fun t =>
        { t with children := Widget.writable t.children }).mapM (Template.lines config)
      = (firstTemplates d.templates).mapM (Template.lines config) := by
    induction firstTemplates d.templates with
    | nil => rfl
    | cons t ts ih =>
      rw [List.map_cons, List.mapM_cons, List.mapM_cons, Template.lines_writable, ih]
  have hblocks : ∀ c : Document α, c.blocks config
      = c.writtenTemplates.mapM (Template.lines config) >>= fun templates =>
          ((c.widgets.mapM (Widget.lines config true 0)).map
            (List.filter fun ls => !ls.isEmpty)).map fun roots => templates ++ roots := by
    intro c
    rw [blocks_def]
    cases c.writtenTemplates.mapM (Template.lines config) with
    | error fault => rfl
    | ok templates => cases c.widgets.mapM (Widget.lines config true 0) <;> rfl
  have hsame : d.writable.blocks config = d.blocks config := by
    rw [hblocks, hblocks, writtenTemplates_writable h, writtenTemplates_eq_firstTemplates h,
      htemplates, writable, Widget.mapM_lines_writable]
  rw [text_def, text_def, hsame]

end Document

end text

/-! ### What is passed over -/

namespace Widget

mutual

/-- What is passed over when a widget is written. -/
def passedOver : Widget α → List (Widget α)
  | .node e cs => if e.isWritable then passedOverAmong cs else [.node e cs]

/-- What is passed over when the children of a widget are written. -/
def passedOverAmong : List (Widget α) → List (Widget α)
  | [] => []
  | w :: ws => if w.label.inherited then passedOverAmong ws else passedOver w ++ passedOverAmong ws

end

end Widget

/-- What is passed over when a document is written. -/
def Document.passedOver (d : Document α) : List (Widget α) :=
  (d.writtenTemplates.flatMap fun t => t.children.flatMap Widget.passedOver)
    ++ d.widgets.flatMap Widget.passedOver

/-! ### Notices -/

section Reports

variable {β γ : Type}

/-- A run gives some notices; if it ends with a fault, it gives the first of them. -/
structure Reports (ns : List Notice) (x : Outcome β) : Prop where
  /-- They are the first. -/
  first : (ExceptT.run x).notices <+: ns
  /-- They are all. -/
  all : ∀ b, x.result = .ok b → (ExceptT.run x).notices = ns

theorem Reports.of_eq {ns : List Notice} {x : Outcome β} (h : (ExceptT.run x).notices = ns) :
    Reports ns x := ⟨h ▸ List.prefix_rfl, fun _ _ => h⟩

theorem reports_pure (b : β) : Reports [] (pure b : Outcome β) := .of_eq rfl

theorem reports_ofExcept (x : Except Fault β) : Reports [] (Outcome.ofExcept x) := .of_eq rfl

theorem reports_say (n : Notice) : Reports [n] (Outcome.ofNoted (Noted.say n)) := .of_eq rfl

theorem notices_bind_of_ok {x : Outcome β} {b : β} (h : x.result = .ok b) (f : β → Outcome γ) :
    (ExceptT.run (x >>= f)).notices = (ExceptT.run x).notices ++ (ExceptT.run (f b)).notices := by
  have hvalue : (ExceptT.run x).value = .ok b := h
  rw [ExceptT.run_bind, Noted.notices_bind, hvalue]

theorem notices_bind_of_error {x : Outcome β} {fault : Fault} (h : x.result = .error fault)
    (f : β → Outcome γ) : (ExceptT.run (x >>= f)).notices = (ExceptT.run x).notices := by
  have hvalue : (ExceptT.run x).value = .error fault := h
  rw [ExceptT.run_bind, Noted.notices_bind, hvalue]
  exact List.append_nil _

theorem Reports.bind {ns ms : List Notice} {x : Outcome β} {f : β → Outcome γ} (hx : Reports ns x)
    (hf : ∀ b, Reports ms (f b)) : Reports (ns ++ ms) (x >>= f) := by
  cases hresult : x.result with
  | error fault =>
    refine ⟨?_, fun c hc => ?_⟩
    · rw [notices_bind_of_error hresult]
      exact hx.first.trans (List.prefix_append ns ms)
    · rw [Outcome.result_bind, hresult] at hc
      cases hc
  | ok b =>
    have hnotices : (ExceptT.run (x >>= f)).notices = ns ++ (ExceptT.run (f b)).notices := by
      rw [notices_bind_of_ok hresult, hx.all b hresult]
    refine ⟨?_, fun c hc => ?_⟩
    · rw [hnotices]
      exact (List.prefix_append_right_inj ns).2 (hf b).first
    · rw [Outcome.result_bind, hresult] at hc
      rw [hnotices, (hf b).all c hc]

/-- What follows without notices adds none. -/
theorem Reports.bind_pure {ns : List Notice} {x : Outcome β} (h : Reports ns x) (f : β → γ) :
    Reports ns (x >>= fun b => pure (f b)) := by
  rw [← List.append_nil ns]
  exact h.bind fun b => reports_pure (f b)

theorem reports_mapM {ns : β → List Notice} {f : β → Outcome γ} {xs : List β}
    (h : ∀ x, Reports (ns x) (f x)) : Reports (xs.flatMap ns) (xs.mapM f) := by
  induction xs with
  | nil => exact reports_pure []
  | cons x xs ih =>
    rw [List.mapM_cons, List.flatMap_cons]
    exact (h x).bind fun y => ih.bind_pure fun ys => y :: ys

end Reports

section print

variable [Scalar α] (config : Config α)

/-- The reports of widgets that are passed over. -/
def unwritableNotices (ws : List (Widget α)) : List Notice :=
  ws.map fun w => .unwritable (describe w)

omit [Scalar α] in
theorem unwritableNotices_append (vs ws : List (Widget α)) :
    unwritableNotices (vs ++ ws) = unwritableNotices vs ++ unwritableNotices ws :=
  List.map_append

omit [Scalar α] in
theorem flatMap_unwritableNotices {β : Type} (f : β → List (Widget α)) (xs : List β) :
    xs.flatMap (fun x => unwritableNotices (f x)) = unwritableNotices (xs.flatMap f) := by
  rw [unwritableNotices, List.map_flatMap]
  rfl

namespace Widget

theorem reports_write_node (isRoot : Bool) (level : Nat) (e : Element α) (cs : List (Widget α))
    (hcs : Reports (unwritableNotices (passedOverAmong cs)) (writeAmong config (level + 1) cs)) :
    Reports (unwritableNotices (passedOver (.node e cs)))
      (write config isRoot level (.node e cs)) := by
  rw [passedOver, write]
  split
  · exact (reports_ofExcept _).bind fun _ => hcs.bind_pure _
  · exact (reports_say _).bind_pure _

theorem reports_writeAmong (level : Nat) (ws : List (Widget α)) :
    Reports (unwritableNotices (passedOverAmong ws)) (writeAmong config level ws) := by
  induction ws using Tree.forest_induction generalizing level with
  | nil =>
    rw [passedOverAmong, writeAmong]
    exact reports_pure []
  | cons e cs ws ihc ihw =>
    rw [passedOverAmong, writeAmong]
    split
    · exact ihw level
    · rw [unwritableNotices_append]
      exact (reports_write_node config false level e cs (ihc _)).bind fun _ =>
        (ihw level).bind_pure _

theorem reports_write (isRoot : Bool) (level : Nat) (w : Widget α) :
    Reports (unwritableNotices (passedOver w)) (write config isRoot level w) := by
  cases w with
  | node e cs => exact reports_write_node config isRoot level e cs (reports_writeAmong config _ cs)

end Widget

theorem Template.reports_write (t : Template α) :
    Reports (unwritableNotices (t.children.flatMap Widget.passedOver)) (Template.write config t) := by
  rw [← flatMap_unwritableNotices]
  exact (reports_mapM (Widget.reports_write config false 1)).bind_pure _

/-- Writing a document reports what is passed over, in order. -/
theorem Document.reports_print (d : Document α) :
    Reports (unwritableNotices d.passedOver) (d.print config) := by
  have hblocks : Reports (unwritableNotices d.passedOver) (d.writeBlocks config) := by
    rw [passedOver, unwritableNotices_append, ← flatMap_unwritableNotices,
      ← flatMap_unwritableNotices]
    exact (reports_mapM (Template.reports_write config)).bind fun _ =>
      (reports_mapM (Widget.reports_write config true 0)).bind_pure _
  rw [← List.append_nil (unwritableNotices _)]
  refine hblocks.bind fun bs => ?_
  cases bs with
  | nil => exact (reports_ofExcept _).bind_pure _
  | cons b bs => exact reports_pure _

end print

/-! ### What is reported -/

/-- Whether writing goes on below a widget, given with those above it, the nearest first: all of them
can be written, and none but the topmost comes from a template. -/
def Widget.isEntered (path : List (Element α)) : Bool :=
  path.all Element.isWritable && path.dropLast.all fun e => !e.inherited

/-- Whether a widget, given with those above it, is passed over when writing comes upon it: it cannot
be written, those above it can, and neither it nor one of those comes from a template, the topmost
apart. -/
def Widget.isReported (p : List (Element α) × Widget α) : Bool :=
  !p.2.label.isWritable && p.1.all Element.isWritable
    && (p.2.label :: p.1).dropLast.all fun e => !e.inherited

namespace Widget

/-- Nothing is reported where writing does not go. -/
theorem filter_isReported_eq_nil {up : List (Element α)} (hne : up ≠ [])
    (h : isEntered up = false) (ws : List (Widget α)) :
    (Tree.forestPaths up ws).filter isReported = [] := by
  rw [List.filter_eq_nil_iff]
  rintro ⟨above, t⟩ hp hreported
  obtain ⟨front, rfl⟩ := Tree.suffix_of_mem_forestPaths hp
  have hlast : (t.label :: (front ++ up)).dropLast = (t.label :: front) ++ up.dropLast := by
    rw [← List.cons_append, List.dropLast_append_of_ne_nil hne]
  simp only [isReported, hlast, List.all_append, Bool.and_eq_true] at hreported
  obtain ⟨⟨-, -, hwritable⟩, -, hown⟩ := hreported
  rw [isEntered, hwritable, hown] at h
  cases h

/-- The widgets that are passed over below widgets that are entered are those that are reported. -/
theorem passedOverAmong_eq {e : Element α} {up : List (Element α)}
    (h : isEntered (e :: up) = true) (ws : List (Widget α)) :
    passedOverAmong ws = ((Tree.forestPaths (e :: up) ws).filter isReported).map Prod.snd := by
  induction ws using Tree.forest_induction generalizing e up with
  | nil => rfl
  | cons f cs ws ihc ihw =>
    have hpaths : Tree.forestPaths (e :: up) (.node f cs :: ws)
        = (e :: up, .node f cs) :: (Tree.forestPaths (f :: e :: up) cs
          ++ Tree.forestPaths (e :: up) ws) := by
      rw [Tree.forestPaths, Tree.paths, List.cons_append]
    have hentered : isEntered (f :: e :: up) = (f.isWritable && !f.inherited) := by
      simp only [isEntered, Bool.and_eq_true] at h
      simp [isEntered, h.1, h.2, List.dropLast_cons_cons]
    have hreported : isReported (e :: up, .node f cs) = (!f.isWritable && !f.inherited) := by
      simp only [isEntered, Bool.and_eq_true] at h
      simp [isReported, h.1, h.2, List.dropLast_cons_cons]
    rw [passedOverAmong, Tree.label_node, hpaths, List.filter_cons, List.filter_append, hreported]
    cases hinherited : f.inherited with
    | true =>
      rw [filter_isReported_eq_nil (List.cons_ne_nil _ _) (by simp [hentered, hinherited])]
      simp [ihw h]
    | false =>
      rw [passedOver]
      cases hwritable : f.isWritable with
      | true =>
        have hbelow : passedOverAmong cs
            = ((Tree.forestPaths (f :: e :: up) cs).filter isReported).map Prod.snd :=
          ihc (by simp [hentered, hinherited, hwritable])
        simp [ihw h, hbelow]
      | false =>
        rw [filter_isReported_eq_nil (List.cons_ne_nil _ _) (by simp [hentered, hwritable])]
        simp [ihw h]

/-- **What is passed over** when widgets on top are written are the widgets that are reported. -/
theorem passedOver_eq_reported (ws : List (Widget α)) :
    ws.flatMap passedOver = ((Tree.forestPaths [] ws).filter isReported).map Prod.snd := by
  induction ws with
  | nil => rfl
  | cons w ws ih =>
    cases w with
    | node e cs =>
      have hpaths : Tree.forestPaths [] (.node e cs :: ws)
          = ([], .node e cs) :: (Tree.forestPaths [e] cs ++ Tree.forestPaths [] ws) := by
        rw [Tree.forestPaths, Tree.paths, List.cons_append]
      have hreported : isReported ([], .node e cs) = !e.isWritable := by simp [isReported]
      rw [List.flatMap_cons, ih, hpaths, List.filter_cons, List.filter_append, hreported, passedOver]
      cases hwritable : e.isWritable with
      | true =>
        have hbelow : passedOverAmong cs
            = ((Tree.forestPaths [e] cs).filter isReported).map Prod.snd :=
          passedOverAmong_eq (by simp [isEntered, hwritable]) cs
        simp [hbelow]
      | false =>
        rw [filter_isReported_eq_nil (List.cons_ne_nil _ _) (by simp [isEntered, hwritable])]
        simp

/-- Nothing is reported of what is left of a forest. -/
theorem filter_isReported_writable (ws : List (Widget α)) :
    (Tree.forestPaths [] (writable ws)).filter isReported = [] := by
  rw [List.filter_eq_nil_iff]
  rintro ⟨above, t⟩ hp hreported
  have hmem : t ∈ Tree.forestNodes (writable ws) := by
    rw [← Tree.map_snd_forestPaths []]
    exact List.mem_map_of_mem hp
  obtain ⟨hwritable, -⟩ := mem_of_mem_writable (Tree.label_mem_forestLabels hmem)
  simp [isReported, hwritable] at hreported

end Widget

namespace Document

/-- The widgets in the bodies of the first template of each name, and those of the document, each
with the widgets above it. -/
def writtenPaths (d : Document α) : List (List (Element α) × Widget α) :=
  ((firstTemplates d.templates).flatMap fun t => Tree.forestPaths [] t.children)
    ++ Tree.forestPaths [] d.widgets

variable {d : Document α}

/-- What is passed over when a document is written that refers to its templates only. -/
theorem passedOver_eq
    (h : ∀ name ∈ Widget.instanceNames d.widgets, name ∈ d.templates.map Template.name) :
    d.passedOver = (d.writtenPaths.filter Widget.isReported).map Prod.snd := by
  rw [passedOver, writtenTemplates_eq_firstTemplates h, Widget.passedOver_eq_reported, writtenPaths,
    List.filter_append, List.map_append, List.filter_flatMap, List.map_flatMap]
  simp only [Widget.passedOver_eq_reported]

/-- A document in which everything can be written is written without a report. -/
theorem passedOver_writable
    (h : ∀ name ∈ Widget.instanceNames d.widgets, name ∈ d.templates.map Template.name) :
    d.writable.passedOver = [] := by
  rw [passedOver, writtenTemplates_writable h, List.append_eq_nil_iff, List.flatMap_eq_nil_iff,
    Widget.passedOver_eq_reported, writable, Widget.filter_isReported_writable]
  refine ⟨fun t ht => ?_, rfl⟩
  obtain ⟨u, -, rfl⟩ := List.mem_map.1 ht
  rw [Widget.passedOver_eq_reported, Widget.filter_isReported_writable]
  rfl

/-- **Widgets that cannot be written are passed over alone**: a document whose widgets refer to its
templates only is written as if the widgets without a type or an id were not there, nor anything
below them. Each of them that writing comes upon is reported once, in order, and nothing is reported
when they are not there. -/
theorem passed_over_alone [Scalar α] (config : Config α) (d : Document α)
    (h : ∀ name ∈ Widget.instanceNames d.widgets, name ∈ d.templates.map Template.name) :
    d.writable.text config = d.text config
      ∧ Reports ((d.writtenPaths.filter Widget.isReported).map fun p => .unwritable (describe p.2))
        (d.print config)
      ∧ (∀ s, d.text config = .ok s →
        (ExceptT.run (d.print config)).notices.length = d.writtenPaths.countP Widget.isReported)
      ∧ (ExceptT.run (d.writable.print config)).notices = [] := by
  have hnotices : unwritableNotices d.passedOver
      = (d.writtenPaths.filter Widget.isReported).map fun p => .unwritable (describe p.2) := by
    rw [passedOver_eq h, unwritableNotices, List.map_map]
    rfl
  have hreports := hnotices ▸ reports_print config d
  have hnone := reports_print config d.writable
  rw [passedOver_writable h] at hnone
  refine ⟨text_writable config h, hreports, fun s hs => ?_, List.prefix_nil.1 hnone.first⟩
  rw [hreports.all s hs, List.length_map, List.countP_eq_length_filter]

/-- A window with a button, a widget without a type, and a label without an id in which there is
another widget without an id; in the body of the template for its rows there is a label without an
id, too. -/
def brokenWindow : Document Float where
  widgets := [.node { type := "UIWindow", surface := some "MainWindow", id := some "main" }
    [.node { type := "", id := some "typeless" } [],
      .node { type := "UIButton", id := some "ok" } [],
      .node { type := "UILabel" } [.node { type := "UIWidget" } []],
      .node
        { type := "UIPanel", surface := some "Row", id := some "first",
          template := some ⟨"Row", "UIPanel"⟩ }
        [.node { type := "UILabel", inherited := true } []]]]
  templates := [{ name := "Row", base := "Panel", children := [.node { type := "UILabel" } []] }]

/-- Three of the five widgets that cannot be written are reported: not the one below another, and not
the one that comes from a template. -/
theorem passed_over_alone_brokenWindow :
    (∀ name ∈ Widget.instanceNames brokenWindow.widgets,
        name ∈ brokenWindow.templates.map Template.name)
      ∧ brokenWindow.writable.text Config.standard = brokenWindow.text Config.standard
      ∧ (∃ s, brokenWindow.text Config.standard = .ok s)
      ∧ (ExceptT.run (brokenWindow.print Config.standard)).notices.length = 3 := by
  have hrefs : ∀ name ∈ Widget.instanceNames brokenWindow.widgets,
      name ∈ brokenWindow.templates.map Template.name := by decide
  have hwritten : (brokenWindow.text Config.standard).isOk = true := by decide +kernel
  obtain ⟨htext, -, hcount, -⟩ := passed_over_alone Config.standard brokenWindow hrefs
  cases hs : brokenWindow.text Config.standard with
  | error fault =>
    rw [hs] at hwritten
    cases hwritten
  | ok s => exact ⟨hrefs, htext.trans hs, ⟨s, rfl⟩, (hcount s hs).trans (by decide)⟩

end Document

end Otui
