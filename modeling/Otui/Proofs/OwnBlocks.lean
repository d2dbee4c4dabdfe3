import Otui.Proofs.DefinedTemplates
import Otui.Proofs.ExactScalar
import Otui.Proofs.WidgetBlocks

/-!
# The blocks of a document

The lines of a document are those of its blocks, one for each template and each widget that is written
(`Document.owners`), one block after the other. If all keys are plain, each of them says everything
once: `said_once`.
-/

namespace Otui

open Otui.Document

variable {α : Type}

namespace Document

/-! ### What has a block -/

/-- What a block is written for: a template, or a widget, which may be a root. -/
inductive Owner (α : Type) where
  /-- A template. -/
  | template (t : Template α)
  /-- A widget. -/
  | widget (isRoot : Bool) (e : Element α)

/-- The block of a template or a widget. -/
def Owner.block [Scalar α] (config : Config α) : Owner α → Except Fault Block
  | .template t => .ok (templateBlock t)
  | .widget isRoot e => widgetBlock config isRoot e

end Document

namespace Widget

mutual

/-- The widgets that are written for a widget, each with the level of its header. -/
def owners (isRoot : Bool) (level : Nat) : Widget α → List (Nat × Owner α)
  | .node e cs =>
    if e.isWritable then (level, .widget isRoot e) :: ownersAmong (level + 1) cs else []

/-- The widgets that are written for the children of a widget. -/
def ownersAmong (level : Nat) : List (Widget α) → List (Nat × Owner α)
  | [] => []
  | w :: ws =>
    if w.label.inherited then ownersAmong level ws
    else owners false level w ++ ownersAmong level ws

end

end Widget

/-- The template and the widgets of its body that are written. -/
def Template.owners (t : Template α) : List (Nat × Owner α) :=
  (0, .template t) :: t.children.flatMap (Widget.owners false 1)

/-- The templates and widgets that are written for a document. -/
def Document.owners (d : Document α) : List (Nat × Owner α) :=
  d.writtenTemplates.flatMap Template.owners ++ d.widgets.flatMap (Widget.owners true 0)

namespace Document

section AreWritten

variable [Scalar α] {config : Config α}

/-- Lines that are those of the blocks of templates and widgets, one block after the other. -/
def AreWritten (config : Config α) (os : List (Nat × Owner α)) (ls : List WrittenLine) : Prop :=
  ∃ own, List.Forall₂ (fun o part => ∃ b, o.2.block config = .ok b ∧ part = blockLines o.1 b) os own
    ∧ ls = own.flatten

theorem areWritten_nil : AreWritten config [] [] := ⟨[], .nil, rfl⟩

theorem areWritten_singleton {o : Nat × Owner α} {b : Block} (h : o.2.block config = .ok b) :
    AreWritten config [o] (blockLines o.1 b) :=
  ⟨[blockLines o.1 b], .cons ⟨b, h, rfl⟩ .nil, by simp⟩

theorem AreWritten.append {os os' : List (Nat × Owner α)} {ls ls' : List WrittenLine}
    (h : AreWritten config os ls) (h' : AreWritten config os' ls') :
    AreWritten config (os ++ os') (ls ++ ls') := by
  obtain ⟨own, hown, rfl⟩ := h
  obtain ⟨own', hown', rfl⟩ := h'
  exact ⟨own ++ own', List.rel_append hown hown', by rw [List.flatten_append]⟩

/-- Lines that are written for each entry of a list are written for all of them. -/
theorem areWritten_flatten {β : Type} {f : β → List (Nat × Owner α)} {xs : List β}
    {parts : List (List WrittenLine)}
    (h : List.Forall₂ (fun x ls => AreWritten config (f x) ls) xs parts) :
    AreWritten config (xs.flatMap f) parts.flatten := by
  induction h with
  | nil => exact areWritten_nil
  | cons hx _ ih =>
    rw [List.flatMap_cons, List.flatten_cons]
    exact hx.append ih

theorem areWritten_lines_node {isRoot : Bool} {level : Nat} {e : Element α} {cs : List (Widget α)}
    {ls : List WrittenLine}
    (hbelow : ∀ ls, Widget.linesAmong config (level + 1) cs = .ok ls →
      AreWritten config (Widget.ownersAmong (level + 1) cs) ls)
    (h : Widget.lines config isRoot level (.node e cs) = .ok ls) :
    AreWritten config (Widget.owners isRoot level (.node e cs)) ls := by
  rw [Widget.lines_node] at h
  rw [Widget.owners]
  split at h
  · next hwritable =>
    obtain ⟨b, hb, h⟩ := exists_of_bind_eq_ok h
    obtain ⟨below, hcs, h⟩ := exists_of_bind_eq_ok h
    cases h
    rw [if_pos hwritable]
    exact (areWritten_singleton (o := (level, .widget isRoot e)) hb).append (hbelow below hcs)
  · next hwritable =>
    cases h
    rw [if_neg hwritable]
    exact areWritten_nil

theorem areWritten_linesAmong {level : Nat} {ws : List (Widget α)} {ls : List WrittenLine}
    (h : Widget.linesAmong config level ws = .ok ls) :
    AreWritten config (Widget.ownersAmong level ws) ls := by
  induction ws using Tree.forest_induction generalizing level ls with
  | nil =>
    cases h
    exact areWritten_nil
  | cons e cs ws ihc ihw =>
    rw [Widget.linesAmong_cons] at h
    rw [Widget.ownersAmong]
    split at h
    · next hinherited =>
      rw [if_pos hinherited]
      exact ihw h
    · next hinherited =>
      obtain ⟨first, hfirst, h⟩ := exists_of_bind_eq_ok h
      obtain ⟨rest, hrest, h⟩ := exists_of_bind_eq_ok h
      cases h
      rw [if_neg hinherited]
      exact (areWritten_lines_node (fun _ => ihc) hfirst).append (ihw hrest)

theorem areWritten_lines {isRoot : Bool} {level : Nat} {w : Widget α} {ls : List WrittenLine}
    (h : Widget.lines config isRoot level w = .ok ls) :
    AreWritten config (Widget.owners isRoot level w) ls := by
  cases w with
  | node e cs => exact areWritten_lines_node (fun _ => areWritten_linesAmong) h

/-- The lines of a document are those of the blocks of its templates and widgets. -/
theorem areWritten_blocks {d : Document α} {bs : List (List WrittenLine)}
    (h : d.blocks config = .ok bs) : AreWritten config d.owners bs.flatten := by
  obtain ⟨definitions, roots, rfl, hdefinitions, hroots⟩ := exists_of_blocks_eq_ok h
  rw [List.flatten_append, List.flatten_filter_not_isEmpty]
  refine (areWritten_flatten (hdefinitions.imp fun t ls hls => ?_)).append
    (areWritten_flatten (hroots.imp fun _ _ => areWritten_lines))
  rw [Template.lines_def] at hls
  obtain ⟨body, hbody, hls⟩ := exists_of_bind_eq_ok hls
  cases hls
  exact (areWritten_singleton (o := (0, .template t)) rfl).append
    (areWritten_flatten ((mapM_eq_ok_iff.1 hbody).imp fun _ _ => areWritten_lines))

end AreWritten

/-! ### Plain keys -/

/-- A template whose properties have plain keys, or such a widget. -/
def Owner.HasPlainKeys : Owner α → Prop
  | .template t => t.properties.HavePlainKeys
  | .widget _ e => e.HasPlainKeys

/-- A document in which all widgets, and all templates with the widgets of their bodies, have plain
keys. -/
structure HasPlainKeys (d : Document α) : Prop where
  /-- The widgets have plain keys. -/
  widgets : ∀ e ∈ Tree.forestLabels d.widgets, e.HasPlainKeys
  /-- The templates have plain keys. -/
  templates : ∀ t ∈ d.templates, t.properties.HavePlainKeys
  /-- The widgets in the bodies of templates have plain keys. -/
  bodies : ∀ t ∈ d.templates, ∀ e ∈ Tree.forestLabels t.children, e.HasPlainKeys

section HasPlainKeys

theorem hasPlainKeys_owners_node {isRoot : Bool} {level : Nat} {e : Element α} {cs : List (Widget α)}
    (he : e.HasPlainKeys) (hbelow : ∀ o ∈ Widget.ownersAmong (level + 1) cs, o.2.HasPlainKeys) :
    ∀ o ∈ Widget.owners isRoot level (.node e cs), o.2.HasPlainKeys := by
  rw [Widget.owners]
  split
  · exact List.forall_mem_cons.2 ⟨he, hbelow⟩
  · simp

theorem hasPlainKeys_ownersAmong {level : Nat} {ws : List (Widget α)}
    (h : ∀ e ∈ Tree.forestLabels ws, e.HasPlainKeys) :
    ∀ o ∈ Widget.ownersAmong level ws, o.2.HasPlainKeys := by
  induction ws using Tree.forest_induction generalizing level with
  | nil => simp [Widget.ownersAmong]
  | cons e cs ws ihc ihw =>
    rw [Tree.forestLabels_cons, List.forall_mem_cons, List.forall_mem_append] at h
    obtain ⟨he, hcs, hws⟩ := h
    rw [Widget.ownersAmong]
    split
    · exact ihw hws
    · rw [List.forall_mem_append]
      exact ⟨hasPlainKeys_owners_node he (ihc hcs), ihw hws⟩

theorem hasPlainKeys_owners {isRoot : Bool} {level : Nat} {ws : List (Widget α)}
    (h : ∀ e ∈ Tree.forestLabels ws, e.HasPlainKeys) :
    ∀ o ∈ ws.flatMap (Widget.owners isRoot level), o.2.HasPlainKeys := by
  induction ws with
  | nil => simp
  | cons w ws ih =>
    cases w with
    | node e cs =>
      rw [Tree.forestLabels_cons, List.forall_mem_cons, List.forall_mem_append] at h
      obtain ⟨he, hcs, hws⟩ := h
      rw [List.flatMap_cons, List.forall_mem_append]
      exact ⟨hasPlainKeys_owners_node he (hasPlainKeys_ownersAmong hcs), ih hws⟩

variable {d : Document α}

/-- What an instance with plain keys brings has plain keys, and so have the widgets of its body. -/
theorem havePlainKeys_templateOfInstance {ref : TemplateRef} {w : Widget α}
    (hw : w.label.HasPlainKeys) (hcs : ∀ e ∈ Tree.forestLabels w.children, e.HasPlainKeys) :
    (templateOfInstance ref w).properties.HavePlainKeys
      ∧ ∀ e ∈ Tree.forestLabels (templateOfInstance ref w).children, e.HasPlainKeys := by
  refine ⟨⟨fun key hkey => ?_, hw.properties.written⟩, fun e he => ?_⟩
  · exact hw.properties.stored key (Ledger.mem_keys_erase.1 hkey).1
  · obtain ⟨f, hf, rfl | rfl⟩ := exists_of_mem_body_templateOfInstance he
    · exact hcs e hf
    · exact ⟨(hcs f hf).properties, (hcs f hf).anchors⟩

/-- All that is written for a document with plain keys has plain keys. -/
theorem HasPlainKeys.of_mem_owners (h : d.HasPlainKeys) :
    ∀ o ∈ d.owners, o.2.HasPlainKeys := by
  have htemplate : ∀ t ∈ d.writtenTemplates, t.properties.HavePlainKeys
      ∧ ∀ e ∈ Tree.forestLabels t.children, e.HasPlainKeys := by
    intro t ht
    rcases List.mem_append.1 ht with ht | ht
    · have hmem := (firstTemplates_sublist d.templates).subset ht
      exact ⟨h.templates t hmem, h.bodies t hmem⟩
    · obtain ⟨w, hw, ref, -, rfl⟩ := exists_of_mem_broughtTemplates ht
      exact havePlainKeys_templateOfInstance (h.widgets _ (Tree.label_mem_forestLabels hw))
        fun e he => h.widgets e (Tree.mem_forestLabels_of_children hw e he)
  rw [owners, List.forall_mem_append]
  refine ⟨fun o ho => ?_, hasPlainKeys_owners h.widgets⟩
  obtain ⟨t, ht, ho⟩ := List.mem_flatMap.1 ho
  obtain ⟨hproperties, hbody⟩ := htemplate t ht
  rcases List.mem_cons.1 ho with rfl | ho
  · exact hproperties
  · exact hasPlainKeys_owners hbody o ho

end HasPlainKeys

/-! ### All blocks -/

variable [Scalar α] {config : Config α}

/-- The block of a template or a widget: it has a header, says nothing twice, and if it is that of a
widget that is no root, its last lines are those that place the widget. -/
structure Owner.IsWritten (config : Config α) (o : Owner α) (b : Block) : Prop where
  /-- The block is written for this template or widget. -/
  block : o.block config = .ok b
  /-- The header is in front, and there is no other. -/
  headed : b.IsHeaded
  /-- Nothing is said twice. -/
  once : b.SaysOnce
  /-- A widget that is no root is placed after all else is said. -/
  placed : ∀ e, o = .widget false e → ∃ c placed,
    withSize config e (propertyBlock false e) = .ok c ∧ b.lines = c.lines ++ placed
      ∧ e.IsPlacedByLines config c placed

theorem Owner.isWritten {o : Owner α} (ho : o.HasPlainKeys) {b : Block}
    (h : o.block config = .ok b) : o.IsWritten config b := by
  cases o with
  | template t =>
    cases h
    refine ⟨rfl, isHeaded_templateBlock ho, Template.saysOnce_templateBlock ho, fun e he => ?_⟩
    cases he
  | widget isRoot e =>
    refine ⟨h, isHeaded_widgetBlock ho h, Element.saysOnce_widgetBlock ho h, fun f hf => ?_⟩
    cases hf
    exact Element.isPlacedByLines_widgetBlock ho h

/-- **What a block says is said once**: a document with plain keys is written with the lines of the
blocks of its templates and widgets, one block after the other. In each of them no two lines have one key,
marks and spellings of anchors apart, no line is for a part of a size or an offset that an earlier line
gives, and a size that is made up is the only one. A widget that is no root gets inferred anchors only
if it was read with no anchors and no margins and has no anchor among its properties, and then it has
one anchor on each axis. -/
theorem said_once (config : Config α) {d : Document α} (hd : d.HasPlainKeys)
    {bs : List (List WrittenLine)} (h : d.blocks config = .ok bs) :
    (bs ≠ [] → d.text config = .ok (textOf bs))
      ∧ ∃ own, List.Forall₂ (fun o ls => ∃ b, o.2.IsWritten config b ∧ ls = blockLines o.1 b)
          d.owners own
        ∧ bs.flatten = own.flatten := by
  obtain ⟨own, hown, hlines⟩ := areWritten_blocks h
  refine ⟨text_eq_textOf h, own, ?_, hlines⟩
  clear hlines
  have hplain := hd.of_mem_owners
  generalize d.owners = os at hown hplain
  induction hown with
  | nil => exact .nil
  | cons hblock _ ih =>
    obtain ⟨ho, hos⟩ := List.forall_mem_cons.1 hplain
    obtain ⟨b, hb, hls⟩ := hblock
    exact .cons ⟨b, Owner.isWritten ho hb, hls⟩ (ih hos)

/-- A window whose title is said twice, with a button whose size is said in whole and in part and one
of whose anchors is said in two spellings, and with a hint that has nothing but a place. -/
def chattyWindow : Document ℚ where
  widgets := [.node
    { type := "UIWindow", surface := some "MainWindow", id := some "main",
      properties := { lines := [⟨"size", "220 220", 0⟩, ⟨"!text", "Menu", 0⟩, ⟨"text", "Main", 0⟩] } }
    [.node
      { type := "UIButton", id := some "ok",
        properties :=
          { values := .ofList [("width", "80"), ("text", "OK"), ("size", "9 9"), ("height", "20")]
            written := .ofList [("text", "!text")] }
        anchors := some [("anchors.top", "parent.top"), ("anchors.horizontalcenter", "parent.left"),
          ("anchors.horizontalCenter", "parent.right")] } [],
      .node
        { type := "UILabel", id := some "hint",
          placement := some ⟨22, 85, 50, 50, 220, 220, 10, 10, 10, 10⟩ } []]]

example : (chattyWindow.text Config.standard).toOption = some
    ("MainWindow\n  id: main\n  size: 220 220\n  !text: tr('Menu')\n  Button\n    id: ok\n"
      ++ "    size: 80 20\n    !text: tr('OK')\n    anchors.top: parent.top\n"
      ++ "    anchors.horizontalcenter: parent.left\n  Label\n    id: hint\n    size: 50 50\n"
      ++ "    anchors.left: parent.left\n    anchors.verticalCenter: parent.verticalCenter\n"
      ++ "    margin-left: 12\n") := by
  decide +kernel

/-- The window that says much has plain keys and is written, so each of its blocks says it once. -/
theorem said_once_chattyWindow :
    chattyWindow.HasPlainKeys
      ∧ ∃ bs, chattyWindow.blocks Config.standard = .ok bs
        ∧ (bs ≠ [] → chattyWindow.text Config.standard = .ok (textOf bs))
        ∧ ∃ own, List.Forall₂
            (fun o ls => ∃ b, o.2.IsWritten Config.standard b ∧ ls = blockLines o.1 b)
            chattyWindow.owners own
          ∧ bs.flatten = own.flatten := by
  have hplain : chattyWindow.HasPlainKeys := by
    constructor <;> decide
  have hwritten : ∃ bs, chattyWindow.blocks Config.standard = .ok bs := by
    cases h : chattyWindow.blocks Config.standard with
    | ok bs => exact ⟨bs, rfl⟩
    | error fault =>
      have hok : (chattyWindow.blocks Config.standard).isOk = true := by decide +kernel
      rw [h] at hok
      cases hok
  obtain ⟨bs, hbs⟩ := hwritten
  exact ⟨hplain, bs, hbs, said_once Config.standard hplain hbs⟩

end Document

end Otui
