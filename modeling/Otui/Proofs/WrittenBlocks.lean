import Otui.Proofs.FinishedDocuments
import Otui.Proofs.KeptLines

/-!
# What is written for a widget that was read

The block of a widget is a header, perhaps an id, and property lines (`said_eq_cons`). A widget that
was read has all it needs to be written from its property lines: these are the ones that are kept
(`said_eq`), and nothing is added to its block for a size, for anchors or for margins
(`IsCoveredBy`).
-/

namespace Otui

open Otui.Text Otui.Document

variable {α : Type} {lines : List Line}

/-! ### Blocks -/

/-- The lines that are not for the id. -/
def OwnLine.others (ls : List OwnLine) : List OwnLine :=
  ls.filter fun l => Key.stored l.key != "id"

theorem OwnLine.mem_others {ls : List OwnLine} {l : OwnLine} :
    l ∈ others ls ↔ l ∈ ls ∧ Key.stored l.key ≠ "id" := by
  simp [others]

theorem OwnLine.others_sublist (ls : List OwnLine) : (others ls).Sublist ls :=
  List.filter_sublist

/-- The lines that are written for a widget, its children apart. -/
def Element.said (isRoot : Bool) (e : Element α) : List Said := (propertyBlock isRoot e).lines

/-- The lines that are written for a template, its body apart. -/
def Template.said (t : Template α) : List Said := (templateBlock t).lines

namespace Properties.ReadFrom

variable {p : Properties} {ls : List OwnLine}

theorem lines_eq (h : p.ReadFrom lines ls) : p.lines = ls.map OwnLine.entry := by
  rw [h.stored, lines_of_unblocked h.unblocked]

theorem entries_eq (h : p.ReadFrom lines ls) :
    p.values.entries = ls.flatMap OwnLine.pairs := by
  rw [h.stored, entries_of_unblocked h.unblocked]

theorem isSound (h : p.ReadFrom lines ls) (hs : ∀ k ∈ lines, k.content.IsSound) :
    ∀ l ∈ ls, l.IsSound :=
  fun l hl => (h.among l hl).isSound hs

end Properties.ReadFrom

namespace Document.Block

/-- A block with lines in front. -/
def after (front : List Said) (b : Block) : Block := { b with lines := front ++ b.lines }

@[simp] theorem keys_after (front : List Said) (b : Block) : (b.after front).keys = b.keys := rfl

theorem has_after (front : List Said) (b : Block) (key : String) :
    (b.after front).has key = b.has key := rfl

theorem add_after (front : List Said) (b : Block) (key written value : String) :
    (b.after front).add key written value = (b.add key written value).after front := by
  rw [add, add, after, after, List.append_assoc]

/-- What stands in front of a block makes no difference to a line that is added. -/
theorem addLine_after (front : List Said) (b : Block) (l : PropertyLine) :
    (b.after front).addLine l = (b.addLine l).after front := by
  simp only [addLine, addNew, has_after, add_after, apply_ite (after front)]

theorem addStored_after (values written : Ledger String) (front : List Said) (b : Block)
    (key value : String) :
    addStored values written (b.after front) key value
      = (addStored values written b key value).after front := by
  simp only [addStored, has_after, apply_ite (after front)]
  cases compoundLine? values key with
  | none => simp only [add_after]
  | some line => simp only [add_after]

theorem foldl_after {β : Type} {f : Block → β → Block} {front : List Said}
    (hf : ∀ b x, f (b.after front) x = (f b x).after front) (b : Block) (xs : List β) :
    xs.foldl f (b.after front) = (xs.foldl f b).after front := by
  induction xs generalizing b with
  | nil => rfl
  | cons x xs ih => rw [List.foldl_cons, hf, ih, List.foldl_cons]

end Document.Block

/-- The property lines of a widget as they are written. -/
def Element.bodyBlock (e : Element α) : Block :=
  if e.properties.lines.isEmpty then
    ({} : Block).addValues (e.properties.values.erase "id") e.properties.written
  else ({} : Block).addLines (e.properties.lines.filter fun l => Key.stored l.key != "id")

/-- The block of a widget is its header, its id if that is written, and its property lines. -/
theorem Element.propertyBlock_eq_after (isRoot : Bool) (e : Element α) :
    propertyBlock isRoot e
      = e.bodyBlock.after
          (header e :: if writesId isRoot e then [.id (textOrEmpty e.id)] else []) := by
  generalize hfront :
    (header e :: if writesId isRoot e then [.id (textOrEmpty e.id)] else []) = front
  have hstart : (⟨front, []⟩ : Block) = ({} : Block).after front := by
    rw [Block.after, List.append_nil]
  simp only [propertyBlock, bodyBlock, hfront]
  rw [hstart]
  split
  · exact Block.foldl_after (fun b p => Block.addStored_after _ _ _ b p.1 p.2) _ _
  · exact Block.foldl_after (Block.addLine_after _) _ _

theorem Element.said_eq_cons (isRoot : Bool) (e : Element α) :
    e.said isRoot = header e
      :: ((if writesId isRoot e then [.id (textOrEmpty e.id)] else []) ++ e.bodyBlock.lines) := by
  rw [said, propertyBlock_eq_after]
  rfl

/-- The property lines of a template as they are written. -/
def Template.bodyBlock (t : Template α) : Block :=
  if t.properties.lines.isEmpty then
    ({} : Block).addValues t.properties.values t.properties.written
  else ({} : Block).addLines t.properties.lines

theorem Template.said_eq_cons (t : Template α) :
    t.said = .header t.name (some t.base) :: t.bodyBlock.lines := by
  have hstart : (⟨[.header t.name (some t.base)], []⟩ : Block)
      = ({} : Block).after [.header t.name (some t.base)] := rfl
  have hafter : templateBlock t = t.bodyBlock.after [.header t.name (some t.base)] := by
    rw [templateBlock, hstart, bodyBlock]
    split
    · exact Block.foldl_after (fun b p => Block.addStored_after _ _ _ b p.1 p.2) _ _
    · exact Block.foldl_after (Block.addLine_after _) _ _
  rw [said, hafter]
  rfl

/-- The block of a template has its property lines that are kept. -/
theorem Template.ReadFrom.said_eq {t : Template α} {ls : List OwnLine}
    (h : t.ReadFrom lines ls) (hs : ∀ k ∈ lines, k.content.IsSound) :
    t.said = .header t.name (some t.base) :: (OwnLine.keptFrom [] ls).map OwnLine.said := by
  have hkeys : ∀ l ∈ ls, IsKey l.key := fun l hl => (h.properties.isSound hs l hl).isKey
  rw [Template.said_eq_cons, Template.bodyBlock, h.properties.lines_eq]
  cases ls with
  | nil =>
    simp [Block.addValues, h.properties.entries_eq, OwnLine.keptFrom]
  | cons l ls =>
    rw [if_neg (by simp), OwnLine.addLines_entries hkeys]
    rfl

namespace Element

/-- The property lines of a widget that was read are those that are kept, the id apart. -/
theorem ReadFrom.bodyBlock_eq {e : Element α} {ls : List OwnLine} (h : e.ReadFrom lines ls)
    (hs : ∀ k ∈ lines, k.content.IsSound) :
    e.bodyBlock
      = { lines := (OwnLine.keptFrom [] (OwnLine.others ls)).map OwnLine.said
          keys := (OwnLine.keptFrom [] (OwnLine.others ls)).flatMap OwnLine.covers } := by
  have hkeys : ∀ l ∈ OwnLine.others ls, IsKey l.key := fun l hl =>
    (h.properties.isSound hs l (OwnLine.mem_others.1 hl).1).isKey
  rw [bodyBlock, h.properties.lines_eq]
  cases ls with
  | nil =>
    simp [Block.addValues, Ledger.erase, Ledger.filter, h.properties.entries_eq, OwnLine.keptFrom,
      OwnLine.others]
  | cons l ls =>
    have hfilter : ((l :: ls).map OwnLine.entry).filter (fun l => Key.stored l.key != "id")
        = (OwnLine.others (l :: ls)).map OwnLine.entry := by
      rw [List.filter_map]
      rfl
    rw [if_neg (by simp), hfilter, OwnLine.addLines_entries hkeys]
    rfl

/-- The header names the type as written. -/
theorem IsFinished.header_eq {templates : List (Template α)} {e : Element α}
    (h : e.IsFinished lines templates) : header e = .header (textOrEmpty e.surface) none := by
  obtain ⟨ls, hr⟩ := h.read
  obtain ⟨name, hn, c, cs, hcs, -⟩ := hr.surface
  have hne : name ≠ "" := by
    rintro rfl
    cases hcs
  have htemplate := h.template
  rw [header]
  cases ht : e.template with
  | some ref =>
    rw [ht] at htemplate
    exact congrArg (Said.header · none) (name_of_refAmong htemplate.symm).1
  | none =>
    have hbase : e.base = none := by rw [h.base, ht]; rfl
    simp [displayType, hbase, hn, textOrEmpty, hne]

/-- The lines for a widget that was read: a header, perhaps an id, and the property lines that are
kept. -/
theorem IsFinished.said_eq {templates : List (Template α)} {e : Element α}
    (h : e.IsFinished lines templates) (hs : ∀ k ∈ lines, k.content.IsSound) {ls : List OwnLine}
    (hr : e.ReadFrom lines ls) (isRoot : Bool) :
    e.said isRoot = .header (textOrEmpty e.surface) none
      :: (if writesId isRoot e then [.id (textOrEmpty e.id)] else [])
        ++ (OwnLine.keptFrom [] (OwnLine.others ls)).map OwnLine.said := by
  rw [Element.said_eq_cons, hr.bodyBlock_eq hs, h.header_eq]
  rfl

end Element

/-! ### Nothing is added -/

namespace Element.ReadFrom

variable {e : Element α} {ls : List OwnLine}

/-- What a line of a widget says is known to its block. -/
theorem spelling_mem_keys (h : e.ReadFrom lines ls) (hs : ∀ k ∈ lines, k.content.IsSound)
    (isRoot : Bool) {l : OwnLine} (hl : l ∈ ls) (hid : Key.stored l.key ≠ "id") :
    Key.spelling (Key.stored l.key) ∈ (propertyBlock isRoot e).keys := by
  rw [propertyBlock_eq_after, Block.keys_after, h.bodyBlock_eq hs]
  have hmem := @OwnLine.spelling_mem_keptFrom [] _ _ (OwnLine.mem_others.2 ⟨hl, hid⟩)
  simpa using hmem

end Element.ReadFrom

namespace Key

theorem exists_of_startsWith {front key : String} (h : startsWith front key = true) :
    ∃ s, key = front ++ s := by
  obtain ⟨cs, hcs⟩ := List.isPrefixOf_iff_prefix.1 h
  exact ⟨String.ofList cs, String.toList_inj.1 (by simp [hcs])⟩

/-- A key with some other character in front has no mark. -/
theorem stored_of_startsWith {front key : String} {c : Char} {cs : List Char}
    (hf : front.toList = c :: cs) (hc : c ≠ '!') (h : startsWith front key = true) :
    stored key = key := by
  refine stored_of_not_isMarked (Bool.eq_false_iff.2 fun hm => hc ?_)
  obtain ⟨s, rfl⟩ := isMarked_iff.1 hm
  obtain ⟨ds, hds⟩ := List.isPrefixOf_iff_prefix.1 h
  rw [hf, String.toList_append] at hds
  exact (List.cons.inj hds).1

theorem stored_of_isAnchor {key : String} (h : isAnchor key = true) : stored key = key :=
  stored_of_startsWith (c := 'a') rfl (by decide) h

/-- The key of a margin is the front of such keys and the edge. -/
theorem eq_of_marginEdge? {key edge : String} (h : marginEdge? key = some edge) :
    key = marginFront ++ edge ∧ stored key = key := by
  unfold marginEdge? at h
  split at h
  · next hf =>
    obtain ⟨s, rfl⟩ := exists_of_startsWith hf
    refine ⟨?_, stored_of_startsWith (c := 'm') rfl (by decide) hf⟩
    have hedge : dropFront marginFront.length (marginFront ++ s) = s := by
      rw [dropFront]
      exact String.toList_inj.1 (by rw [String.toList_ofList, String.toList_append]; rfl)
    rw [← Option.some.inj h, hedge]
  · cases h

end Key

namespace Document.Block

variable {b : Block}

theorem addNew_of_has {key : String} (h : b.has key = true) (written value : String) :
    b.addNew key written value = b := by
  rw [addNew, if_pos h]

/-- Anchors and margins that a block has are not added again. -/
theorem addAnchors_eq_self {anchors : List (String × String)} {margins : List (String × Int)}
    (ha : ∀ a ∈ anchors, b.has a.1 = true)
    (hm : ∀ edge ∈ margins.map Prod.fst, b.has (Key.marginFront ++ edge) = true) :
    b.addAnchors anchors margins = b := by
  have hstays : ∀ {β : Type} {f : Block → β → Block} {l : List β},
      (∀ x ∈ l, f b x = b) → l.foldl f b = b := by
    intro β f l hl
    induction l with
    | nil => rfl
    | cons x l ih => rw [List.foldl_cons, hl x (by simp), ih fun y hy => hl y (by simp [hy])]
  have hfirst : b.addAnchors anchors margins = b.addAnchors [] margins :=
    congrArg (fun b : Block => b.addAnchors [] margins)
      (hstays fun a h => addNew_of_has (ha a h) a.1 a.2)
  rw [hfirst]
  refine hstays fun edge _ => ?_
  split
  · next margin hmargin =>
    refine addNew_of_has (hm _ ?_) _ _
    obtain ⟨l₁, l₂, he, -⟩ := List.lookup_eq_some_iff.1 hmargin
    simp [he]
  · rfl

end Document.Block

namespace Element

variable {e : Element α}

/-- A block says all that a widget has besides its properties. -/
structure IsCoveredBy (b : Block) (e : Element α) : Prop where
  /-- The block says a size whenever the widget has one. -/
  sized : (saysSize b || e.sized == some false) = true
  /-- The widget was not placed. -/
  placement : e.placement = none
  /-- The anchors are in the block. -/
  anchors : ∀ a ∈ e.anchors.getD [], b.has a.1 = true
  /-- The margins are in the block. -/
  margins : ∀ edge ∈ (e.margins.getD {}).keys, b.has (Key.marginFront ++ edge) = true

/-- Whether a block says all can be seen from its keys. -/
theorem IsCoveredBy.of_keys_eq {b c : Block} (h : e.IsCoveredBy b) (hk : c.keys = b.keys) :
    e.IsCoveredBy c := by
  refine ⟨?_, h.placement, ?_, ?_⟩
  · rw [saysSize, hk]
    exact h.sized
  · simp only [Block.has, hk]
    exact h.anchors
  · simp only [Block.has, hk]
    exact h.margins

/-- A widget of which a block without keys says all needs nothing, whatever its block. -/
theorem IsCoveredBy.of_keys_eq_nil {b : Block} (h : e.IsCoveredBy b) (hb : b.keys = [])
    (c : Block) : e.IsCoveredBy c where
  sized := by
    have hsized := h.sized
    rw [saysSize, hb] at hsized
    rw [Bool.or_eq_true]
    exact .inr (by simpa using hsized)
  placement := h.placement
  anchors a ha := by
    have hhas := h.anchors a ha
    simp [Block.has, hb] at hhas
  margins edge hedge := by
    have hhas := h.margins edge hedge
    simp [Block.has, hb] at hhas

/-- Nothing is added to a block that says all. -/
theorem IsCoveredBy.widgetBlock_eq [Scalar α] {isRoot : Bool}
    (h : e.IsCoveredBy (propertyBlock isRoot e)) (config : Config α) :
    widgetBlock config isRoot e = .ok (propertyBlock isRoot e) := by
  -- no anchor is invented: there is no place to infer one from
  have hanchors : ∃ anchors margins,
      anchorsFor config e (propertyBlock isRoot e) = .ok (anchors, margins)
        ∧ (propertyBlock isRoot e).addAnchors anchors margins = propertyBlock isRoot e := by
    unfold anchorsFor
    split
    · exact ⟨_, _, rfl, Block.addAnchors_eq_self h.anchors h.margins⟩
    · split
      · exact ⟨[], [], rfl, Block.addAnchors_eq_self (by simp) (by simp)⟩
      · rw [h.placement]
        exact ⟨[], [], rfl, Block.addAnchors_eq_self (by simp) (by simp)⟩
  obtain ⟨anchors, margins, ha, hadd⟩ := hanchors
  rw [widgetBlock, withSize, if_pos h.sized]
  cases isRoot with
  | true => rfl
  | false =>
    change (anchorsFor config e (propertyBlock false e) >>= fun x =>
      .ok ((propertyBlock false e).addAnchors x.1 x.2)) = _
    rw [ha]
    exact congrArg Except.ok hadd

/-- The block of a widget that was read says all that the widget has. -/
theorem ReadFrom.isCoveredBy {ls : List OwnLine} (h : e.ReadFrom lines ls)
    (hs : ∀ k ∈ lines, k.content.IsSound) (isRoot : Bool) :
    e.IsCoveredBy (propertyBlock isRoot e) where
  sized := by
    rcases h.has.sized with hf | ⟨l, hl, hkey⟩
    · simp [hf]
    · have hstored : Key.stored l.key = "size" := by rw [hkey]; decide
      have hmem := h.spelling_mem_keys hs isRoot hl (by rw [hstored]; decide)
      have hspelling : Key.spelling "size" = "size" := by decide
      rw [hstored, hspelling] at hmem
      have hsized : saysSize (propertyBlock isRoot e) = true := by simp [saysSize, hmem]
      simp [hsized]
  placement := h.placement
  anchors a ha := by
    obtain ⟨l, hl, hla, ha⟩ := h.has.anchors a ha
    have hstored := Key.stored_of_isAnchor hla
    have hid : Key.stored l.key ≠ "id" := by
      rw [hstored]
      rintro he
      rw [he] at hla
      revert hla
      decide
    have hmem := h.spelling_mem_keys hs isRoot hl hid
    rw [hstored, Key.spelling_of_isAnchor hla] at hmem
    rw [Block.has, ha, Key.spelling_of_isAnchor (Key.isAnchor_anchorSpelling _),
      Key.anchorSpelling_anchorSpelling]
    simpa using hmem
  margins edge hedge := by
    obtain ⟨l, hl, hle⟩ := h.has.margins edge hedge
    obtain ⟨hkey, hstored⟩ := Key.eq_of_marginEdge? hle
    have hid : Key.stored l.key ≠ "id" := by
      rw [hstored, hkey]
      intro he
      have := congrArg String.toList he
      rw [String.toList_append] at this
      cases this
    have hmem := h.spelling_mem_keys hs isRoot hl hid
    rw [hstored, hkey] at hmem
    simpa [Block.has] using hmem

end Element

end Otui
