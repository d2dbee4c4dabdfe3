import Otui.Proofs.StoredBlocks
import Otui.Template.Expansion

/-!
# Blocks that can be read

Whatever lines of a text store can be written on lines of a text again (`ReadFrom.isLegible`), and
so can what two such widgets store together (`IsLegible.overlay`). The block of a widget with a name
and properties of this kind can be read, also when its stored properties are written in place of
lines: `Element.isWidgetBlock`. It need not be read back as what it was written for.
-/

namespace Otui

open Otui.Text Otui.Document

variable {α : Type} {lines : List Line}

/-! ### Properties -/

theorem Key.isKey_stored {key : String} (h : IsKey key) (hne : stored key ≠ "") :
    IsKey (stored key) := by
  refine ⟨hne, fun c hc => h.2 c ?_⟩
  rcases eq_stored_or key with he | he
  · rwa [he]
  · rw [he, String.toList_append]
    exact List.mem_append_right _ hc

/-- What a line of a text stores can be written. -/
theorem OwnLine.legible_of_mem_pairs {l : OwnLine} (hl : l.IsSound) (hne : Key.stored l.key ≠ "")
    {p : String × String} (hp : p ∈ l.pairs) : IsKey p.1 ∧ OnOneLine p.2 := by
  cases hparts : Key.parts? l.key with
  | none =>
    rw [pairs_of_none hparts, List.mem_singleton] at hp
    subst hp
    exact ⟨Key.isKey_stored hl.isKey hne, hl.onOneLine_value⟩
  | some ab =>
    obtain ⟨first, second⟩ := ab
    have hword : ∀ w ∈ words l.value, OnOneLine w := by
      intro w hw hline
      obtain ⟨cs, hcs, rfl⟩ := List.mem_map.1 hw
      rw [String.toList_ofList] at hline
      have := (mem_wordsChars hcs).2 _ hline
      revert this
      decide
    have hkeys : IsKey first ∧ IsKey second := by
      rcases Key.parts?_eq_some hparts with ⟨-, rfl, rfl⟩ | ⟨-, rfl, rfl⟩ <;>
        exact ⟨isKey_of_all (by decide), isKey_of_all (by decide)⟩
    simp only [pairs, hparts] at hp
    split at hp
    · next a b rest hwords =>
      rw [hwords] at hword
      rcases List.mem_cons.1 hp with rfl | hp
      · exact ⟨hkeys.1, hword a (by simp)⟩
      · rw [List.mem_singleton.1 hp]
        exact ⟨hkeys.2, hword b (by simp)⟩
    · cases hp

namespace Properties

/-- A key as written that lines store is the stored key with the mark. -/
theorem written_recordAll {ls : List OwnLine} (hkeys : ∀ l ∈ ls, IsKey l.key) {p : Properties}
    (hp : ∀ k w, p.written.get? k = some w → IsKey w ∧ Key.isMarked w = true ∧ Key.stored w = k) :
    ∀ k w, (p.recordAll ls).written.get? k = some w →
      IsKey w ∧ Key.isMarked w = true ∧ Key.stored w = k := by
  induction ls generalizing p with
  | nil => exact hp
  | cons l ls ih =>
    obtain ⟨hl, hls⟩ := List.forall_mem_cons.1 hkeys
    rw [recordAll_cons]
    refine ih hls fun k w hw => ?_
    rw [after, record?, OwnLine.entry_key] at hw
    split at hw
    · rw [recordCompound?] at hw
      split at hw <;> exact hp k w hw
    · rw [recordPlain?, OwnLine.entry_key] at hw
      split at hw
      · exact hp k w hw
      · rw [Option.getD_some] at hw
        dsimp only at hw
        split at hw
        · next hmark =>
          rw [Ledger.get?_insert] at hw
          split at hw
          · next hkey =>
            rw [← Option.some.inj hw]
            exact ⟨hl, hmark, hkey⟩
          · exact hp k w hw
        · exact hp k w hw

/-- **Legible properties**: what lines of a text store can be written. -/
theorem ReadFrom.isLegible {p : Properties} {ls : List OwnLine} (h : p.ReadFrom lines ls)
    (hs : ∀ k ∈ lines, k.content.IsSound) : p.IsLegible := by
  have hsound := h.isSound hs
  refine ⟨fun l hl => ?_, fun k v hv => ?_, ?_⟩
  · rw [h.lines_eq] at hl
    obtain ⟨m, hm, rfl⟩ := List.mem_map.1 hl
    obtain ⟨hkey, hraw, -⟩ := hsound m hm
    exact ⟨hkey, hraw⟩
  · rw [Ledger.get?_eq_some_iff, h.entries_eq] at hv
    obtain ⟨l, hl, hp⟩ := List.mem_flatMap.1 hv
    exact OwnLine.legible_of_mem_pairs (hsound l hl) (h.unblocked.stored_ne_empty hl) hp
  · rw [h.stored]
    refine written_recordAll (fun l hl => (hsound l hl).isKey) fun k w hw => ?_
    cases hw

namespace IsLegible

variable {p q : Properties}

/-- The properties of a template below those of an instance. -/
theorem overlay (hp : p.IsLegible) (hq : q.IsLegible) :
    IsLegible { q with
      values := p.values.overlay q.values
      written := p.written.overlay q.written } where
  lines := hq.lines
  values k v hv := by
    rw [Ledger.get?_overlay, Option.or_eq_some_iff] at hv
    exact hv.elim (hq.values k v) fun h => hp.values k v h.2
  written k w hw := by
    rw [Ledger.get?_overlay, Option.or_eq_some_iff] at hw
    exact hw.elim (hq.written k w) fun h => hp.written k w h.2

/-- Some of the lines and of the stored properties. -/
theorem filter (hp : p.IsLegible) (keep : PropertyLine → Bool) (key : String) :
    IsLegible { p with lines := p.lines.filter keep, values := p.values.erase key } where
  lines l hl := hp.lines l (List.mem_filter.1 hl).1
  values k v hv := by
    refine hp.values k v (Ledger.get?_eq_some_iff.2 ?_)
    exact (List.mem_filter.1 (Ledger.get?_eq_some_iff.1 hv)).1
  written := hp.written

end IsLegible

end Properties

/-! ### Blocks -/

/-- Lines of a block that can be read, none of them a header. -/
def AreProperties (ss : List Said) : Prop := ∀ s ∈ ss, s.IsProperty ∧ s.IsReadable

namespace Document.Block

theorem areProperties_add {b : Block} (h : AreProperties b.lines) {key written value : String}
    (hkey : IsKey written) (hvalue : OnOneLine value) :
    AreProperties (b.add key written value).lines := by
  intro s hs
  rcases List.mem_append.1 hs with hs | hs
  · exact h s hs
  · rw [List.mem_singleton.1 hs]
    exact ⟨trivial, hkey, hvalue⟩

theorem areProperties_addLine {b : Block} (h : AreProperties b.lines) {l : PropertyLine}
    (hl : IsKey l.key ∧ OnOneLine l.value) : AreProperties (b.addLine l).lines := by
  rw [addLine]
  split
  · exact h
  · rw [addNew]
    split
    · exact h
    · exact areProperties_add h hl.1 (onOneLine_writtenValue hl.2 _)

theorem areProperties_addStored {p : Properties} (hp : p.IsLegible) {b : Block}
    (h : AreProperties b.lines) {e : String × String} (he : e ∈ p.values.entries) :
    AreProperties (addStored p.values p.written b e.1 e.2).lines := by
  obtain ⟨hkey, hvalue⟩ := hp.values e.1 e.2 (Ledger.get?_of_mem he)
  rw [addStored]
  split
  · exact h
  · split
    · next compound value hcompound =>
      obtain ⟨first, second, a, c, hparts, -, ha, hc, -, -, rfl⟩ :=
        compoundLine?_eq_some.1 hcompound
      have hline : OnOneLine (a ++ " " ++ c) := by
        have hla := (hp.values _ _ ha).2
        have hlc := (hp.values _ _ hc).2
        unfold OnOneLine at hla hlc ⊢
        simp [hla, hlc]
      refine areProperties_add h ?_ hline
      rcases Key.parts?_eq_some hparts with ⟨rfl, -⟩ | ⟨rfl, -⟩ <;> exact isKey_of_all (by decide)
    · refine areProperties_add h ?_ (onOneLine_writtenValue hvalue _)
      cases hw : p.written.get? e.1 with
      | none => exact hkey
      | some w => exact (hp.written _ w hw).1

/-- The lines that are written for legible properties can be read. -/
theorem areProperties_addLines {ls : List PropertyLine} {b : Block} (h : AreProperties b.lines)
    (hls : ∀ l ∈ ls, IsKey l.key ∧ OnOneLine l.value) : AreProperties (b.addLines ls).lines :=
  List.foldlRecOn (motive := fun b : Block => AreProperties b.lines) ls addLine h
    fun _ hb l hl => areProperties_addLine hb (hls l hl)

theorem areProperties_addValues {p : Properties} (hp : p.IsLegible) {b : Block}
    (h : AreProperties b.lines) : AreProperties (b.addValues p.values p.written).lines :=
  List.foldlRecOn (motive := fun b : Block => AreProperties b.lines) p.values.entries _ h
    fun _ hb _ he => areProperties_addStored hp hb he

end Document.Block

/-! ### Widgets and templates -/

/-- The property lines of a widget with legible properties can be read. -/
theorem Element.areProperties_bodyBlock {e : Element α} (h : e.properties.IsLegible) :
    AreProperties e.bodyBlock.lines := by
  have hnil : AreProperties ({} : Block).lines := by simp [AreProperties]
  rw [bodyBlock]
  split
  · exact Block.areProperties_addValues (h.filter (fun _ => true) "id") hnil
  · exact Block.areProperties_addLines hnil fun l hl => h.lines l (List.mem_filter.1 hl).1

theorem isBlock_of_areProperties {name : String} {base : Option String} {ss : List Said}
    (hname : IsWidgetName name) (hbase : ∀ b ∈ base, isTypeName b.toList = true)
    (h : AreProperties ss) : IsBlock (.header name base :: ss) := by
  refine ⟨⟨name, base, ss, rfl, fun s hs => (h s hs).1⟩, fun s hs => ?_⟩
  rcases List.mem_cons.1 hs with rfl | hs
  · exact ⟨hname, hbase⟩
  · exact (h s hs).2

/-- **Widgets**: the block of a widget with a name, an id and legible properties can be read. -/
theorem Element.isWidgetBlock {e : Element α} {name : String}
    (hheader : header e = .header name none) (hname : IsWidgetName name)
    (hid : OnOneLine (textOrEmpty e.id))
    (h : e.properties.IsLegible) (isRoot : Bool) : IsWidgetBlock (e.said isRoot) := by
  have hprops : AreProperties
      ((if writesId isRoot e then [.id (textOrEmpty e.id)] else []) ++ e.bodyBlock.lines) := by
    intro s hs
    rcases List.mem_append.1 hs with hs | hs
    · split at hs
      · rw [List.mem_singleton.1 hs]
        exact ⟨trivial, hid⟩
      · cases hs
    · exact areProperties_bodyBlock h s hs
  rw [said_eq_cons, hheader]
  exact ⟨isBlock_of_areProperties hname (by simp) hprops, name, _, rfl⟩

/-- **Templates**: the block of a template with a name, a base and legible properties can be read.
-/
theorem Template.isBlock {t : Template α} (hname : IsWidgetName t.name)
    (hbase : isTypeName t.base.toList = true) (h : t.properties.IsLegible) :
    IsBlock t.said ∧ ∃ props, t.said = .header t.name (some t.base) :: props := by
  have hnil : AreProperties ({} : Block).lines := by simp [AreProperties]
  have hbody : AreProperties t.bodyBlock.lines := by
    rw [bodyBlock]
    split
    · exact Block.areProperties_addValues h hnil
    · exact Block.areProperties_addLines hnil h.lines
  rw [said_eq_cons]
  exact ⟨isBlock_of_areProperties hname (by simpa using hbase) hbody, _, rfl⟩

end Otui
