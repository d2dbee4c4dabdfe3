import Otui.Proofs.Recording

/-!
# What storing property lines does to a widget

Storing property lines changes the properties of a widget and the views that go with them: the id,
the anchors, the margins and whether there is a size. The properties are those that
`Properties.recordAll` gives (`properties_storeAll`), and what else there is comes from lines that
count: `has_storeAll` for anchors, margins and size, `id_storeAll` for the id.
-/

namespace Otui

variable {α : Type}

namespace OwnLine

/-- The number of the line. -/
def number (l : OwnLine) : Nat := l.2.2.2

end OwnLine

namespace Element

open OwnLine

/-! ### One line -/

/-- The widget after a line. -/
def storeLine (e : Element α) (l : OwnLine) : Element α :=
  (e.store l.key l.value l.raw l.number).1

/-- Storing lines is storing them one after the other. -/
theorem storeAll_eq_foldl (e : Element α) (ls : List OwnLine) :
    (e.storeAll ls).1 = ls.foldl storeLine e :=
  (List.foldl_hom Prod.fst fun _ _ => rfl).symm

theorem storeAll_cons (e : Element α) (l : OwnLine) (ls : List OwnLine) :
    (e.storeAll (l :: ls)).1 = ((e.storeLine l).storeAll ls).1 := by
  rw [storeAll_eq_foldl, storeAll_eq_foldl, List.foldl_cons]

/-- A line changes nothing but the properties and what goes with them. -/
theorem storeLine_eq (e : Element α) (l : OwnLine) :
    ∃ id anchors margins sized, e.storeLine l
      = { e with properties := e.properties.after l, id, anchors, margins, sized } := by
  unfold storeLine store Properties.after
  rw [show (⟨l.key, l.raw, l.number⟩ : PropertyLine) = l.entry from rfl]
  cases e.properties.record? l.value l.entry with
  | none => exact ⟨e.id, e.anchors, e.margins, e.sized, rfl⟩
  | some p =>
    dsimp only
    repeat' split
    all_goals exact ⟨_, _, _, _, rfl⟩

/-- A line that does not count changes nothing. -/
theorem storeLine_of_not_admits {e : Element α} {l : OwnLine} (h : ¬ e.properties.Admits l.key) :
    e.storeLine l = e := by
  have hn : e.properties.record? l.value ⟨l.key, l.raw, l.number⟩ = none :=
    Properties.record?_eq_none h
  rw [storeLine, store, hn]

/-! ### All lines -/

/-- Lines change nothing but the properties and what goes with them. -/
theorem storeAll_eq (e : Element α) (ls : List OwnLine) :
    ∃ id anchors margins sized, (e.storeAll ls).1
      = { e with properties := e.properties.recordAll ls, id, anchors, margins, sized } := by
  induction ls generalizing e with
  | nil => exact ⟨e.id, e.anchors, e.margins, e.sized, rfl⟩
  | cons l ls ih =>
    rw [storeAll_cons]
    obtain ⟨id, anchors, margins, sized, h⟩ := storeLine_eq e l
    obtain ⟨id', anchors', margins', sized', h'⟩ := ih (e.storeLine l)
    refine ⟨id', anchors', margins', sized', h'.trans ?_⟩
    rw [h, Properties.recordAll_cons]

theorem properties_storeAll (e : Element α) (ls : List OwnLine) :
    (e.storeAll ls).1.properties = e.properties.recordAll ls := by
  obtain ⟨_, _, _, _, h⟩ := storeAll_eq e ls
  rw [h]

/-- What a widget has from lines besides its properties and its id. -/
structure Has (ls : List OwnLine) (e : Element α) : Prop where
  /-- A size is given by a line. -/
  sized : e.sized = some false ∨ ∃ l ∈ ls, l.key = "size"
  /-- Anchors are given by lines. -/
  anchors : ∀ a ∈ e.anchors.getD [],
    ∃ l ∈ ls, Key.isAnchor l.key = true ∧ a.1 = Key.anchorSpelling l.key
  /-- Margins are given by lines. -/
  margins : ∀ k ∈ (e.margins.getD {}).keys, ∃ l ∈ ls, Key.marginEdge? l.key = some k

theorem Has.mono {ls ks : List OwnLine} {e : Element α} (h : e.Has ls) (hs : ls ⊆ ks) :
    e.Has ks where
  sized := h.sized.imp_right fun ⟨l, hl, h⟩ => ⟨l, hs hl, h⟩
  anchors a ha := by
    obtain ⟨l, hl, h⟩ := h.anchors a ha
    exact ⟨l, hs hl, h⟩
  margins k hk := by
    obtain ⟨l, hl, h⟩ := h.margins k hk
    exact ⟨l, hs hl, h⟩

/-- A line that counts gives at most one of these views something. -/
theorem has_storeLine {e : Element α} {ls : List OwnLine} {l : OwnLine} (h : e.Has ls) :
    (e.storeLine l).Has (ls ++ [l]) := by
  have h' : e.Has (ls ++ [l]) := h.mono (List.subset_append_left _ _)
  have hl : l ∈ ls ++ [l] := by simp
  unfold storeLine store
  cases e.properties.record? l.value ⟨l.key, l.raw, l.number⟩ with
  | none => exact h'
  | some p =>
    dsimp only
    split
    · split
      · next hsize =>
        simp only [Bool.and_eq_true, beq_iff_eq] at hsize
        exact ⟨.inr ⟨l, hl, hsize.1⟩, h'.anchors, h'.margins⟩
      · exact ⟨h'.sized, h'.anchors, h'.margins⟩
    · split
      · exact ⟨h'.sized, h'.anchors, h'.margins⟩
      · split
        · next hanchor =>
          refine ⟨h'.sized, fun a ha => ?_, h'.margins⟩
          rcases List.mem_append.1 ha with ha | ha
          · exact h'.anchors a ha
          · rw [List.mem_singleton.1 ha]
            exact ⟨l, hl, hanchor, rfl⟩
        · split
          · exact ⟨h'.sized, h'.anchors, h'.margins⟩
          · next edge hedge =>
            split
            · refine ⟨h'.sized, h'.anchors, fun k hk => ?_⟩
              rw [Option.getD_some, Ledger.keys_insert] at hk
              by_cases he : k = edge
              · exact ⟨l, hl, he ▸ hedge⟩
              · refine h'.margins k ?_
                split at hk
                · exact hk
                · simpa [he] using hk
            · exact ⟨h'.sized, h'.anchors, h'.margins⟩

/-- What a widget has comes from lines that count. -/
theorem has_storeAll {e : Element α} {done : List OwnLine} (h : e.Has done) (ls : List OwnLine) :
    (e.storeAll ls).1.Has (done ++ e.properties.counted ls) := by
  induction ls generalizing e done with
  | nil => simpa [Properties.counted, storeAll] using h
  | cons l ls ih =>
    rw [storeAll_cons]
    by_cases hadm : e.properties.Admits l.key
    · rw [Properties.counted_cons_of_admits hadm]
      obtain ⟨_, _, _, _, he⟩ := storeLine_eq e l
      have hp : (e.storeLine l).properties = e.properties.after l := by rw [he]
      simpa [hp] using ih (has_storeLine (l := l) h)
    · rw [Properties.counted_cons_of_not_admits hadm, storeLine_of_not_admits hadm]
      exact ih h

/-! ### The id -/

/-- A line that is not for the id leaves it. -/
theorem id_storeLine {e : Element α} {l : OwnLine} (h : l.key ≠ "id") :
    (e.storeLine l).id = e.id := by
  have hid : (l.key == "id") = false := by simpa using h
  unfold storeLine store
  cases e.properties.record? l.value ⟨l.key, l.raw, l.number⟩ with
  | none => rfl
  | some p =>
    dsimp only
    rw [hid]
    repeat' split
    all_goals first | rfl | contradiction

/-- The line for the id gives the id when it counts. -/
theorem id_storeLine_of_admits {e : Element α} {l : OwnLine} (h : l.key = "id")
    (hadm : e.properties.Admits l.key) : (e.storeLine l).id = some l.value := by
  obtain ⟨q, hq, -, -⟩ := Properties.record?_of_admits hadm
  have hq' : e.properties.record? l.value ⟨l.key, l.raw, l.number⟩ = some q := hq
  have hplain : Key.parts? "id" = none := by decide
  simp only [storeLine, store, hq']
  simp [hplain, h]

/-- An id comes from a line that counts, if it was not there before. -/
theorem id_storeAll (e : Element α) (ls : List OwnLine) :
    (e.storeAll ls).1.id = e.id
      ∨ ∃ l ∈ e.properties.counted ls, l.key = "id" ∧ (e.storeAll ls).1.id = some l.value := by
  induction ls generalizing e with
  | nil => exact .inl rfl
  | cons l ls ih =>
    rw [storeAll_cons]
    by_cases hadm : e.properties.Admits l.key
    · rw [Properties.counted_cons_of_admits hadm]
      obtain ⟨_, _, _, _, he⟩ := storeLine_eq e l
      have hp : (e.storeLine l).properties = e.properties.after l := by rw [he]
      rcases ih (e.storeLine l) with h | ⟨m, hm, h⟩
      · by_cases hid : l.key = "id"
        · exact .inr ⟨l, by simp, hid, by rw [h, id_storeLine_of_admits hid hadm]⟩
        · exact .inl (by rw [h, id_storeLine hid])
      · exact .inr ⟨m, List.mem_cons_of_mem _ (by rwa [hp] at hm), h⟩
    · rw [Properties.counted_cons_of_not_admits hadm, storeLine_of_not_admits hadm]
      exact ih e

/-- Lines of which none that counts is for the id leave it. -/
theorem id_storeAll_of_not_mem {e : Element α} {ls : List OwnLine}
    (h : ∀ l ∈ e.properties.counted ls, l.key ≠ "id") : (e.storeAll ls).1.id = e.id := by
  rcases id_storeAll e ls with he | ⟨l, hl, hid, -⟩
  · exact he
  · exact absurd hid (h l hl)

/-- An id that comes first is the id. -/
theorem id_storeAll_cons {e : Element α} {l : OwnLine} (hl : l.key = "id")
    (he : e.properties.values.keys = []) (ls : List OwnLine) :
    (e.storeAll (l :: ls)).1.id = some l.value := by
  have htaken : Key.taken l.key = ["id"] := by rw [hl]; decide
  have hadm : e.properties.Admits l.key := by
    intro k hk
    rw [htaken, List.mem_singleton] at hk
    rw [hk, he]
    exact ⟨by decide, List.not_mem_nil⟩
  obtain ⟨_, _, _, _, hline⟩ := storeLine_eq e l
  have hkeys : "id" ∈ (e.storeLine l).properties.values.keys := by
    have hpairs : l.pairs.map Prod.fst = ["id"] := by
      rw [pairs_of_none (by rw [hl]; decide), hl]
      simp [show Key.stored "id" = "id" by decide]
    rw [hline, Properties.keys_after hadm, hpairs]
    simp
  rw [storeAll_cons, ← id_storeLine_of_admits hl hadm]
  refine id_storeAll_of_not_mem fun m hm hmid => ?_
  exact (Properties.unblocked_counted _ ls).2 m hm "id" (by rw [hmid]; decide) hkeys

end Element

end Otui
