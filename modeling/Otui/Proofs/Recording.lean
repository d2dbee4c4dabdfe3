import Otui.Document.Reader

/-!
# Which property lines count

Of the property lines of an opening the first for each key counts and the others are dropped. This
module says what is left: `counted` are the lines that count, they are `Unblocked`, and the
properties that reading gives have exactly these lines and what these lines store, in order
(`lines_recordAll`, `entries_recordAll`).
-/

namespace Otui

/-! ### Writing a new name -/

namespace Ledger

variable {ν : Type}

theorem writeIn_of_not_mem {key : String} {value : ν} {es : List (String × ν)}
    (h : key ∉ es.map Prod.fst) : writeIn key value es = es ++ [(key, value)] := by
  induction es with
  | nil => rfl
  | cons e es ih =>
    obtain ⟨k, v⟩ := e
    simp only [List.map_cons, List.mem_cons, not_or] at h
    rw [writeIn, if_neg (fun he => h.1 he.symm), ih h.2, List.cons_append]

/-- A new name comes last. -/
theorem entries_insert_of_not_mem {m : Ledger ν} {key : String} (h : key ∉ m.keys) (value : ν) :
    (m.insert key value).entries = m.entries ++ [(key, value)] :=
  writeIn_of_not_mem h

theorem keys_eq (m : Ledger ν) : m.keys = m.entries.map Prod.fst := rfl

theorem mem_keys_insert {m : Ledger ν} {key : String} {value : ν} {k : String} :
    k ∈ (m.insert key value).keys ↔ k ∈ m.keys ∨ k = key := by
  rw [keys_insert]
  split
  · next hmem => exact ⟨.inl, fun h => h.elim id fun he => he ▸ hmem⟩
  · rw [List.mem_append, List.mem_singleton]

/-! ### Looking up -/

theorem mem_keys {m : Ledger ν} {e : String × ν} (h : e ∈ m.entries) : e.1 ∈ m.keys :=
  List.mem_map.2 ⟨e, h, rfl⟩

theorem mem_of_get? {m : Ledger ν} {key : String} {value : ν}
    (h : m.get? key = some value) : (key, value) ∈ m.entries := by
  have hlook : ∀ es : List (String × ν), lookIn es key = some value → (key, value) ∈ es := by
    intro es hes
    induction es with
    | nil => cases hes
    | cons e es ih =>
      rw [lookIn] at hes
      split at hes
      · next hk =>
        cases hes
        rw [← hk]
        exact List.mem_cons_self
      · exact List.mem_cons_of_mem _ (ih hes)
  exact hlook _ h

theorem get?_of_mem {m : Ledger ν} {key : String} {value : ν}
    (h : (key, value) ∈ m.entries) : m.get? key = some value := by
  have hall : ∀ es : List (String × ν), (es.map Prod.fst).Nodup → (key, value) ∈ es →
      lookIn es key = some value := by
    intro es
    induction es with
    | nil => intro _ hmem; cases hmem
    | cons e es ih =>
      intro hnodup hmem
      rw [List.map_cons, List.nodup_cons] at hnodup
      rw [lookIn]
      rcases List.mem_cons.1 hmem with rfl | hmem
      · rw [if_pos rfl]
      · have hne : e.1 ≠ key := by
          rintro rfl
          exact hnodup.1 (List.mem_map.2 ⟨_, hmem, rfl⟩)
        rw [if_neg hne, ih hnodup.2 hmem]
  exact hall m.entries m.nodup h

/-- A name has the value that stands with it. -/
theorem get?_eq_some_iff {m : Ledger ν} {key : String} {value : ν} :
    m.get? key = some value ↔ (key, value) ∈ m.entries :=
  ⟨mem_of_get?, get?_of_mem⟩

/-- A name stands once. -/
theorem eq_of_mem {m : Ledger ν} {e f : String × ν} (he : e ∈ m.entries) (hf : f ∈ m.entries)
    (h : e.1 = f.1) : e = f := by
  have hvalue := get?_of_mem he
  rw [h, get?_of_mem hf, Option.some.injEq] at hvalue
  exact Prod.ext h hvalue.symm

theorem get?_of_not_mem {m : Ledger ν} {key : String} (h : key ∉ m.keys) :
    m.get? key = none := by
  rwa [← isSome_get?_iff, Bool.not_eq_true, Option.isSome_eq_false_iff,
    Option.isNone_iff_eq_none] at h

/-- The values do not depend on the order of the names. -/
theorem get?_of_perm {m m' : Ledger ν} (h : m.entries.Perm m'.entries) (key : String) :
    m.get? key = m'.get? key := by
  ext value
  rw [get?_eq_some_iff, get?_eq_some_iff, h.mem_iff]

/-- Entries with distinct names are written as they are. -/
theorem entries_ofList {es : List (String × ν)}
    (h : (es.map Prod.fst).Nodup) : (Ledger.ofList es).entries = es := by
  have hall : ∀ (es : List (String × ν)) (m : Ledger ν), (es.map Prod.fst).Nodup →
      (∀ k ∈ es.map Prod.fst, k ∉ m.keys) → (m.insertAll es).entries = m.entries ++ es := by
    intro es
    induction es with
    | nil => exact fun m _ _ => (List.append_nil _).symm
    | cons e es ih =>
      intro m hnodup hnew
      rw [List.map_cons, List.nodup_cons] at hnodup
      have he : e.1 ∉ m.keys := hnew e.1 (by simp)
      have hentries := Ledger.entries_insert_of_not_mem he e.2
      have hrest : ∀ k ∈ es.map Prod.fst, k ∉ (m.insert e.1 e.2).keys := by
        intro k hk
        rw [Ledger.keys_insert, if_neg he, List.mem_append, List.mem_singleton, not_or]
        exact ⟨hnew k (List.mem_cons_of_mem _ hk), fun hke => hnodup.1 (hke ▸ hk)⟩
      have hcons : m.insertAll (e :: es) = (m.insert e.1 e.2).insertAll es := rfl
      rw [hcons, ih _ hnodup.2 hrest, hentries, List.append_assoc]
      rfl
  exact hall es .empty h (by simp)

/-! ### One map over another -/

theorem mem_keys_insertAll {m : Ledger ν} {es : List (String × ν)} {key : String} :
    key ∈ (m.insertAll es).keys ↔ key ∈ m.keys ∨ key ∈ es.map Prod.fst := by
  induction es generalizing m with
  | nil => simp [insertAll]
  | cons e es ih =>
    have hcons : m.insertAll (e :: es) = (m.insert e.1 e.2).insertAll es := rfl
    rw [hcons, ih, mem_keys_insert, List.map_cons, List.mem_cons, or_assoc]

/-- One map over another has the names of both. -/
theorem mem_keys_overlay {base top : Ledger ν} {key : String} :
    key ∈ (base.overlay top).keys ↔ key ∈ base.keys ∨ key ∈ top.keys :=
  mem_keys_insertAll

theorem get?_insertAll {m : Ledger ν} {es : List (String × ν)} (h : (es.map Prod.fst).Nodup)
    (key : String) : (m.insertAll es).get? key = (lookIn es key).or (m.get? key) := by
  induction es generalizing m with
  | nil => rfl
  | cons e es ih =>
    rw [List.map_cons, List.nodup_cons] at h
    have hcons : m.insertAll (e :: es) = (m.insert e.1 e.2).insertAll es := rfl
    rw [hcons, ih h.2, get?_insert, lookIn]
    by_cases hkey : e.1 = key
    · have hnone : lookIn es key = none := by
        rw [← Option.not_isSome_iff_eq_none, lookIn_isSome, ← hkey]
        exact h.1
      rw [if_pos hkey, if_pos hkey, hnone, Option.none_or, Option.some_or]
    · rw [if_neg hkey, if_neg hkey]

/-- In one map over another the values of the one on top win. -/
theorem get?_overlay (base top : Ledger ν) (key : String) :
    (base.overlay top).get? key = (top.get? key).or (base.get? key) :=
  get?_insertAll top.nodup key

theorem overlay_of_entries_eq_nil {base top : Ledger ν} (h : top.entries = []) :
    base.overlay top = base := by
  rw [overlay, h]
  rfl

end Ledger

/-! ### What a key stands for -/

namespace Key

/-- The stored keys that a key as written stands for. -/
def taken (key : String) : List String :=
  match parts? key with
  | some (first, second) => [first, second]
  | none => [stored key]

/-- The keys that stand for two stored keys are the two of the table. -/
theorem parts?_eq_some {key first second : String} (h : parts? key = some (first, second)) :
    key = "size" ∧ first = "width" ∧ second = "height"
      ∨ key = "text-offset" ∧ first = "text-offset-x" ∧ second = "text-offset-y" := by
  simp only [parts?, compounds, List.find?_cons, List.find?_nil] at h
  split at h
  · next hk =>
    simp only [Option.map_some, Option.some.injEq, Prod.mk.injEq] at h
    exact .inl ⟨(beq_iff_eq.1 hk).symm, h.1.symm, h.2.symm⟩
  · split at h
    · next hk =>
      simp only [Option.map_some, Option.some.injEq, Prod.mk.injEq] at h
      exact .inr ⟨(beq_iff_eq.1 hk).symm, h.1.symm, h.2.symm⟩
    · cases h

theorem taken_of_none {key : String} (h : parts? key = none) : taken key = [stored key] := by
  rw [taken, h]

theorem taken_of_some {key first second : String} (h : parts? key = some (first, second)) :
    taken key = [first, second] := by
  rw [taken, h]

end Key

/-! ### One line -/

/-- A property line of an opening: its key, its value, its value as written, its number. -/
abbrev OwnLine := String × String × String × Nat

namespace OwnLine

/-- The key as written. -/
def key (l : OwnLine) : String := l.1

/-- The value, without quotes where they do not belong to it. -/
def value (l : OwnLine) : String := l.2.1

/-- The value as written. -/
def raw (l : OwnLine) : String := l.2.2.1

/-- The line as it is kept. -/
def entry (l : OwnLine) : PropertyLine := ⟨l.1, l.2.2.1, l.2.2.2⟩

@[simp] theorem entry_key (l : OwnLine) : l.entry.key = l.key := rfl

@[simp] theorem entry_value (l : OwnLine) : l.entry.value = l.raw := rfl

/-- What a line stores when it counts. -/
def pairs (l : OwnLine) : List (String × String) :=
  match Key.parts? l.key with
  | some (first, second) =>
    match Text.words l.value with
    | a :: b :: _ => [(first, a), (second, b)]
    | _ => []
  | none => [(Key.stored l.key, l.value)]

theorem pairs_of_none {l : OwnLine} (h : Key.parts? l.key = none) :
    l.pairs = [(Key.stored l.key, l.value)] := by
  rw [pairs, h]

theorem keys_pairs_subset (l : OwnLine) : l.pairs.map Prod.fst ⊆ Key.taken l.key := by
  unfold pairs Key.taken
  split
  · split <;> simp
  · simp

/-- A line with two parts stores under all the keys that it stands for. -/
theorem keys_pairs_of_words {l : OwnLine}
    (h : (Key.parts? l.key).isSome = true → 2 ≤ (Text.words l.value).length) :
    l.pairs.map Prod.fst = Key.taken l.key := by
  unfold pairs Key.taken
  split
  · next hp =>
    rw [hp] at h
    have hlen := h rfl
    split
    · rfl
    · next hw =>
      cases hws : Text.words l.value with
      | nil => rw [hws] at hlen; simp at hlen
      | cons a ws =>
        cases ws with
        | nil => rw [hws] at hlen; simp at hlen
        | cons b ws => exact absurd hws (hw a b ws)
  · rfl

end OwnLine

namespace Properties

/-- A key that a line may have to count: nothing is stored yet under what it stands for. -/
def Admits (p : Properties) (key : String) : Prop :=
  ∀ k ∈ Key.taken key, k ≠ "" ∧ k ∉ p.values.keys

instance (p : Properties) (key : String) : Decidable (p.Admits key) :=
  inferInstanceAs (Decidable (∀ k ∈ Key.taken key, k ≠ "" ∧ k ∉ p.values.keys))

theorem record?_eq_none {p : Properties} {l : OwnLine} (h : ¬ p.Admits l.key) :
    p.record? l.value l.entry = none := by
  unfold record?
  rw [OwnLine.entry_key]
  cases hp : Key.parts? l.key with
  | some ab =>
    obtain ⟨first, second⟩ := ab
    have hne : first ≠ "" ∧ second ≠ "" := by
      rcases Key.parts?_eq_some hp with ⟨-, rfl, rfl⟩ | ⟨-, rfl, rfl⟩ <;> decide
    simp only [Admits, Key.taken_of_some hp] at h
    simp only [recordCompound?, Bool.or_eq_true, Ledger.contains_iff, ite_eq_left_iff, not_or]
    rintro ⟨h1, h2⟩
    exact absurd (by simp [hne, h1, h2]) h
  | none =>
    simp only [Admits, Key.taken_of_none hp] at h
    simp only [recordPlain?, OwnLine.entry_key, Bool.or_eq_true, beq_iff_eq, Ledger.contains_iff,
      ite_eq_left_iff, not_or]
    rintro ⟨h1, h2⟩
    exact absurd (by simp [h1, h2]) h

/-- A line that counts is kept, and what it stores comes last. -/
theorem record?_of_admits {p : Properties} {l : OwnLine} (h : p.Admits l.key) :
    ∃ q, p.record? l.value l.entry = some q ∧ q.lines = p.lines ++ [l.entry]
      ∧ q.values.entries = p.values.entries ++ l.pairs := by
  unfold record?
  rw [OwnLine.entry_key]
  cases hp : Key.parts? l.key with
  | some ab =>
    obtain ⟨first, second⟩ := ab
    simp only [Admits, Key.taken_of_some hp, List.mem_cons, List.not_mem_nil, or_false,
      forall_eq_or_imp, forall_eq] at h
    have hne : first ≠ second := by
      rcases Key.parts?_eq_some hp with ⟨-, rfl, rfl⟩ | ⟨-, rfl, rfl⟩ <;> decide
    simp only [recordCompound?, Bool.or_eq_true, Ledger.contains_iff, h.1.2, h.2.2, or_self,
      if_false]
    refine ⟨_, rfl, rfl, ?_⟩
    simp only [OwnLine.pairs, hp]
    rcases Text.words l.value with _ | ⟨a, _ | ⟨b, rest⟩⟩
    · exact (List.append_nil _).symm
    · exact (List.append_nil _).symm
    · have hsecond : second ∉ (p.values.insert first a).keys := by
        rw [Ledger.keys_insert, if_neg h.1.2, List.mem_append, List.mem_singleton, not_or]
        exact ⟨h.2.2, hne.symm⟩
      dsimp only
      rw [Ledger.entries_insert_of_not_mem hsecond, Ledger.entries_insert_of_not_mem h.1.2]
      simp
  | none =>
    simp only [Admits, Key.taken_of_none hp, List.mem_singleton, forall_eq] at h
    simp only [recordPlain?, OwnLine.entry_key, Bool.or_eq_true, beq_iff_eq, Ledger.contains_iff,
      h.1, h.2, or_self, if_false]
    exact ⟨_, rfl, rfl, by rw [OwnLine.pairs_of_none hp, Ledger.entries_insert_of_not_mem h.2]⟩

/-! ### All lines -/

/-- The properties after a line. -/
def after (p : Properties) (l : OwnLine) : Properties := (p.record? l.value l.entry).getD p

theorem recordAll_cons (p : Properties) (l : OwnLine) (ls : List OwnLine) :
    p.recordAll (l :: ls) = (p.after l).recordAll ls := rfl

/-- The lines that count, of lines that come after what some properties have. -/
def counted (p : Properties) : List OwnLine → List OwnLine
  | [] => []
  | l :: ls => if p.Admits l.key then l :: counted (p.after l) ls else counted p ls

theorem counted_cons_of_admits {p : Properties} {l : OwnLine} (h : p.Admits l.key)
    (ls : List OwnLine) : p.counted (l :: ls) = l :: (p.after l).counted ls := by
  rw [counted, if_pos h]

theorem counted_cons_of_not_admits {p : Properties} {l : OwnLine} (h : ¬ p.Admits l.key)
    (ls : List OwnLine) : p.counted (l :: ls) = p.counted ls := by
  rw [counted, if_neg h]

theorem after_of_not_admits {p : Properties} {l : OwnLine} (h : ¬ p.Admits l.key) :
    p.after l = p := by
  rw [after, record?_eq_none h]
  rfl

theorem lines_after {p : Properties} {l : OwnLine} (h : p.Admits l.key) :
    (p.after l).lines = p.lines ++ [l.entry] := by
  obtain ⟨q, hq, hl, -⟩ := record?_of_admits h
  rw [after, hq, Option.getD_some, hl]

theorem entries_after {p : Properties} {l : OwnLine} (h : p.Admits l.key) :
    (p.after l).values.entries = p.values.entries ++ l.pairs := by
  obtain ⟨q, hq, -, he⟩ := record?_of_admits h
  rw [after, hq, Option.getD_some, he]

theorem keys_after {p : Properties} {l : OwnLine} (h : p.Admits l.key) :
    (p.after l).values.keys = p.values.keys ++ l.pairs.map Prod.fst := by
  rw [Ledger.keys_eq, entries_after h, List.map_append]
  rfl

theorem counted_sublist (p : Properties) (ls : List OwnLine) : (p.counted ls).Sublist ls := by
  induction ls generalizing p with
  | nil => exact List.Sublist.slnil
  | cons l ls ih =>
    by_cases h : p.Admits l.key
    · rw [counted_cons_of_admits h]
      exact (ih _).cons_cons l
    · rw [counted_cons_of_not_admits h]
      exact (ih p).cons l

/-- The lines of what is read are those that count. -/
theorem lines_recordAll (p : Properties) (ls : List OwnLine) :
    (p.recordAll ls).lines = p.lines ++ (p.counted ls).map OwnLine.entry := by
  induction ls generalizing p with
  | nil => exact (List.append_nil _).symm
  | cons l ls ih =>
    rw [recordAll_cons, ih]
    by_cases h : p.Admits l.key
    · rw [counted_cons_of_admits h, lines_after h]
      simp
    · rw [counted_cons_of_not_admits h, after_of_not_admits h]

/-- The values of what is read are those that the lines that count store. -/
theorem entries_recordAll (p : Properties) (ls : List OwnLine) :
    (p.recordAll ls).values.entries = p.values.entries ++ (p.counted ls).flatMap OwnLine.pairs := by
  induction ls generalizing p with
  | nil => exact (List.append_nil _).symm
  | cons l ls ih =>
    rw [recordAll_cons, ih]
    by_cases h : p.Admits l.key
    · rw [counted_cons_of_admits h, entries_after h]
      simp
    · rw [counted_cons_of_not_admits h, after_of_not_admits h]

end Properties

/-! ### Lines of which none is dropped -/

namespace OwnLine

/-- A later line is not blocked by an earlier one: the earlier stores nothing that it stands for. -/
def Passes (earlier later : OwnLine) : Prop :=
  ∀ k ∈ Key.taken later.key, k ∉ earlier.pairs.map Prod.fst

/-- No line of a list is dropped: each stands for keys, and no earlier line stores any of them. -/
structure Unblocked (ls : List OwnLine) : Prop where
  /-- No line has the empty key. -/
  named : ∀ l ∈ ls, ∀ k ∈ Key.taken l.key, k ≠ ""
  /-- No line is blocked by an earlier one. -/
  passes : ls.Pairwise Passes

end OwnLine

namespace Properties

open OwnLine

theorem unblocked_counted (p : Properties) (ls : List OwnLine) :
    Unblocked (p.counted ls)
      ∧ ∀ l ∈ p.counted ls, ∀ k ∈ Key.taken l.key, k ∉ p.values.keys := by
  induction ls generalizing p with
  | nil => exact ⟨⟨by simp [counted], .nil⟩, by simp [counted]⟩
  | cons l ls ih =>
    by_cases h : p.Admits l.key
    · obtain ⟨hu, hk⟩ := ih (p.after l)
      rw [counted_cons_of_admits h]
      rw [keys_after h] at hk
      simp only [List.mem_append, not_or] at hk
      refine ⟨⟨?_, ?_⟩, ?_⟩
      · rintro m hm k hkm
        rcases List.mem_cons.1 hm with rfl | hm
        · exact (h k hkm).1
        · exact hu.named m hm k hkm
      · exact List.pairwise_cons.2 ⟨fun m hm k hkm => (hk m hm k hkm).2, hu.passes⟩
      · rintro m hm k hkm
        rcases List.mem_cons.1 hm with rfl | hm
        · exact (h k hkm).2
        · exact (hk m hm k hkm).1
    · rw [counted_cons_of_not_admits h]
      exact ih p

/-- Lines of which none is dropped all count. -/
theorem counted_eq_self {p : Properties} {ls : List OwnLine} (h : Unblocked ls)
    (hp : ∀ l ∈ ls, ∀ k ∈ Key.taken l.key, k ∉ p.values.keys) : p.counted ls = ls := by
  induction ls generalizing p with
  | nil => rfl
  | cons l ls ih =>
    obtain ⟨hl, hls⟩ := List.pairwise_cons.1 h.passes
    have hadm : p.Admits l.key := fun k hk => ⟨h.named l (by simp) k hk, hp l (by simp) k hk⟩
    rw [counted_cons_of_admits hadm, ih ⟨fun m hm => h.named m (by simp [hm]), hls⟩]
    intro m hm k hk
    rw [keys_after hadm, List.mem_append, not_or]
    exact ⟨hp m (by simp [hm]) k hk, hl m hm k hk⟩

theorem counted_empty {ls : List OwnLine} (h : Unblocked ls) : counted {} ls = ls :=
  counted_eq_self h fun _ _ _ _ => List.not_mem_nil

/-- What is read from lines of which none is dropped has all of them. -/
theorem lines_of_unblocked {ls : List OwnLine} (h : Unblocked ls) :
    (recordAll {} ls).lines = ls.map OwnLine.entry := by
  rw [lines_recordAll, counted_empty h]
  rfl

theorem entries_of_unblocked {ls : List OwnLine} (h : Unblocked ls) :
    (recordAll {} ls).values.entries = ls.flatMap OwnLine.pairs := by
  rw [entries_recordAll, counted_empty h]
  rfl

end Properties

end Otui
