import Mathlib.Logic.Relation
import Otui.Proofs.Recording
import Otui.Style.Inheritance

/-!
# What a style inherits

Following the parents of a style gives the properties of the first styles of its `lineage`, the
nearest on top. How many they are depends on what was being followed: parents that come back to a
style are cut there, and what was found is kept with the cut. So what is kept is described by where
the lineage may stop (`Sums`), and not by a number that could be told from the sheet.

The main result is `resolved_overlays_lineage`. Where the parents of a style come to an end nothing
is cut (`Sums.whole`), and the other styles of the sheet do not matter.
-/

namespace Otui.Sheet

/-! ### Parents -/

/-- A style of the sheet and the name of its parent. -/
def Parent (sheet : Sheet) (a b : String) : Prop :=
  ∃ style, sheet.get? a = some style ∧ parent? style = some b

/-- From a name, the parents do not come back to where they were. -/
def IsAcyclicFrom (sheet : Sheet) (name : String) : Prop :=
  ∀ a, Relation.ReflTransGen sheet.Parent name a → ¬ Relation.TransGen sheet.Parent a a

/-- The first `n` of a style, its parent, the parent of that, as long as there is one. -/
def lineage (sheet : Sheet) : Nat → String → List (String × Style)
  | 0, _ => []
  | n + 1, name =>
    match sheet.get? name with
    | none => []
    | some style => (name, style) :: (parent? style).elim [] (sheet.lineage n)

/-- The properties of some styles, those of the first on top. -/
def overlaid : List (String × Style) → Ledger String
  | [] => {}
  | s :: rest => (overlaid rest).overlay s.2.properties

/-- The nearest style that says something about a key decides. -/
theorem get?_overlaid (styles : List (String × Style)) (key : String) :
    (overlaid styles).get? key = styles.findSome? fun s => s.2.properties.get? key := by
  induction styles with
  | nil => rfl
  | cons s rest ih =>
    rw [overlaid, Ledger.get?_overlay, ih, List.findSome?_cons]
    cases s.2.properties.get? key <;> rfl

variable {sheet other : Sheet} {style : Style} {name parent : String} {n : Nat}

theorem lineage_of_missing (h : sheet.get? name = none) : sheet.lineage n name = [] := by
  cases n with
  | zero => rfl
  | succ n => rw [lineage, h]

theorem lineage_of_orphan (h : sheet.get? name = some style) (hp : parent? style = none) :
    sheet.lineage (n + 1) name = [(name, style)] := by
  rw [lineage, h]
  simp only [hp, Option.elim_none]

theorem lineage_of_child (h : sheet.get? name = some style) (hp : parent? style = some parent) :
    sheet.lineage (n + 1) name = (name, style) :: sheet.lineage n parent := by
  rw [lineage, h]
  simp only [hp, Option.elim_some]

/-- A lineage has styles of the sheet. -/
theorem get?_of_mem_lineage {s : String × Style} (hs : s ∈ sheet.lineage n name) :
    sheet.get? s.1 = some s.2 := by
  induction n generalizing name with
  | zero => cases hs
  | succ n ih =>
    rw [lineage] at hs
    split at hs
    · cases hs
    · next style hget =>
      rcases List.mem_cons.1 hs with rfl | hs
      · exact hget
      · cases hp : parent? style with
        | none => rw [hp] at hs; cases hs
        | some parent => exact ih (by rwa [hp] at hs)

theorem Parent.eq {a b c : String} (hb : sheet.Parent a b) (hc : sheet.Parent a c) : b = c := by
  obtain ⟨s, hs, hb⟩ := hb
  obtain ⟨t, ht, hc⟩ := hc
  cases hs.symm.trans ht
  exact Option.some.inj (hb.symm.trans hc)

/-- The parents come back to where they were when those of the parent do. -/
theorem isAcyclicFrom_iff_of_parent (hp : sheet.Parent name parent) :
    sheet.IsAcyclicFrom name ↔ sheet.IsAcyclicFrom parent := by
  constructor
  · exact fun h a ha => h a (.head hp ha)
  · intro h a ha hcycle
    rcases ha.cases_head with rfl | ⟨b, hb, ha⟩
    · obtain ⟨b, hb, hback⟩ := Relation.TransGen.head'_iff.1 hcycle
      cases hb.eq hp
      exact h _ .refl (Relation.TransGen.tail' hback hp)
    · cases hb.eq hp
      exact h a ha hcycle

theorem isAcyclicFrom_of_orphan (h : ∀ b, ¬ sheet.Parent name b) : sheet.IsAcyclicFrom name := by
  intro a ha hcycle
  obtain ⟨b, hb, -⟩ := Relation.TransGen.head'_iff.1 hcycle
  rcases ha.cases_head with rfl | ⟨c, hc, -⟩
  · exact h b hb
  · exact h c hc

/-! ### What is kept of a style -/

/-- Properties that are those of the first `n` of a lineage, all of which have been found. -/
structure Sums (sheet : Sheet) (found : Found) (name : String) (properties : Ledger String)
    (n : Nat) : Prop where
  /-- There are that many. -/
  length : (sheet.lineage n name).length = n
  /-- None of them stands twice. -/
  nodup : ((sheet.lineage n name).map Prod.fst).Nodup
  /-- All of them have been found. -/
  found : ∀ s ∈ sheet.lineage n name, s.1 ∈ found.keys
  /-- They are all that there are, unless the parents come back. -/
  whole : sheet.IsAcyclicFrom name → ∀ m, sheet.lineage m name <+: sheet.lineage n name
  /-- The properties are theirs. -/
  sum : properties = overlaid (sheet.lineage n name)

/-- All that is kept is what a style inherits. -/
def IsSound (sheet : Sheet) (found : Found) : Prop :=
  ∀ a properties, found.get? a = some properties → ∃ n, 1 ≤ n ∧ sheet.Sums found a properties n

variable {found found' : Found} {properties : Ledger String}

theorem Sums.mono (h : sheet.Sums found name properties n) (hf : found.keys ⊆ found'.keys) :
    sheet.Sums found' name properties n :=
  { h with found := fun s hs => hf (h.found s hs) }

/-- No style of a name that there is not is inherited. -/
theorem sums_of_missing (h : sheet.get? name = none) : sheet.Sums found name {} 0 where
  length := rfl
  nodup := .nil
  found := by intro s hs; cases hs
  whole := by
    intro _ m
    rw [lineage_of_missing h]
    exact List.nil_prefix
  sum := rfl

/-- A style to which the parents come back may count as empty. -/
theorem sums_of_cycle (h : Relation.TransGen sheet.Parent name name) :
    sheet.Sums found name {} 0 where
  length := rfl
  nodup := .nil
  found := by intro s hs; cases hs
  whole := fun hacyclic => absurd h (hacyclic name .refl)
  sum := rfl

theorem sums_of_orphan (h : sheet.get? name = some style) (hp : parent? style = none) :
    sheet.Sums (record style name ({}, found)).2 name (record style name ({}, found)).1 1 where
  length := by rw [lineage_of_orphan h hp]; rfl
  nodup := by rw [lineage_of_orphan h hp]; simp
  found := by
    intro s hs
    rw [lineage_of_orphan h hp, List.mem_singleton] at hs
    exact Ledger.mem_keys_insert.2 (.inr (congrArg Prod.fst hs))
  whole := by
    intro _ m
    cases m with
    | zero => exact List.nil_prefix
    | succ m =>
      have hsame : sheet.lineage (m + 1) name = sheet.lineage 1 name :=
        (lineage_of_orphan h hp).trans (lineage_of_orphan h hp).symm
      exact hsame ▸ List.prefix_rfl
  sum := by rw [lineage_of_orphan h hp]; rfl

/-- A style sums up one more than its parent. -/
theorem Sums.child (h : sheet.get? name = some style) (hp : parent? style = some parent)
    (hnew : name ∉ found.keys) (hs : sheet.Sums found parent properties n) :
    sheet.Sums (record style name (properties, found)).2 name
      (record style name (properties, found)).1 (n + 1) where
  length := by rw [lineage_of_child h hp, List.length_cons, hs.length]
  nodup := by
    rw [lineage_of_child h hp, List.map_cons, List.nodup_cons]
    refine ⟨fun hmem => ?_, hs.nodup⟩
    obtain ⟨s, hmem, hname⟩ := List.mem_map.1 hmem
    have hname : s.1 = name := hname
    exact hnew (hname ▸ hs.found s hmem)
  found := by
    intro s hmem
    rw [lineage_of_child h hp] at hmem
    rcases List.mem_cons.1 hmem with rfl | hmem
    · exact Ledger.mem_keys_insert.2 (.inr rfl)
    · exact Ledger.mem_keys_insert.2 (.inl (hs.found s hmem))
  whole := by
    intro hacyclic m
    cases m with
    | zero => exact List.nil_prefix
    | succ m =>
      rw [lineage_of_child h hp, lineage_of_child h hp, List.prefix_cons_inj]
      exact hs.whole ((isAcyclicFrom_iff_of_parent ⟨style, h, hp⟩).1 hacyclic) m
  sum := by rw [lineage_of_child h hp, overlaid, ← hs.sum]; rfl

theorem isSound_empty (sheet : Sheet) : sheet.IsSound {} := by
  intro a properties h
  cases h

theorem IsSound.insert (h : sheet.IsSound found) (hn : 1 ≤ n)
    (hs : sheet.Sums (found.insert name properties) name properties n) :
    sheet.IsSound (found.insert name properties) := by
  intro a p ha
  rw [Ledger.get?_insert] at ha
  split at ha
  · next hname =>
    cases ha
    exact ⟨n, hn, hname ▸ hs⟩
  · obtain ⟨m, hm, hsums⟩ := h a p ha
    exact ⟨m, hm, hsums.mono fun b hb => Ledger.mem_keys_insert.2 (.inl hb)⟩

/-! ### Following one style -/

/-- What following a style gives, with what is kept afterwards. -/
structure Follows (sheet : Sheet) (free : List String) (name : String) (found : Found)
    (result : Ledger String × Found) : Prop where
  /-- The properties are those of the first of the lineage. -/
  sums : ∃ n, sheet.Sums result.2 name result.1 n
  /-- All that is kept is right. -/
  sound : sheet.IsSound result.2
  /-- What is new was free. -/
  new : ∀ a ∈ result.2.keys, a ∈ found.keys ∨ a ∈ free
  /-- A style that was free is kept. -/
  kept : name ∈ sheet.keys → name ∈ free → result.2.get? name = some result.1

theorem Follows.record {free : List String} {inherited : Ledger String × Found} (hn : 1 ≤ n)
    (hfree : name ∈ free) (hsound : sheet.IsSound inherited.2)
    (hnew : ∀ a ∈ inherited.2.keys, a ∈ found.keys ∨ a ∈ free)
    (hs : sheet.Sums (record style name inherited).2 name (record style name inherited).1 n) :
    sheet.Follows free name found (record style name inherited) where
  sums := ⟨n, hs⟩
  sound := hsound.insert hn hs
  new := by
    intro a ha
    rcases Ledger.mem_keys_insert.1 ha with ha | rfl
    · exact hnew a ha
    · exact .inr hfree
  kept := fun _ _ => by
    rw [Sheet.record, Ledger.get?_insert, if_pos rfl]

/-- The styles that are not free are being followed: the parents of each lead to the one at hand.
A style that is found again among them is therefore on a cycle. -/
theorem follows_follow (free : List String) (name : String) (hsound : sheet.IsSound found)
    (hfree : free.Nodup)
    (hpath : ∀ a ∈ sheet.keys, a ∉ free → Relation.TransGen sheet.Parent a name) :
    sheet.Follows free name found (sheet.follow free name found).value := by
  induction free, name using follow.induct sheet found with
  | case1 free name properties hget =>
    -- found before
    rw [follow, hget]
    obtain ⟨n, -, hs⟩ := hsound name properties hget
    exact ⟨⟨n, hs⟩, hsound, fun a ha => .inl ha, fun _ _ => hget⟩
  | case2 free name hget hstyle =>
    -- no style of the name
    rw [follow, hget, hstyle]
    refine ⟨⟨0, sums_of_missing hstyle⟩, hsound, fun a ha => .inl ha, fun hkey => ?_⟩
    rw [← Ledger.isSome_get?_iff, hstyle] at hkey
    cases hkey
  | case3 free name hget style hstyle hmem hparent =>
    -- no parent
    rw [follow, hget, hstyle]
    simp only [hmem, if_true, hparent]
    exact Follows.record (Nat.le_refl 1) hmem hsound (fun a ha => .inl ha)
      (sums_of_orphan hstyle hparent)
  | case4 free name hget style hstyle hmem parent hparent ih =>
    -- the parent first, which finds nothing for the style itself
    rw [follow, hget, hstyle]
    simp only [hmem, if_true, hparent]
    have hedge : sheet.Parent name parent := ⟨style, hstyle, hparent⟩
    have hpath' : ∀ a ∈ sheet.keys, a ∉ free.erase name →
        Relation.TransGen sheet.Parent a parent := by
      intro a hkey ha
      by_cases hname : a = name
      · exact hname ▸ .single hedge
      · rw [List.mem_erase_of_ne hname] at ha
        exact (hpath a hkey ha).tail hedge
    have hinherited := ih (hfree.erase name) hpath'
    have hnot : name ∉ (sheet.follow (free.erase name) parent found).value.2.keys := by
      intro h
      rcases hinherited.new name h with h | h
      · rw [← Ledger.isSome_get?_iff, hget] at h
        cases h
      · exact hfree.not_mem_erase h
    obtain ⟨n, hs⟩ := hinherited.sums
    exact Follows.record (Nat.le_add_left 1 n) hmem hinherited.sound
      (fun a ha => (hinherited.new a ha).imp_right List.mem_of_mem_erase)
      (hs.child hstyle hparent hnot)
  | case5 free name hget style hstyle hmem =>
    -- being followed already
    rw [follow, hget, hstyle]
    simp only [hmem, if_false]
    have hkey : name ∈ sheet.keys := by
      rw [← Ledger.isSome_get?_iff, hstyle]
      rfl
    exact ⟨⟨0, sums_of_cycle (hpath name hkey hmem)⟩, hsound, fun a ha => .inl ha,
      fun _ h => absurd h hmem⟩

/-! ### All styles -/

theorem map_fst_resolveAll (styles : List (String × Style)) (found : Found) :
    (sheet.resolveAll styles found).value.map Prod.fst = styles.map Prod.fst := by
  induction styles generalizing found with
  | nil => rfl
  | cons s rest ih =>
    rw [resolveAll]
    simp only [Noted.value_bind, Noted.value_pure, List.map_cons, ih]

theorem mem_resolveAll {styles : List (String × Style)} (hsound : sheet.IsSound found)
    (hstyles : ∀ s ∈ styles, s.1 ∈ sheet.keys) (hmem : (name, style) ∈ styles) :
    ∃ found' properties n, 1 ≤ n ∧ sheet.Sums found' name properties n
      ∧ (name, flatten style properties) ∈ (sheet.resolveAll styles found).value := by
  induction styles generalizing found with
  | nil => cases hmem
  | cons s rest ih =>
    rw [resolveAll]
    simp only [Noted.value_bind, Noted.value_pure]
    have hkey := hstyles s List.mem_cons_self
    have hfollows : sheet.Follows sheet.keys s.1 found (sheet.follow sheet.keys s.1 found).value :=
      follows_follow sheet.keys s.1 hsound sheet.nodup fun a ha hnot => absurd ha hnot
    rcases List.mem_cons.1 hmem with rfl | hmem
    · obtain ⟨n, hn, hs⟩ := hfollows.sound _ _ (hfollows.kept hkey hkey)
      exact ⟨_, _, n, hn, hs, List.mem_cons_self⟩
    · obtain ⟨found', properties, n, hn, hs, hrest⟩ :=
        ih hfollows.sound (fun t ht => hstyles t (List.mem_cons_of_mem s ht)) hmem
      exact ⟨found', properties, n, hn, hs, List.mem_cons_of_mem _ hrest⟩

/-- The styles of a sheet keep their places. -/
theorem entries_resolve (sheet : Sheet) :
    sheet.resolve.value.entries = (sheet.resolveAll sheet.entries {}).value := by
  rw [resolve, Noted.value_bind, Noted.value_pure]
  apply Ledger.entries_ofList
  rw [map_fst_resolveAll]
  exact sheet.nodup

/-- A style is resolved to the sum of the first of its lineage. -/
theorem get?_resolve (h : sheet.get? name = some style) :
    ∃ found properties n, 1 ≤ n ∧ sheet.Sums found name properties n
      ∧ sheet.resolve.value.get? name = some (flatten style properties) := by
  obtain ⟨found, properties, n, hn, hs, hmem⟩ :=
    mem_resolveAll sheet.isSound_empty (fun _ => Ledger.mem_keys) (Ledger.mem_of_get? h)
  refine ⟨found, properties, n, hn, hs, Ledger.get?_of_mem ?_⟩
  rwa [entries_resolve]

theorem get?_resolve_of_missing (h : sheet.get? name = none) :
    sheet.resolve.value.get? name = none := by
  apply Ledger.get?_of_not_mem
  rw [Ledger.keys_eq, entries_resolve, map_fst_resolveAll, ← Ledger.keys_eq,
    ← Ledger.isSome_get?_iff, h]
  exact Bool.false_ne_true

/-! ### Sheets that agree -/

/-- Two sheets have the same on the way from a name over its parents. -/
def AgreesFrom (sheet other : Sheet) (name : String) : Prop :=
  ∀ a, Relation.ReflTransGen sheet.Parent name a → other.get? a = sheet.get? a

theorem AgreesFrom.reaches (h : sheet.AgreesFrom other name) {a b : String}
    (ha : Relation.ReflTransGen sheet.Parent name a)
    (hb : Relation.ReflTransGen other.Parent a b) : Relation.ReflTransGen sheet.Parent a b := by
  induction hb with
  | refl => exact .refl
  | tail _ hstep ih =>
    obtain ⟨style, hget, hp⟩ := hstep
    exact ih.tail ⟨style, by rw [← h _ (ha.trans ih), hget], hp⟩

theorem AgreesFrom.isAcyclicFrom (h : sheet.AgreesFrom other name)
    (hacyclic : sheet.IsAcyclicFrom name) : other.IsAcyclicFrom name := by
  intro a ha hcycle
  have ha := h.reaches .refl ha
  obtain ⟨b, ⟨style, hget, hp⟩, hback⟩ := Relation.TransGen.head'_iff.1 hcycle
  have hstep : sheet.Parent a b := ⟨style, by rw [← h a ha, hget], hp⟩
  exact hacyclic a ha (.head' hstep (h.reaches (ha.tail hstep) hback))

theorem AgreesFrom.lineage (h : sheet.AgreesFrom other name) (n : Nat) :
    other.lineage n name = sheet.lineage n name := by
  induction n generalizing name with
  | zero => rfl
  | succ n ih =>
    cases hget : sheet.get? name with
    | none => rw [lineage_of_missing hget, lineage_of_missing (by rw [h name .refl, hget])]
    | some style =>
      have hother : other.get? name = some style := by rw [h name .refl, hget]
      cases hp : parent? style with
      | none => rw [lineage_of_orphan hget hp, lineage_of_orphan hother hp]
      | some parent =>
        rw [lineage_of_child hget hp, lineage_of_child hother hp,
          ih fun a ha => h a (.head ⟨style, hget, hp⟩ ha)]

/-- Where the parents come to an end, the rest of the sheet does not matter. -/
theorem AgreesFrom.get?_resolve (h : sheet.AgreesFrom other name)
    (hacyclic : sheet.IsAcyclicFrom name) :
    other.resolve.value.get? name = sheet.resolve.value.get? name := by
  have hname : other.get? name = sheet.get? name := h name .refl
  cases hget : sheet.get? name with
  | none => rw [get?_resolve_of_missing hget, get?_resolve_of_missing (hname.trans hget)]
  | some style =>
    obtain ⟨_, p, n, -, hs, hresolve⟩ := Sheet.get?_resolve hget
    obtain ⟨_, q, m, -, ht, hother⟩ := Sheet.get?_resolve (hname.trans hget)
    have hle := hs.whole hacyclic m
    have hge := ht.whole (h.isAcyclicFrom hacyclic) n
    rw [h.lineage, h.lineage] at hge
    have hsame : sheet.lineage m name = sheet.lineage n name :=
      hle.eq_of_length (Nat.le_antisymm hle.length_le hge.length_le)
    rw [hresolve, hother, hs.sum, ht.sum, h.lineage, hsame]

/-- **A style inherits from its parents, the nearest first.** The properties that apply to it are
those of the first `n` of its lineage, with the nearest on top, and each state has its own on top of
these. When its parents do not come back to where they were, the lineage counts as a whole. Then
neither the order of the sheet nor its other styles matter. -/
theorem resolved_overlays_lineage (h : sheet.get? name = some style) :
    ∃ n properties, 1 ≤ n
      ∧ (sheet.lineage n name).length = n
      ∧ ((sheet.lineage n name).map Prod.fst).Nodup
      ∧ (∀ s ∈ sheet.lineage n name, sheet.get? s.1 = some s.2)
      ∧ properties = overlaid (sheet.lineage n name)
      ∧ (∀ key, properties.get? key
          = (sheet.lineage n name).findSome? fun s => s.2.properties.get? key)
      ∧ sheet.resolve.value.get? name = some { style with
          flattened := some ⟨properties, style.states.map fun own => properties.overlay own⟩ }
      ∧ (sheet.IsAcyclicFrom name →
          (∀ m, sheet.lineage m name <+: sheet.lineage n name)
          ∧ (∀ other : Sheet, sheet.AgreesFrom other name →
              other.resolve.value.get? name = sheet.resolve.value.get? name)
          ∧ ∀ other : Sheet, other.entries.Perm sheet.entries →
              other.resolve.value.get? name = sheet.resolve.value.get? name) := by
  obtain ⟨_, properties, n, hn, hs, hresolve⟩ := get?_resolve h
  refine ⟨n, properties, hn, hs.length, hs.nodup, fun s => get?_of_mem_lineage, hs.sum, ?_,
    hresolve, fun hacyclic => ⟨hs.whole hacyclic, ?_, ?_⟩⟩
  · intro key
    rw [hs.sum, get?_overlaid]
  · intro other hagrees
    exact hagrees.get?_resolve hacyclic
  · intro other hperm
    have hagrees : sheet.AgreesFrom other name := fun a _ => Ledger.get?_of_perm hperm a
    exact hagrees.get?_resolve hacyclic

/-- A sheet with a button that inherits over two steps, the last of which there is not, beside two
styles that are the parents of each other. -/
def windowsSheet : Sheet :=
  .ofList
    [("Ring", { name := "Ring", parent := some "Gear", properties := .ofList [("color", "red")] }),
     ("Button", {
        name := "Button"
        parent := some "Label"
        properties := .ofList [("color", "white")]
        states := .ofList [("hover", .ofList [("opacity", "0.5")])] }),
     ("Label", {
        name := "Label"
        parent := some "Text"
        properties := .ofList [("font", "sans"), ("color", "gray")] }),
     ("Gear", { name := "Gear", parent := some "Ring", properties := .ofList [("size", "8 8")] })]

example : (windowsSheet.resolve.value.get? "Gear").map (·.inForce.entries)
    = some [("size", "8 8")] := by
  decide +kernel

theorem windowsSheet_isAcyclicFrom_button : windowsSheet.IsAcyclicFrom "Button" := by
  have hlabel : windowsSheet.Parent "Button" "Label" := ⟨_, rfl, rfl⟩
  have htext : windowsSheet.Parent "Label" "Text" := ⟨_, rfl, rfl⟩
  rw [isAcyclicFrom_iff_of_parent hlabel, isAcyclicFrom_iff_of_parent htext]
  apply isAcyclicFrom_of_orphan
  rintro b ⟨_, hget, -⟩
  cases hget

theorem resolved_overlays_lineage_button :
    ∃ style, windowsSheet.get? "Button" = some style ∧ windowsSheet.IsAcyclicFrom "Button"
      ∧ ∃ n properties, 1 ≤ n
        ∧ (windowsSheet.lineage n "Button").length = n
        ∧ ((windowsSheet.lineage n "Button").map Prod.fst).Nodup
        ∧ properties = overlaid (windowsSheet.lineage n "Button")
        ∧ windowsSheet.resolve.value.get? "Button" = some { style with
            flattened := some ⟨properties, style.states.map fun own => properties.overlay own⟩ }
        ∧ (∀ m, windowsSheet.lineage m "Button" <+: windowsSheet.lineage n "Button")
        ∧ ∀ other : Sheet, other.entries.Perm windowsSheet.entries →
            other.resolve.value.get? "Button" = windowsSheet.resolve.value.get? "Button" := by
  obtain ⟨style, h⟩ : ∃ style, windowsSheet.get? "Button" = some style := ⟨_, rfl⟩
  obtain ⟨n, properties, hn, hlength, hnodup, -, hsum, -, hresolve, hacyclic⟩ :=
    resolved_overlays_lineage h
  obtain ⟨hwhole, -, hperm⟩ := hacyclic windowsSheet_isAcyclicFrom_button
  exact ⟨style, h, windowsSheet_isAcyclicFrom_button, n, properties, hn, hlength, hnodup, hsum,
    hresolve, hwhole, hperm⟩

end Otui.Sheet
