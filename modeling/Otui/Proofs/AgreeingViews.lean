import Otui.Proofs.MadeDocuments
import Otui.Proofs.WrittenBlocks
import Mathlib.Data.List.Nodup

/-!
# The views of a widget agree

A widget says what its property lines say in six places: the lines themselves, the stored values, the
keys as written, the anchors, the margins and whether there is a size; and it has an id. All of them
are views of one list of lines, those that count. `storeLine_of_admits` says once what a line that
counts does to each view; what a whole run of lines does follows by induction, and `views_agree` says
it of every widget and every template that a text is read as.
-/

namespace Otui

open Otui.Text Otui.Document

variable {α : Type}

/-! ### What a line says in each view -/

/-- A list, or nothing in place of the empty one. -/
def unlessEmpty {β : Type} (xs : List β) : Option (List β) := if xs.isEmpty then none else some xs

theorem unlessEmpty_append_singleton {β : Type} (xs : List β) (x : β) :
    unlessEmpty (xs ++ [x]) = some ((unlessEmpty xs).getD [] ++ [x]) := by
  cases xs <;> simp [unlessEmpty]

namespace OwnLine

/-- The stored keys that a line gives values. A key that stands for two gives values to both when
there are at least two words, and to none when there are fewer. -/
def storedKeys (l : OwnLine) : List String :=
  if (Key.parts? l.key).isSome && (Text.words l.value).length < 2 then [] else Key.taken l.key

/-- The key as it is written, under the key without its mark, when there is a mark. -/
def marked? (l : OwnLine) : Option (String × String) :=
  if Key.isMarked l.key then some (Key.stored l.key, l.key) else none

/-- The anchor that a line gives, its key in the spelling in use. -/
def anchor? (l : OwnLine) : Option (String × String) :=
  if Key.isAnchor l.key then some (Key.anchorSpelling l.key, l.value) else none

/-- The margin that a line gives, when its value is a number. -/
def margin? (l : OwnLine) : Option (String × Int) :=
  (Key.marginEdge? l.key).bind fun edge => (Key.wholePart? l.value).map fun n => (edge, n)

/-- Whether a line gives a size of two parts. -/
def givesSize (l : OwnLine) : Bool := l.key == "size" && 2 ≤ (Text.words l.value).length

/-- A line of a text says a property line. In the form `key: value` the value is without one pair of
quotes, and in the other forms it is as written. -/
def IsSaidIn (text : String) (l : OwnLine) : Prop :=
  ∃ c ∈ contentLines text, c.number = l.number
    ∧ contentOf c.indent c.text = .property l.key l.value l.raw
    ∧ l.value = if (colonProperty? c.text).isSome then stripQuotes l.raw else l.raw

theorem map_fst_pairs (l : OwnLine) : l.pairs.map Prod.fst = l.storedKeys := by
  by_cases h : (Key.parts? l.key).isSome = true → 2 ≤ (Text.words l.value).length
  · rw [keys_pairs_of_words h, storedKeys, if_neg]
    intro hfew
    obtain ⟨hsome, hfew⟩ := Bool.and_eq_true_iff.1 hfew
    exact Nat.not_lt.2 (h hsome) (of_decide_eq_true hfew)
  · obtain ⟨hsome, hfew⟩ := Classical.not_imp.1 h
    have hfew := Nat.not_le.1 hfew
    obtain ⟨⟨first, second⟩, hp⟩ := Option.isSome_iff_exists.1 hsome
    rw [storedKeys, if_pos (by simp [hsome, hfew]), pairs, hp]
    rcases hw : Text.words l.value with _ | ⟨a, _ | ⟨b, ws⟩⟩
    · rfl
    · rfl
    · rw [hw, List.length_cons, List.length_cons] at hfew
      omega

theorem anchor?_of_not_isAnchor {l : OwnLine} (h : Key.isAnchor l.key = false) :
    l.anchor? = none := by
  rw [anchor?, h]
  rfl

theorem margin?_of_marginEdge?_eq_none {l : OwnLine} (h : Key.marginEdge? l.key = none) :
    l.margin? = none := by
  rw [margin?, h]
  rfl

end OwnLine

theorem Key.marginEdge?_of_isAnchor {key : String} (h : isAnchor key = true) :
    marginEdge? key = none := by
  rw [marginEdge?, if_neg]
  intro hm
  obtain ⟨s, rfl⟩ := exists_of_startsWith h
  obtain ⟨cs, hcs⟩ := List.isPrefixOf_iff_prefix.1 hm
  rw [String.toList_append] at hcs
  exact absurd (List.cons.inj hcs).1 (by decide)

theorem Key.marginEdge?_of_parts? {key first second : String}
    (h : parts? key = some (first, second)) : marginEdge? key = none := by
  rcases parts?_eq_some h with ⟨rfl, -⟩ | ⟨rfl, -⟩ <;> decide

/-! ### The stored views -/

namespace Properties

/-- A key as written comes last when its line counts. -/
theorem written_after {p : Properties} {l : OwnLine} (h : p.Admits l.key)
    (hsub : p.written.keys ⊆ p.values.keys) :
    (p.after l).written.entries = p.written.entries ++ l.marked?.toList := by
  unfold after record?
  rw [OwnLine.entry_key]
  cases hp : Key.parts? l.key with
  | some ab =>
    obtain ⟨first, second⟩ := ab
    have hmark : l.marked? = none := by rw [OwnLine.marked?, (Key.compound_plain hp).2.1]; rfl
    simp only [recordCompound?, hmark, Option.toList_none, List.append_nil]
    split <;> rfl
  | none =>
    simp only [Admits, Key.taken_of_none hp, List.mem_singleton, forall_eq] at h
    have hnew : Key.stored l.key ∉ p.written.keys := fun hmem => h.2 (hsub hmem)
    have hadm : ¬ ((Key.stored l.key == "" || p.values.contains (Key.stored l.key)) = true) := by
      simp [h.1, h.2]
    have hrecord : p.recordPlain? l.value l.entry = some
        { lines := p.lines ++ [l.entry]
          values := p.values.insert (Key.stored l.key) l.value
          written := if Key.isMarked l.key then p.written.insert (Key.stored l.key) l.key
            else p.written } := if_neg hadm
    dsimp only
    rw [hrecord, Option.getD_some, OwnLine.marked?]
    split
    · exact Ledger.entries_insert_of_not_mem hnew l.key
    · exact (List.append_nil _).symm

theorem written_subset_after {p : Properties} {l : OwnLine} (h : p.Admits l.key)
    (hsub : p.written.keys ⊆ p.values.keys) :
    (p.after l).written.keys ⊆ (p.after l).values.keys := by
  intro k hk
  rw [Ledger.keys_eq, written_after h hsub, List.map_append, List.mem_append] at hk
  rw [keys_after h, List.mem_append]
  refine hk.imp (fun hk => hsub hk) fun hk => ?_
  rw [OwnLine.marked?] at hk
  split at hk
  · next hm =>
    have hp : Key.parts? l.key = none := by
      rw [Option.eq_none_iff_forall_ne_some]
      rintro ⟨first, second⟩ hp
      rw [(Key.compound_plain hp).2.1] at hm
      cases hm
    rw [OwnLine.pairs_of_none hp]
    simpa using hk
  · cases hk

/-- The keys as written of what is read are those of the lines that count. -/
theorem entries_written_recordAll {p : Properties} (hsub : p.written.keys ⊆ p.values.keys)
    (ls : List OwnLine) :
    (p.recordAll ls).written.entries
      = p.written.entries ++ (p.counted ls).filterMap OwnLine.marked? := by
  induction ls generalizing p with
  | nil => exact (List.append_nil _).symm
  | cons l ls ih =>
    rw [recordAll_cons]
    by_cases h : p.Admits l.key
    · rw [counted_cons_of_admits h, ih (written_subset_after h hsub), written_after h hsub,
        List.append_assoc, List.filterMap_cons]
      cases l.marked? <;> rfl
    · rw [counted_cons_of_not_admits h, after_of_not_admits h, ih hsub]

/-- Properties whose views agree: they are those of some lines of a text. -/
structure AgreesWith (text : String) (ls : List OwnLine) (p : Properties) : Prop where
  /-- The lines are kept. -/
  lines : p.lines = ls.map OwnLine.entry
  /-- Each is said by a line of the text. -/
  said : ∀ l ∈ ls, l.IsSaidIn text
  /-- The numbers of the lines increase. -/
  increasing : p.lines.Pairwise fun k l => k.line < l.line
  /-- The stored keys are those that the lines give values, line after line. -/
  keys : p.values.keys = ls.flatMap OwnLine.storedKeys
  /-- No two lines give the same key a value. -/
  apart : ls.Pairwise fun k l => k.storedKeys.Disjoint l.storedKeys
  /-- A key that stands for itself has the value of its line. -/
  plain : ∀ l ∈ ls, Key.parts? l.key = none → p.values.get? (Key.stored l.key) = some l.value
  /-- The keys as written are those of the lines with marks. -/
  written : p.written.entries = ls.filterMap OwnLine.marked?

end Properties

/-! ### The views of a widget -/

namespace Element

/-- **One line**: what a line that counts does to each view of a widget. -/
theorem storeLine_of_admits {e : Element α} {l : OwnLine} (h : e.properties.Admits l.key) :
    e.storeLine l = { e with
      properties := e.properties.after l
      id := if l.key = "id" then some l.value else e.id
      anchors := (l.anchor?.map fun a => e.anchors.getD [] ++ [a]).or e.anchors
      margins := (l.margin?.map fun m => (e.margins.getD {}).insert m.1 m.2).or e.margins
      sized := if l.givesSize then some true else e.sized } := by
  obtain ⟨q, hq, -, -⟩ := Properties.record?_of_admits h
  have hafter : e.properties.after l = q := by rw [Properties.after, hq, Option.getD_some]
  have hrecord : e.properties.record? l.value ⟨l.key, l.raw, l.number⟩ = some q := hq
  rw [storeLine, store, hrecord, hafter]
  dsimp only
  cases hp : Key.parts? l.key with
  | some ab =>
    -- a key that stands for two can give a size and nothing else
    obtain ⟨first, second⟩ := ab
    have hmargin := Key.marginEdge?_of_parts? hp
    obtain ⟨hanchor, -, hid⟩ := Key.compound_plain hp
    rw [OwnLine.anchor?_of_not_isAnchor hanchor, OwnLine.margin?_of_marginEdge?_eq_none hmargin,
      if_neg hid, Option.isSome_some, if_pos rfl]
    change (if l.givesSize = true then _ else _ : Element α × List (Nat × Notice)).1 = _
    split <;> rfl
  | none =>
    have hsize : l.givesSize = false := by
      have hkey : l.key ≠ "size" := fun hkey => by rw [hkey] at hp; revert hp; decide
      simp [OwnLine.givesSize, hkey]
    rw [hsize, Option.isSome_none, if_neg (by decide)]
    by_cases hid : l.key = "id"
    · have hanchor : Key.isAnchor l.key = false := by rw [hid]; decide
      have hmargin : Key.marginEdge? l.key = none := by rw [hid]; decide
      rw [OwnLine.anchor?_of_not_isAnchor hanchor, OwnLine.margin?_of_marginEdge?_eq_none hmargin,
        if_pos hid, if_pos (by simpa using hid)]
      rfl
    · rw [if_neg hid, if_neg (by simpa using hid)]
      by_cases hanchor : Key.isAnchor l.key = true
      · rw [OwnLine.margin?_of_marginEdge?_eq_none (Key.marginEdge?_of_isAnchor hanchor),
          OwnLine.anchor?, if_pos hanchor, if_pos hanchor]
        rfl
      · rw [OwnLine.anchor?_of_not_isAnchor (Bool.not_eq_true _ ▸ hanchor), if_neg hanchor,
          OwnLine.margin?]
        cases Key.marginEdge? l.key with
        | none => rfl
        | some edge => cases Key.wholePart? l.value <;> rfl

/-- A widget whose views besides its properties agree: they are those of some lines. -/
structure AgreesWith (ls : List OwnLine) (e : Element α) : Prop where
  /-- The anchors are those of the lines, in order. -/
  anchors : e.anchors = unlessEmpty (ls.filterMap OwnLine.anchor?)
  /-- The margins are those of the lines that give numbers, in order. -/
  margins : e.margins.map Ledger.entries = unlessEmpty (ls.filterMap OwnLine.margin?)
  /-- There is a size when a line gives one. -/
  sized : e.sized = some (ls.any OwnLine.givesSize)
  /-- The line for the id gives the id, which is stored as well. -/
  id : ∀ l ∈ ls, l.key = "id" →
    e.id = some l.value ∧ e.properties.values.get? "id" = some l.value

/-- Every margin comes from a line that is stored. -/
def HasStoredMargins (e : Element α) : Prop :=
  ∀ edge ∈ (e.margins.getD {}).keys, Key.marginFront ++ edge ∈ e.properties.values.keys

theorem properties_storeLine_of_admits {e : Element α} {l : OwnLine}
    (h : e.properties.Admits l.key) : (e.storeLine l).properties = e.properties.after l := by
  rw [storeLine_of_admits h]

theorem margins_storeLine_of_none {e : Element α} {l : OwnLine} (h : e.properties.Admits l.key)
    (hm : l.margin? = none) : (e.storeLine l).margins = e.margins := by
  rw [storeLine_of_admits h, hm]
  rfl

theorem margins_storeLine_of_some {e : Element α} {l : OwnLine} (h : e.properties.Admits l.key)
    {m : String × Int} (hm : l.margin? = some m) :
    (e.storeLine l).margins = some ((e.margins.getD {}).insert m.1 m.2) := by
  rw [storeLine_of_admits h, hm]
  rfl

/-- The key of a line with a margin stands for itself. -/
theorem taken_of_margin? {l : OwnLine} {m : String × Int} (h : l.margin? = some m) :
    Key.parts? l.key = none ∧ Key.stored l.key = Key.marginFront ++ m.1 := by
  obtain ⟨edge, hedge, hn⟩ := Option.bind_eq_some_iff.1 h
  obtain ⟨n, -, rfl⟩ := Option.map_eq_some_iff.1 hn
  obtain ⟨hkey, hstored⟩ := Key.eq_of_marginEdge? hedge
  refine ⟨Option.eq_none_iff_forall_ne_some.2 fun ⟨first, second⟩ hp => ?_, hstored.trans hkey⟩
  rw [Key.marginEdge?_of_parts? hp] at hedge
  cases hedge

theorem hasStoredMargins_storeLine {e : Element α} {l : OwnLine}
    (h : e.properties.Admits l.key) (he : e.HasStoredMargins) :
    (e.storeLine l).HasStoredMargins := by
  intro edge hedge
  rw [properties_storeLine_of_admits h, Properties.keys_after h, List.mem_append]
  cases hm : l.margin? with
  | none =>
    rw [margins_storeLine_of_none h hm] at hedge
    exact .inl (he edge hedge)
  | some m =>
    rw [margins_storeLine_of_some h hm, Option.getD_some, Ledger.mem_keys_insert] at hedge
    refine hedge.imp (he edge) ?_
    rintro rfl
    obtain ⟨hplain, hstored⟩ := taken_of_margin? hm
    simp [OwnLine.pairs_of_none hplain, hstored]

/-- A line that counts joins those that the views are of. -/
theorem agreesWith_storeLine {e : Element α} {ls : List OwnLine} {l : OwnLine}
    (h : e.AgreesWith ls) (hadm : e.properties.Admits l.key) (hmargins : e.HasStoredMargins) :
    (e.storeLine l).AgreesWith (ls ++ [l]) where
  anchors := by
    rw [storeLine_of_admits hadm, List.filterMap_append, List.filterMap_cons, List.filterMap_nil]
    cases l.anchor? with
    | none => simpa using h.anchors
    | some a =>
      dsimp only
      rw [unlessEmpty_append_singleton, ← h.anchors]
      rfl
  margins := by
    rw [List.filterMap_append, List.filterMap_cons, List.filterMap_nil]
    cases hm : l.margin? with
    | none =>
      rw [margins_storeLine_of_none hadm hm, h.margins]
      exact congrArg unlessEmpty (List.append_nil _).symm
    | some m =>
      -- the edge is new, because its key is
      have hnew : m.1 ∉ (e.margins.getD {}).keys := by
        intro hmem
        obtain ⟨hplain, hstored⟩ := taken_of_margin? hm
        have hkey := (hadm (Key.stored l.key) (by simp [Key.taken_of_none hplain])).2
        exact hkey (hstored ▸ hmargins m.1 hmem)
      have hentries : (e.margins.getD {}).entries
          = (unlessEmpty (ls.filterMap OwnLine.margin?)).getD [] := by
        rw [← h.margins]
        cases e.margins <;> rfl
      rw [margins_storeLine_of_some hadm hm, Option.map_some,
        Ledger.entries_insert_of_not_mem hnew, hentries, unlessEmpty_append_singleton]
  sized := by
    rw [storeLine_of_admits hadm, h.sized, List.any_append, List.any_cons, List.any_nil]
    cases l.givesSize <;> simp
  id m hm hid := by
    have hentries := Properties.entries_after hadm
    rw [properties_storeLine_of_admits hadm, Ledger.get?_eq_some_iff, hentries, List.mem_append,
      storeLine_of_admits hadm]
    rcases List.mem_append.1 hm with hm | hm
    · obtain ⟨hold, hstored⟩ := h.id m hm hid
      have hmem := Ledger.mem_of_get? hstored
      -- a second line for the id would not count
      have hne : l.key ≠ "id" := by
        intro hl
        have htaken : Key.taken l.key = ["id"] := by rw [hl]; decide
        exact (hadm "id" (by simp [htaken])).2 (Ledger.mem_keys hmem)
      exact ⟨by rw [← hold]; exact if_neg hne, .inl hmem⟩
    · obtain rfl := List.mem_singleton.1 hm
      have hplain : Key.parts? m.key = none := by rw [hid]; decide
      have hpairs : m.pairs = [("id", m.value)] := by
        rw [OwnLine.pairs_of_none hplain, hid]
        exact congrArg (fun k => [(k, m.value)]) (by decide)
      exact ⟨if_pos hid, .inr (by rw [hpairs]; exact List.mem_singleton_self _)⟩

/-- **All lines**: after storing lines the views are those of the lines that count. -/
theorem agreesWith_storeAll {e : Element α} {done : List OwnLine} (h : e.AgreesWith done)
    (hmargins : e.HasStoredMargins) (ls : List OwnLine) :
    (e.storeAll ls).1.AgreesWith (done ++ e.properties.counted ls) := by
  induction ls generalizing e done with
  | nil => simpa [Properties.counted, storeAll] using h
  | cons l ls ih =>
    rw [storeAll_cons]
    by_cases hadm : e.properties.Admits l.key
    · have hrest := ih (agreesWith_storeLine h hadm hmargins)
        (hasStoredMargins_storeLine hadm hmargins)
      rw [properties_storeLine_of_admits hadm, List.append_assoc] at hrest
      rwa [Properties.counted_cons_of_admits hadm]
    · rw [Properties.counted_cons_of_not_admits hadm, storeLine_of_not_admits hadm]
      exact ih h hmargins

end Element

/-! ### Documents -/

namespace Document

theorem value_of_colonProperty? {cs : List Char} {key value raw : String}
    (h : colonProperty? cs = some (.property key value raw)) : value = stripQuotes raw := by
  unfold colonProperty? at h
  simp only at h
  split at h
  · split at h
    · cases h
    · cases h
      rfl
  · cases h

theorem value_of_spaceProperty? {cs : List Char} {key value raw : String}
    (h : spaceProperty? cs = some (.property key value raw)) : value = raw := by
  unfold spaceProperty? at h
  simp only at h
  split at h
  · split at h
    · cases h
    · cases h
      rfl
  · cases h

theorem value_of_bareProperty? {indent : Nat} {cs : List Char} {key value raw : String}
    (h : bareProperty? indent cs = some (.property key value raw)) : value = raw := by
  unfold bareProperty? at h
  split at h
  · cases h
    rfl
  · cases h

/-- The value of a property line is without quotes in one of its forms, and as written otherwise. -/
theorem value_of_contentOf {indent : Nat} {cs : List Char} {key value raw : String}
    (h : contentOf indent cs = .property key value raw) :
    value = if (colonProperty? cs).isSome then stripQuotes raw else raw := by
  unfold contentOf at h
  split at h
  · cases h
  · cases hcolon : colonProperty? cs with
    | some content =>
      rw [hcolon, Option.orElse_some, Option.getD_some] at h
      exact value_of_colonProperty? (h ▸ hcolon)
    | none =>
      rw [hcolon, Option.orElse_none] at h
      cases hspace : spaceProperty? cs with
      | some content =>
        rw [hspace, Option.orElse_some, Option.getD_some] at h
        exact value_of_spaceProperty? (h ▸ hspace)
      | none =>
        rw [hspace, Option.orElse_none] at h
        cases hbare : bareProperty? indent cs with
        | some content =>
          rw [hbare, Option.getD_some] at h
          exact value_of_bareProperty? (h ▸ hbare)
        | none =>
          rw [hbare] at h
          cases h

/-- A property line among the lines of a text is said there. -/
theorem isSaidIn_of_mem {text : String} {ks : List Line} (h : List.Sublist ks (lines text))
    {l : OwnLine} (hl : l ∈ ks.filterMap Line.property?) : l.IsSaidIn text := by
  obtain ⟨k, hk, hproperty⟩ := List.mem_filterMap.1 hl
  obtain ⟨c, hc, rfl⟩ := List.mem_map.1 (h.subset hk)
  unfold Line.property? at hproperty
  split at hproperty
  · next key value raw hcontent =>
    cases hproperty
    exact ⟨c, hc, rfl, hcontent, value_of_contentOf hcontent⟩
  · cases hproperty

/-- Property lines among the lines of a text have increasing numbers. -/
theorem pairwise_number {text : String} {ks : List Line} (h : List.Sublist ks (lines text)) :
    (ks.filterMap Line.property?).Pairwise fun k l => k.number < l.number := by
  have hnumber : ∀ {k : Line} {l : OwnLine}, Line.property? k = some l → l.number = k.number := by
    intro k l hl
    unfold Line.property? at hl
    split at hl
    · cases hl
      rfl
    · cases hl
  refine ((areNumbered_lines text).sublist h).filterMap _ fun k k' hlt l hl l' hl' => ?_
  rw [hnumber hl, hnumber hl']
  exact hlt

/-- The views of what lines of a text store agree. -/
theorem agreesWith_recordAll {text : String} {ks : List Line} (h : List.Sublist ks (lines text)) :
    (Properties.recordAll {} (ks.filterMap Line.property?)).AgreesWith text
      (Properties.counted {} (ks.filterMap Line.property?)) := by
  have hsub := Properties.counted_sublist {} (ks.filterMap Line.property?)
  have hentries := Properties.entries_recordAll {} (ks.filterMap Line.property?)
  have hkeys : (Properties.recordAll {} (ks.filterMap Line.property?)).values.keys
      = (Properties.counted {} (ks.filterMap Line.property?)).flatMap OwnLine.storedKeys := by
    rw [Ledger.keys_eq, hentries, List.map_append, List.map_flatMap]
    exact congrArg (List.flatMap · _) (funext OwnLine.map_fst_pairs)
  refine ⟨Properties.lines_recordAll {} _, fun l hl => isSaidIn_of_mem h (hsub.subset hl), ?_, hkeys,
    ?_, fun l hl hplain => ?_, Properties.entries_written_recordAll (List.Subset.refl _) _⟩
  · rw [Properties.lines_recordAll, List.pairwise_append]
    refine ⟨.nil, List.pairwise_map.2 ?_, by simp⟩
    exact ((pairwise_number h).sublist hsub).imp fun hlt => Int.ofNat_lt.2 hlt
  · have hnodup := (Properties.recordAll {} (ks.filterMap Line.property?)).values.nodup
    rw [← Ledger.keys_eq, hkeys] at hnodup
    exact (List.nodup_flatMap.1 hnodup).2
  · rw [Ledger.get?_eq_some_iff, hentries]
    refine List.mem_append_right _ (List.mem_flatMap.2 ⟨l, hl, ?_⟩)
    rw [OwnLine.pairs_of_none hplain]
    exact List.mem_singleton_self _

/-- The views of a widget that was made of the lines of a text agree. -/
theorem exists_agreesWith {text : String} {templates : List (Template α)} {e : Element α}
    (h : e.IsMadeOf (lines text) templates) :
    ∃ ls, e.properties.AgreesWith text ls ∧ e.AgreesWith ls := by
  obtain ⟨b, id, ⟨type, name, ks, hks, rfl⟩, hid, rfl⟩ := h
  have hnone : (opened type name : Element α).AgreesWith [] :=
    ⟨rfl, rfl, rfl, fun l hl => absurd hl List.not_mem_nil⟩
  have hviews := Element.agreesWith_storeAll hnone (fun edge hedge => absurd hedge List.not_mem_nil)
    (ks.filterMap Line.property?)
  refine ⟨Properties.counted {} (ks.filterMap Line.property?), ?_, hviews.anchors, hviews.margins,
    hviews.sized, fun l hl hkey => ?_⟩
  · have hproperties := agreesWith_recordAll hks
    rwa [← show _ = Properties.recordAll {} (ks.filterMap Line.property?) from
      Element.properties_storeAll (opened type name : Element α) _] at hproperties
  · obtain ⟨hown, hstored⟩ := hviews.id l hl hkey
    refine ⟨?_, hstored⟩
    rcases hid with hid | hid
    · exact hid.symm.trans hown
    · cases hid.symm.trans hown

/-- **Views agree**: whatever the text and the types known before, each widget of the document, root
or below or in the body of a template, has some property lines of the text in order, of which all its
views are; and each template has such lines for the views of its properties. -/
theorem views_agree (registry : Registry) (text : String) :
    (∀ e ∈ Tree.forestLabels (read (α := α) registry text).value.document.widgets,
        ∃ ls, e.properties.AgreesWith text ls ∧ e.AgreesWith ls)
      ∧ ∀ t ∈ (read (α := α) registry text).value.document.templates,
        (∃ ls, t.properties.AgreesWith text ls)
          ∧ ∀ e ∈ Tree.forestLabels t.children,
            ∃ ls, e.properties.AgreesWith text ls ∧ e.AgreesWith ls := by
  have hmade := isMadeOf_read (α := α) registry text
  refine ⟨fun e he => exists_agreesWith (hmade.widgets e he), fun t ht => ⟨?_, fun e he =>
    exists_agreesWith (hmade.bodies t ht e he)⟩⟩
  obtain ⟨ks, hks, hproperties⟩ := hmade.templates t ht
  exact ⟨_, hproperties ▸ agreesWith_recordAll hks⟩

end Document

end Otui
