import Otui.Proofs.AgreeingViews
import Otui.Proofs.Scripts

/-!
# Ids that are written and ids that are made

A widget with a line for its id has the id of that line (`Element.writtenId?`). The others are
numbered: the widgets of a document are visited one after the other, roots and what is below them
first and then the bodies of the templates, and the n-th of those without a written id whose types
have the same stem gets the stem with n (`Element.idAfter`). The numbers of one stem are never given
twice, but nobody looks at the ids that are written; so a made id is that of another widget just
when some widget has a written id that the numbering comes to as well. `idsAreGiven_read` says which
these are.
-/

namespace Otui

open Otui.Document

variable {α : Type}

/-! ### Ids of one widget -/

/-- The id that is made of a stem and a number. -/
def Document.numberedId (stem : String) (n : Nat) : String := stem ++ "_" ++ toString n

namespace Element

/-- The id that a line of a widget says. -/
def writtenId? (e : Element α) : Option String :=
  if e.properties.lines.any (·.key == "id") then e.properties.values.get? "id" else none

/-- The stem of the ids that are made for widgets of a type. -/
def stem (e : Element α) : String :=
  idStem (if textOrEmpty e.surface != "" then textOrEmpty e.surface else e.type)

/-- How many widgets of a stem have no written id. -/
def nameless (stem : String) (es : List (Element α)) : Nat :=
  es.countP fun e => e.writtenId?.isNone && e.stem == stem

/-- The id of a widget that comes after others: the written one, or the next number of its stem. -/
def idAfter (before : List (Element α)) (e : Element α) : String :=
  e.writtenId?.getD (numberedId e.stem (nameless e.stem before + 1))

theorem isLower_stem (e : Element α) : ∀ c ∈ e.stem.toList, c.isLower = true :=
  (idStem_spec _).2

theorem nameless_append (stem : String) (es fs : List (Element α)) :
    nameless stem (es ++ fs) = nameless stem es + nameless stem fs :=
  List.countP_append

/-- A widget without a written id counts for its own stem. -/
theorem nameless_singleton_of_none {e : Element α} (h : e.writtenId? = none) (stem : String) :
    nameless stem [e] = if e.stem = stem then 1 else 0 := by
  simp [nameless, List.countP_cons, h]

/-- A widget with a written id does not count. -/
theorem nameless_singleton_of_some {e : Element α} {id : String} (h : e.writtenId? = some id)
    (stem : String) : nameless stem [e] = 0 := by
  simp [nameless, h]

/-- A widget has the id of the line for it, and none without such a line. -/
theorem IsStored.id_eq {lines : List Line} {e : Element α} (h : e.IsStored lines) :
    e.id = e.writtenId? := by
  obtain ⟨type, name, ks, -, rfl⟩ := h
  have hlines : ((opened type name : Element α).storeAll
      (ks.filterMap Line.property?)).1.properties.lines
        = (Properties.counted {} (ks.filterMap Line.property?)).map OwnLine.entry := by
    rw [properties_storeAll]
    exact Properties.lines_recordAll {} _
  by_cases hid : ∃ l ∈ Properties.counted {} (ks.filterMap Line.property?), l.key = "id"
  · obtain ⟨l, hl, hkey⟩ := hid
    have hnone : (opened type name : Element α).AgreesWith [] :=
      ⟨rfl, rfl, rfl, fun l hl => absurd hl List.not_mem_nil⟩
    have hviews := agreesWith_storeAll hnone (fun edge hedge => absurd hedge List.not_mem_nil)
      (ks.filterMap Line.property?)
    obtain ⟨hown, hstored⟩ := hviews.id l hl hkey
    rw [hown, writtenId?, hlines, if_pos, hstored]
    exact List.any_eq_true.2 ⟨l.entry, List.mem_map_of_mem hl, by simp [hkey]⟩
  · have hother : ∀ l ∈ Properties.counted {} (ks.filterMap Line.property?), l.key ≠ "id" :=
      fun l hl hkey => hid ⟨l, hl, hkey⟩
    rw [id_storeAll_of_not_mem hother, writtenId?, hlines, if_neg]
    · rfl
    · rw [List.any_map, List.any_eq_true]
      rintro ⟨l, hl, hkey⟩
      exact hother l hl (by simpa using hkey)

end Element

/-! ### Numbered ids -/

namespace Document

theorem toString_injective {m n : Nat} (h : (toString m).toList = (toString n).toList) :
    m = n := by
  rw [Nat.toString_eq_repr, Nat.toString_eq_repr, Nat.toList_repr, Nat.toList_repr] at h
  simpa using congrArg (fun digits => Nat.ofDigitChars 10 digits 0) h

/-- Numbered ids tell their stems and their numbers, if the stems have nothing but small letters. -/
theorem numberedId_inj {s t : String} (hs : ∀ c ∈ s.toList, c.isLower = true)
    (ht : ∀ c ∈ t.toList, c.isLower = true) {m n : Nat} (h : numberedId s m = numberedId t n) :
    s = t ∧ m = n := by
  have hlists : s.toList ++ '_' :: (toString m).toList = t.toList ++ '_' :: (toString n).toList := by
    simpa [numberedId] using congrArg String.toList h
  have hline : ¬ '_'.isLower = true := by decide
  have hstem : s.toList = t.toList := by
    have hfront := congrArg (List.takeWhile Char.isLower) hlists
    rwa [List.takeWhile_append_of_pos hs, List.takeWhile_append_of_pos ht,
      List.takeWhile_cons_of_neg hline, List.takeWhile_cons_of_neg hline, List.append_nil,
      List.append_nil] at hfront
  rw [hstem] at hlists
  have htail := (List.cons.inj (List.append_cancel_left hlists)).2
  exact ⟨String.toList_injective hstem, toString_injective htail⟩

theorem numberedId_ne_empty (stem : String) (n : Nat) : numberedId stem n ≠ "" := by
  intro h
  have hlist := congrArg String.toList h
  simp [numberedId] at hlist

end Document

/-! ### Numbering one widget after the other -/

namespace Element

/-- Widgets that come after others, each with the id that those before it leave for it. -/
def AreIdentified (before es : List (Element α)) : Prop :=
  ∀ l e r, es = l ++ e :: r → e.id = some (e.idAfter (before ++ l))

variable {before es fs : List (Element α)} {e : Element α}

theorem areIdentified_nil : AreIdentified before [] := by
  intro l e r h
  simp at h

theorem areIdentified_cons :
    AreIdentified before (e :: es)
      ↔ e.id = some (e.idAfter before) ∧ AreIdentified (before ++ [e]) es := by
  constructor
  · intro h
    refine ⟨by simpa using h [] e es rfl, fun l f r hes => ?_⟩
    simpa using h (e :: l) f r (by rw [hes, List.cons_append])
  · rintro ⟨he, hes⟩ l f r h
    cases l with
    | nil =>
      cases h
      simpa using he
    | cons e' l =>
      obtain ⟨rfl, hl⟩ := List.cons.inj h
      simpa using hes l f r hl

theorem AreIdentified.append (h : AreIdentified before es)
    (h' : AreIdentified (before ++ es) fs) : AreIdentified before (es ++ fs) := by
  induction es generalizing before with
  | nil => simpa using h'
  | cons e es ih =>
    obtain ⟨he, hes⟩ := areIdentified_cons.1 h
    exact areIdentified_cons.2 ⟨he, ih hes (by simpa using h')⟩

/-- Counts of the widgets without written ids, stem by stem. -/
def AreCounted (counts : Ledger Nat) (es : List (Element α)) : Prop :=
  ∀ stem, (counts.get? stem).getD 0 = nameless stem es

/-- **One widget**: it gets the id that those before leave for it, and it is counted. -/
theorem identified_finishStep (templates : List (Template α)) {counts : Ledger Nat}
    (hcounts : AreCounted counts before) (hid : e.id = e.writtenId?) :
    (finishStep templates e counts).1.id
        = some ((finishStep templates e counts).1.idAfter before)
      ∧ AreCounted (finishStep templates e counts).2
          (before ++ [(finishStep templates e counts).1]) := by
  have htype := type_finishStep templates e counts
  obtain ⟨hsurface, hproperties⟩ := surface_properties_finishStep templates e counts
  have hwritten : (finishStep templates e counts).1.writtenId? = e.writtenId? := by
    rw [writtenId?, writtenId?, hproperties]
  have hstem : (finishStep templates e counts).1.stem = e.stem := by
    rw [stem, stem, hsurface, htype]
  have hown : (finishStep templates e counts).1.id = (withId e counts).1.id := by
    rw [finishStep, withTemplate]
    split <;> rfl
  cases hw : e.writtenId? with
  | some id =>
    rw [hw] at hid hwritten
    have hkept : withId e counts = (e, counts) := by rw [withId, hid]
    refine ⟨by rw [hown, hkept, idAfter, hwritten, hid]; rfl, fun s => ?_⟩
    rw [nameless_append, nameless_singleton_of_some hwritten, finishStep, hkept]
    exact hcounts s
  | none =>
    rw [hw] at hid hwritten
    have hnext : withId e counts
        = ({ e with id := some (numberedId e.stem ((counts.get? e.stem).getD 0 + 1)) },
          counts.insert e.stem ((counts.get? e.stem).getD 0 + 1)) := by
      rw [withId, hid]
      rfl
    refine ⟨?_, fun s => ?_⟩
    · rw [hown, hnext, idAfter, hwritten, hstem, hcounts]
      rfl
    · rw [nameless_append, nameless_singleton_of_none hwritten, hstem, finishStep, hnext,
        Ledger.get?_insert]
      by_cases hs : e.stem = s
      · rw [if_pos hs, if_pos hs, Option.getD_some, hcounts, hs]
      · rw [if_neg hs, if_neg hs, hcounts]
        rfl

/-- **All widgets of a forest** are numbered on. -/
theorem areIdentified_forestMapState (templates : List (Template α)) {ws : List (Widget α)}
    (hws : ∀ e ∈ Tree.forestLabels ws, e.id = e.writtenId?) {counts : Ledger Nat}
    {before : List (Element α)} (hcounts : AreCounted counts before) :
    AreIdentified before
        (Tree.forestLabels (Tree.forestMapState (finishStep templates) ws counts).1)
      ∧ AreCounted (Tree.forestMapState (finishStep templates) ws counts).2
        (before ++ Tree.forestLabels (Tree.forestMapState (finishStep templates) ws counts).1) := by
  induction ws using Tree.forest_induction generalizing counts before with
  | nil => exact ⟨areIdentified_nil, by simpa [Tree.forestMapState] using hcounts⟩
  | cons e below others ihbelow ihothers =>
    simp only [Tree.forestLabels_cons, List.mem_cons, List.mem_append] at hws
    obtain ⟨hid, hstep⟩ := identified_finishStep templates hcounts (hws e (.inl rfl))
    obtain ⟨hbelow, hcounted⟩ := ihbelow (fun f hf => hws f (.inr (.inl hf))) hstep
    obtain ⟨hothers, hrest⟩ := ihothers (fun f hf => hws f (.inr (.inr hf))) hcounted
    rw [Tree.forestMapState_nodeCons, Tree.forestLabels_cons]
    refine ⟨areIdentified_cons.2 ⟨hid, hbelow.append hothers⟩, ?_⟩
    simpa using hrest

/-- **All bodies of templates** are numbered on. -/
theorem areIdentified_finishTemplates (templates : List (Template α)) {ts : List (Template α)}
    (hts : ∀ t ∈ ts, ∀ e ∈ Tree.forestLabels t.children, e.id = e.writtenId?)
    {counts : Ledger Nat} {before : List (Element α)} (hcounts : AreCounted counts before) :
    AreIdentified before ((finishTemplates (finishStep templates) ts counts).flatMap
      fun t => Tree.forestLabels t.children) := by
  induction ts generalizing counts before with
  | nil => exact areIdentified_nil
  | cons t ts ih =>
    obtain ⟨hbody, hcounted⟩ := areIdentified_forestMapState templates
      (hts t List.mem_cons_self) hcounts
    rw [finishTemplates, List.flatMap_cons]
    exact hbody.append (ih (fun u hu => hts u (List.mem_cons_of_mem _ hu)) hcounted)

/-! ### Which ids are made -/

namespace AreIdentified

/-- A written id is the id. -/
theorem id_of_written (h : AreIdentified before es) (he : e ∈ es) {id : String}
    (hid : e.writtenId? = some id) : e.id = some id := by
  obtain ⟨l, r, rfl⟩ := List.append_of_mem he
  rw [h l e r rfl, idAfter, hid, Option.getD_some]

/-- A widget without a written id has a number of its stem that was not given before. -/
theorem exists_number (h : AreIdentified before es) (he : e ∈ es) (hid : e.writtenId? = none) :
    ∃ n, e.id = some (numberedId e.stem n) ∧ nameless e.stem before < n
      ∧ n ≤ nameless e.stem (before ++ es) := by
  obtain ⟨l, r, rfl⟩ := List.append_of_mem he
  refine ⟨nameless e.stem (before ++ l) + 1, by rw [h l e r rfl, idAfter, hid, Option.getD_none],
    ?_, ?_⟩
  · rw [nameless_append]
    omega
  · have hone := nameless_singleton_of_none hid e.stem
    rw [if_pos rfl] at hone
    have hcount := nameless_append e.stem [e] r
    rw [List.singleton_append] at hcount
    simp only [nameless_append, hcount]
    omega

/-- Every number up to the count of a stem is given. -/
theorem exists_of_number (h : AreIdentified before es) {stem : String} {n : Nat}
    (hlo : nameless stem before < n) (hhi : n ≤ nameless stem (before ++ es)) :
    ∃ e ∈ es, e.writtenId? = none ∧ e.id = some (numberedId stem n) := by
  induction es generalizing before with
  | nil =>
    rw [List.append_nil] at hhi
    omega
  | cons e es ih =>
    obtain ⟨he, hes⟩ := areIdentified_cons.1 h
    by_cases hnext : nameless stem (before ++ [e]) < n
    · obtain ⟨f, hf, hid⟩ := ih hes hnext (by simpa using hhi)
      exact ⟨f, List.mem_cons_of_mem _ hf, hid⟩
    · -- The count passes the number here, so this widget has it.
      rw [nameless_append] at hnext
      cases hw : e.writtenId? with
      | some id =>
        rw [nameless_singleton_of_some hw] at hnext
        omega
      | none =>
        rw [nameless_singleton_of_none hw] at hnext
        by_cases hs : e.stem = stem
        · rw [if_pos hs] at hnext
          have hn : n = nameless stem before + 1 := by omega
          refine ⟨e, List.mem_cons_self, hw, ?_⟩
          rw [he, idAfter, hw, Option.getD_none, hs, hn]
        · rw [if_neg hs] at hnext
          omega

/-- No two made ids are the same. -/
theorem nodup_made (h : AreIdentified before es) :
    ((es.filter fun e => e.writtenId?.isNone).map Element.id).Nodup := by
  induction es generalizing before with
  | nil => exact .nil
  | cons e es ih =>
    obtain ⟨he, hes⟩ := areIdentified_cons.1 h
    rw [List.filter_cons]
    split
    · next hw =>
      have hnone : e.writtenId? = none := Option.isNone_iff_eq_none.1 hw
      refine List.nodup_cons.2 ⟨fun hmem => ?_, ih hes⟩
      -- A later widget of the same stem has a greater number.
      obtain ⟨f, hf, hsame⟩ := List.mem_map.1 hmem
      obtain ⟨hf, hfw⟩ := List.mem_filter.1 hf
      obtain ⟨n, hid, hlo, -⟩ := hes.exists_number hf (Option.isNone_iff_eq_none.1 hfw)
      rw [hsame, he, idAfter, hnone, Option.getD_none] at hid
      obtain ⟨hstem, hn⟩ := numberedId_inj e.isLower_stem f.isLower_stem (Option.some.inj hid)
      have hone := nameless_singleton_of_none hnone f.stem
      rw [if_pos hstem] at hone
      rw [nameless_append] at hlo
      rw [hstem] at hn
      omega
    · exact ih hes

/-- The ids are the written ones and the made ones. -/
theorem perm_ids (h : AreIdentified before es) :
    (es.map Element.id).Perm ((es.filterMap writtenId?).map some
      ++ (es.filter fun e => e.writtenId?.isNone).map Element.id) := by
  induction es generalizing before with
  | nil => exact .refl _
  | cons e es ih =>
    obtain ⟨he, hes⟩ := areIdentified_cons.1 h
    cases hw : e.writtenId? with
    | some id =>
      have hid : e.id = some id := by rw [he, idAfter, hw, Option.getD_some]
      simpa [hw, hid] using ih hes
    | none => simpa [hw] using (ih hes).cons e.id |>.trans List.perm_middle.symm

end AreIdentified

end Element

/-! ### Documents -/

namespace Document

/-- A document whose widgets have their ids from their lines or from the numbering. -/
structure IdsAreGiven (d : Document α) : Prop where
  /-- Each widget has the written id, or the next number of its stem. -/
  given : ∀ before e after, d.elements = before ++ e :: after → e.id = some (e.idAfter before)
  /-- The made ids are distinct. -/
  made : ((d.elements.filter fun e => e.writtenId?.isNone).map Element.id).Nodup
  /-- The ids that are made are those with the numbers up to the count of a stem. -/
  numbered : ∀ id, (∃ e ∈ d.elements, e.writtenId? = none ∧ e.id = some id)
    ↔ ∃ stem n, 0 < n ∧ n ≤ Element.nameless stem d.elements ∧ id = numberedId stem n
  /-- All ids are there and not empty. -/
  nonempty : ∀ e ∈ d.elements, ∃ id, e.id = some id ∧ id ≠ ""
  /-- All ids are distinct just when no written one is among those that are made. -/
  distinct : (d.elements.map Element.id).Nodup
    ↔ ∀ e ∈ d.elements, ∀ stem n, 0 < n → n ≤ Element.nameless stem d.elements →
      e.writtenId? ≠ some (numberedId stem n)

/-- Whatever the text and the types known before, all widgets are numbered in order. -/
theorem areIdentified_read (registry : Registry) (text : String) :
    Element.AreIdentified [] (read (α := α) registry text).value.document.elements := by
  have hstored := isStored_readParts (α := α) (List.Sublist.refl (lines text)) registry
  have hstart : Element.AreCounted ({} : Ledger Nat) ([] : List (Element α)) := fun _ => rfl
  obtain ⟨hwidgets, hcounted⟩ := Element.areIdentified_forestMapState
    (readParts (α := α) (outline (lines text)) registry).templates
    (fun e he => (hstored.widgets e he).id_eq) hstart
  exact hwidgets.append (Element.areIdentified_finishTemplates _
    (fun t ht e he => (hstored.bodies t ht e he).id_eq) hcounted)

/-- **Ids**: whatever the text and the types known before, when the written ids are not empty and
distinct, all widgets have ids that are not empty; a made id is never made twice; and the ids are all
distinct just when no written id is one of those that the numbering makes. -/
theorem idsAreGiven_read (registry : Registry) (text : String)
    (hne : ∀ e ∈ (read (α := α) registry text).value.document.elements, e.writtenId? ≠ some "")
    (hnodup : ((read (α := α) registry text).value.document.elements.filterMap
      Element.writtenId?).Nodup) :
    (read (α := α) registry text).value.document.IdsAreGiven := by
  have h := areIdentified_read (α := α) registry text
  have hnumbered : ∀ id, (∃ e ∈ (read (α := α) registry text).value.document.elements,
      e.writtenId? = none ∧ e.id = some id)
        ↔ ∃ stem n, 0 < n ∧ n ≤ Element.nameless stem
          (read (α := α) registry text).value.document.elements ∧ id = numberedId stem n := by
    intro id
    constructor
    · rintro ⟨e, he, hw, hid⟩
      obtain ⟨n, hn, hlo, hhi⟩ := h.exists_number he hw
      rw [hid] at hn
      exact ⟨e.stem, n, hlo, hhi, Option.some.inj hn⟩
    · rintro ⟨stem, n, hlo, hhi, rfl⟩
      exact h.exists_of_number hlo hhi
  refine ⟨h, h.nodup_made, hnumbered, fun e he => ?_, ?_⟩
  · cases hw : e.writtenId? with
    | some id => exact ⟨id, h.id_of_written he hw, fun hid => hne e he (hid ▸ hw)⟩
    | none =>
      obtain ⟨n, hn, -, -⟩ := h.exists_number he hw
      exact ⟨_, hn, numberedId_ne_empty _ n⟩
  · rw [h.perm_ids.nodup_iff, List.nodup_append]
    constructor
    · rintro ⟨-, -, hapart⟩ e he stem n hlo hhi hw
      obtain ⟨f, hf, hfw, hid⟩ := (hnumbered _).2 ⟨stem, n, hlo, hhi, rfl⟩
      refine hapart _ (List.mem_map_of_mem (List.mem_filterMap.2 ⟨e, he, hw⟩)) f.id
        (List.mem_map_of_mem (List.mem_filter.2 ⟨hf, by simp [hfw]⟩)) hid.symm
    · intro hfree
      refine ⟨hnodup.map fun _ _ => Option.some.inj, h.nodup_made, fun x hx y hy hxy => ?_⟩
      obtain ⟨id, hid, rfl⟩ := List.mem_map.1 hx
      obtain ⟨e, he, hw⟩ := List.mem_filterMap.1 hid
      obtain ⟨f, hf, rfl⟩ := List.mem_map.1 hy
      obtain ⟨hf, hfw⟩ := List.mem_filter.1 hf
      obtain ⟨stem, n, hlo, hhi, rfl⟩ := (hnumbered id).1
        ⟨f, hf, Option.isNone_iff_eq_none.1 hfw, hxy.symm⟩
      exact hfree e he stem n hlo hhi hw

/-- A text where a label has an id with a greater number than the other labels get. -/
def numberedLabels : String := "Panel\n  Label\n    id: label_3\n  Label\n  Label\n"

/-- All its ids are given. -/
theorem idsAreGiven_read_numberedLabels :
    (read (α := Float) Registry.packaged numberedLabels).value.document.elements.map Element.writtenId?
        = [none, some "label_3", none, none]
      ∧ (read (α := Float) Registry.packaged numberedLabels).value.document.IdsAreGiven := by
  refine ⟨by decide +kernel, idsAreGiven_read _ _ (by decide +kernel) (by decide +kernel)⟩

/-- A text where the id of a panel is the first that is made for buttons. -/
def takenNumber : String := "Panel\n  id: button_1\n  Button\n"

/-- The panel and the button have the same id, although there is only one written id. -/
theorem not_nodup_ids_takenNumber :
    (read (α := Float) Registry.packaged takenNumber).value.document.elements.filterMap
        Element.writtenId? = ["button_1"]
      ∧ ¬ ((read (α := Float) Registry.packaged takenNumber).value.document.elements.map
        Element.id).Nodup := by
  constructor
  · decide +kernel
  · decide +kernel

end Document

end Otui
