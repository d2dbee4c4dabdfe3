import Otui.Proofs.ReadBack

/-!
# Blocks that stay as they are

A written value is written again as it stands (`writtenValue_writtenValue`), and the keys of written
lines are clear of one another. Lines of this kind are `AreSettled`, and a block of such lines with a
plain id is `IsSettled`. A block that was written for a widget that was read is settled, and what is
read back from a settled block is written as the same block again (`said_of_isSettled`).
-/

namespace Otui

open Otui.Text Otui.Document

variable {α : Type} {lines : List Line}

/-! ### Written values -/

namespace Translation

theorem afterCall?_call (cs : List Char) : afterCall? ('t' :: 'r' :: '(' :: cs) = some cs := by
  simp [afterCall?, trimStartChars_cons (show isBlank '(' = false by decide)]

theorem trimChars_call (cs : List Char) :
    trimChars ('t' :: 'r' :: '(' :: (cs ++ [')'])) = 't' :: 'r' :: '(' :: (cs ++ [')']) :=
  @trimChars_eq_self ('r' :: '(' :: cs) 't' (by decide) ')' (by decide)

/-- A value as a call is a call, unless there is nothing to say. -/
theorem wrap_cases (value : String) :
    wrap value = "" ∨ ∃ cs, (wrap value).toList = cs ∧ trimChars cs = cs
      ∧ (afterCall? cs).isSome = true := by
  unfold wrap
  split
  · exact .inl rfl
  · right
    simp only
    split
    · next h => exact ⟨_, rfl, by rw [String.toList_ofList, trimChars_trimChars], by simpa using h⟩
    · split
      · refine ⟨_, rfl, ?_, ?_⟩ <;>
          simp only [String.toList_append, String.toList_ofList]
        · exact trimChars_call (trimChars value.toList)
        · exact congrArg Option.isSome (afterCall?_call _)
      · refine ⟨_, rfl, ?_, ?_⟩ <;>
          simp only [String.toList_append, String.toList_ofList]
        · simpa using trimChars_call ('\'' :: (escape value.toList ++ ['\'']))
        · exact congrArg Option.isSome (afterCall?_call _)

theorem trim_wrap (value : String) : trim (wrap value) = wrap value := by
  rcases wrap_cases value with h | ⟨cs, hcs, htrim, -⟩
  · rw [h]
    decide
  · rw [trim, hcs, htrim, ← hcs, String.ofList_toList]

/-- A call is not wrapped again. -/
theorem wrap_wrap (value : String) : wrap (wrap value) = wrap value := by
  rcases wrap_cases value with h | ⟨cs, hcs, htrim, hcall⟩
  · rw [h]
    decide
  · have hne : (wrap value == "") = false := by
      rw [beq_eq_false_iff_ne]
      intro he
      rw [he] at hcs
      rw [← hcs] at hcall
      revert hcall
      decide
    rw [wrap.eq_def (wrap value)]
    simp only [hcs, htrim, hcall, hne, Bool.false_eq_true, if_false, if_true]
    rw [← hcs, String.ofList_toList]

theorem mem_of_mem_escape {c : Char} {cs : List Char} (h : c ∈ escape cs) : c = '\\' ∨ c ∈ cs := by
  induction cs with
  | nil => cases h
  | cons d cs ih =>
    rw [escape] at h
    split at h
    · simp only [List.mem_cons] at h ⊢
      rcases h with rfl | rfl | h
      · exact .inl rfl
      · exact .inr (.inl rfl)
      · exact (ih h).imp_right .inr
    · simp only [List.mem_cons] at h ⊢
      rcases h with rfl | h
      · exact .inr (.inl rfl)
      · exact (ih h).imp_right .inr

theorem onOneLine_wrap {value : String} (h : OnOneLine value) : OnOneLine (wrap value) := by
  have htrim : '\n' ∉ trimChars value.toList := fun hm => h (mem_of_mem_trimChars hm)
  have hescape : '\n' ∉ escape value.toList := fun hm =>
    (mem_of_mem_escape hm).elim (by decide) h
  unfold wrap OnOneLine
  split
  · simp
  · simp only
    split
    · rwa [String.toList_ofList]
    · split <;> simp [htrim, hescape]

end Translation

namespace Document.Block

theorem trim_writtenValue {value : String} (h : trim value = value) (key : String) :
    trim (writtenValue key value) = writtenValue key value := by
  unfold writtenValue
  split
  · exact Translation.trim_wrap value
  · exact h

/-- A written value is written as it stands. -/
theorem writtenValue_writtenValue (key value : String) :
    writtenValue key (writtenValue key value) = writtenValue key value := by
  unfold writtenValue
  split
  · exact Translation.wrap_wrap value
  · rfl

theorem onOneLine_writtenValue {value : String} (h : OnOneLine value) (key : String) :
    OnOneLine (writtenValue key value) := by
  unfold writtenValue
  split
  · exact Translation.onOneLine_wrap h
  · exact h

end Document.Block

/-! ### Property lines -/

/-- A written property line. -/
def pairSaid (p : String × String) : Said := .property p.1 p.2

/-- Property lines that reading and writing leave as they are. -/
structure AreSettled (ps : List (String × String)) : Prop where
  /-- The keys are keys. -/
  keys : ∀ p ∈ ps, IsKey p.1 ∧ Key.stored p.1 ≠ ""
  /-- The values are trimmed, on one line, and written as they stand. -/
  values : ∀ p ∈ ps, OnOneLine p.2 ∧ trim p.2 = p.2 ∧ Block.writtenValue p.1 p.2 = p.2
  /-- No line is dropped for another one. -/
  clear : (ps.map Prod.fst).Pairwise Key.Clear

namespace OwnLine

/-- The key and the value that are written for a line. -/
def written (l : OwnLine) : String × String := (l.key, Block.writtenValue l.key l.raw)

theorem Unblocked.sublist {ls ks : List OwnLine} (h : Unblocked ls) (hs : ks.Sublist ls) :
    Unblocked ks :=
  ⟨fun l hl => h.named l (hs.subset hl), h.passes.sublist hs⟩

theorem Unblocked.stored_ne_empty {ls : List OwnLine} (h : Unblocked ls) {l : OwnLine}
    (hl : l ∈ ls) : Key.stored l.key ≠ "" := by
  cases hp : Key.parts? l.key with
  | none => exact h.named l hl _ (by rw [Key.taken_of_none hp]; simp)
  | some ab =>
    obtain ⟨first, second⟩ := ab
    rw [Key.stored_compound hp]
    rcases Key.parts?_eq_some hp with ⟨he, -, -⟩ | ⟨he, -, -⟩ <;> rw [he] <;> decide

/-- The lines that are kept of lines that were read are settled. -/
theorem areSettled_kept {ls : List OwnLine} (h : Unblocked ls) (hs : ∀ l ∈ ls, l.IsSound) :
    AreSettled ((keptFrom [] ls).map written) where
  keys p hp := by
    obtain ⟨l, hl, rfl⟩ := List.mem_map.1 hp
    have hl' := (keptFrom_sublist [] ls).subset hl
    exact ⟨(hs l hl').isKey, h.stored_ne_empty hl'⟩
  values p hp := by
    obtain ⟨l, hl, rfl⟩ := List.mem_map.1 hp
    obtain ⟨-, hraw, htrim, -⟩ := hs l ((keptFrom_sublist [] ls).subset hl)
    exact ⟨Block.onOneLine_writtenValue hraw l.key, Block.trim_writtenValue htrim l.key,
      Block.writtenValue_writtenValue l.key l.raw⟩
  clear := by
    rw [List.map_map]
    exact pairwise_clear_kept h []

/-- The key and the value as they were read. -/
def asRead (l : OwnLine) : String × String := (l.key, l.raw)

end OwnLine

namespace AreSettled

variable {ps : List (String × String)} {ms : List OwnLine}

/-- Settled lines are read as they are written. -/
theorem eq_of_readsAs (h : AreSettled ps)
    (hr : List.Forall₂ Said.ReadsAs (ps.map pairSaid) ms) :
    ms.map OwnLine.asRead = ps ∧ ∀ m ∈ ms, m.value = stripQuotes m.raw := by
  have hvalues := h.values
  clear h
  induction ps generalizing ms with
  | nil =>
    cases hr
    simp
  | cons p ps ih =>
    cases hr with
    | @cons _ m _ ms hm hr =>
      obtain ⟨hps, hv⟩ := ih hr fun q hq => hvalues q (by simp [hq])
      obtain ⟨-, htrim, -⟩ := hvalues p (by simp)
      obtain ⟨hkey, hvalue, hraw⟩ : p.1 = m.key ∧ stripQuotes (trim p.2) = m.value
          ∧ trim p.2 = m.raw := by
        simpa [Said.ReadsAs, pairSaid, Said.content, Content.ofColon, OwnLine.content] using hm
      rw [htrim] at hvalue hraw
      refine ⟨by rw [List.map_cons, hps, OwnLine.asRead, ← hkey, ← hraw], fun k hk => ?_⟩
      rcases List.mem_cons.1 hk with rfl | hk
      · rw [← hvalue, hraw]
      · exact hv k hk

variable (h : AreSettled ps) (hms : ms.map OwnLine.asRead = ps)

include h hms

/-- Settled lines are written as they are. -/
theorem map_written : ms.map OwnLine.written = ps := by
  rw [← hms]
  refine List.map_congr_left fun m hm => ?_
  have hmem : m.asRead ∈ ps := hms ▸ List.mem_map.2 ⟨m, hm, rfl⟩
  exact congrArg (Prod.mk m.key) (h.values _ hmem).2.2

theorem clear_keys : (ms.map OwnLine.key).Pairwise Key.Clear := by
  have hkeys : ms.map OwnLine.key = ps.map Prod.fst := by
    rw [← hms, List.map_map]
    rfl
  exact hkeys ▸ h.clear

theorem stored_ne_empty : ∀ m ∈ ms, Key.stored m.key ≠ "" := by
  intro m hm
  have hmem : m.asRead ∈ ps := hms ▸ List.mem_map.2 ⟨m, hm, rfl⟩
  exact (h.keys _ hmem).2

/-- Settled lines all count. -/
theorem counted_eq : Properties.counted {} ms = ms :=
  Properties.counted_empty (OwnLine.unblocked_of_clear (h.stored_ne_empty hms) (h.clear_keys hms))

/-- Settled lines are all kept. -/
theorem keptFrom_eq : OwnLine.keptFrom [] ms = ms :=
  OwnLine.keptFrom_of_clear (h.clear_keys hms)

/-- An id in front of settled lines makes none of them be dropped. -/
theorem counted_cons_eq (hid : ∀ p ∈ ps, Key.stored p.1 ≠ "id") {m : OwnLine} (hm : m.key = "id") :
    Properties.counted {} (m :: ms) = m :: ms := by
  have hstored : Key.stored "id" = "id" := by decide
  refine Properties.counted_empty (OwnLine.unblocked_of_clear ?_ ?_)
  · intro k hk
    rcases List.mem_cons.1 hk with rfl | hk
    · rw [hm, hstored]
      decide
    · exact h.stored_ne_empty hms k hk
  · rw [List.map_cons, List.pairwise_cons]
    refine ⟨fun key hkey => ?_, h.clear_keys hms⟩
    obtain ⟨k, hk, rfl⟩ := List.mem_map.1 hkey
    rw [hm]
    exact OwnLine.clear_id (hid k.asRead (hms ▸ List.mem_map.2 ⟨k, hk, rfl⟩))

end AreSettled

/-! ### Blocks of templates -/

/-- A block of a template that reading and writing leave as it is. -/
def IsSettledTemplate (b : List Said) : Prop :=
  ∃ name base ps, b = .header name (some base) :: ps.map pairSaid ∧ IsWidgetName name
    ∧ isTypeName base.toList = true ∧ AreSettled ps

/-- The block of a template that was read is settled. -/
theorem Template.ReadFrom.isSettled {t : Template α} {ls : List OwnLine} (h : t.ReadFrom lines ls)
    (hs : ∀ k ∈ lines, k.content.IsSound) : IsSettledTemplate t.said := by
  refine ⟨t.name, t.base, _, ?_, h.name, h.base,
    OwnLine.areSettled_kept h.properties.unblocked (h.properties.isSound hs)⟩
  rw [h.said_eq hs, List.map_map]
  rfl

/-- A template that is read back from a settled block is written as the same block. -/
theorem Template.Rereads.said_eq {t : Template α} {b : List Said} {ms : List OwnLine}
    (h : t.Rereads lines b ms) (hs : ∀ k ∈ lines, k.content.IsSound) (hb : IsSettledTemplate b) :
    t.said = b := by
  obtain ⟨props, hprops, hms⟩ := h.block
  obtain ⟨name, base, ps, rfl, -, -, hps⟩ := hb
  obtain ⟨hheader, rfl⟩ := List.cons.inj hprops
  obtain ⟨hasRead, -⟩ := hps.eq_of_readsAs hms
  have hread := h.read
  rw [hps.counted_eq hasRead] at hread
  rw [hread.said_eq hs, hps.keptFrom_eq hasRead, hheader, ← hps.map_written hasRead, List.map_map]
  rfl

/-! ### Events -/

/-- Whether property lines have the key of an event. -/
def sayEvents (ps : List (String × String)) : Bool :=
  ps.any fun p => startsWith "@" (Key.stored p.1)

theorem Key.not_startsWith_event {front key : String} {c : Char} {cs : List Char}
    (hf : front.toList = c :: cs) (hc : c ≠ '@') (h : startsWith front key = true) :
    startsWith "@" key = false := by
  rw [Bool.eq_false_iff]
  intro he
  obtain ⟨s, rfl⟩ := Key.exists_of_startsWith he
  obtain ⟨ds, hds⟩ := List.isPrefixOf_iff_prefix.1 h
  rw [hf, String.toList_append] at hds
  exact hc (List.cons.inj hds).1

/-- Compound keys and their parts are no events. -/
theorem Key.compound_no_event {key first second : String}
    (h : Key.parts? key = some (first, second)) :
    ∀ k ∈ [key, first, second], startsWith "@" k = false := by
  rcases Key.parts?_eq_some h with ⟨rfl, rfl, rfl⟩ | ⟨rfl, rfl, rfl⟩ <;> decide

theorem Key.parts?_of_event {key : String} (h : startsWith "@" key = true) :
    Key.parts? key = none := by
  cases hp : Key.parts? key with
  | none => rfl
  | some ab =>
    obtain ⟨first, second⟩ := ab
    rw [Key.compound_no_event hp key (by simp)] at h
    cases h

/-- A block with the key of an event has a line for it. -/
theorem OwnLine.event_mem_covers {l : OwnLine} {key : String} (h : startsWith "@" key = true)
    (hk : key ∈ l.covers) : Key.stored l.key = key := by
  rw [covers] at hk
  cases hp : Key.parts? (Key.stored l.key) with
  | none =>
    rw [Block.covered_of_none hp, List.mem_singleton] at hk
    refine Key.eq_of_spelling_eq ?_ hk.symm
    rw [Bool.eq_false_iff]
    intro ha
    rw [Key.not_startsWith_event (c := 'a') rfl (by decide) ha] at h
    cases h
  | some ab =>
    obtain ⟨first, second⟩ := ab
    rw [Block.covered_of_some hp] at hk
    rw [Key.compound_no_event hp key hk] at h
    cases h

namespace Element.ReadFrom

variable {e : Element α} {ls : List OwnLine}

theorem hasEvents_iff (h : e.ReadFrom lines ls) :
    e.hasEvents = true ↔ ∃ l ∈ ls, startsWith "@" (Key.stored l.key) = true := by
  rw [Element.hasEvents, Properties.hasEvents, h.properties.lines_eq, Ledger.keys_eq,
    h.properties.entries_eq]
  simp only [Bool.or_eq_true, List.any_eq_true, List.mem_map, List.mem_flatMap]
  constructor
  · rintro (⟨key, ⟨p, ⟨l, hl, hp⟩, rfl⟩, hk⟩ | ⟨_, ⟨l, hl, rfl⟩, hk⟩)
    · refine ⟨l, hl, ?_⟩
      have htaken := OwnLine.keys_pairs_subset l (List.mem_map.2 ⟨p, hp, rfl⟩)
      cases hparts : Key.parts? l.key with
      | none =>
        rw [Key.taken_of_none hparts, List.mem_singleton] at htaken
        rwa [← htaken]
      | some ab =>
        obtain ⟨first, second⟩ := ab
        rw [Key.taken_of_some hparts] at htaken
        rw [Key.compound_no_event hparts p.1 (List.mem_cons_of_mem _ htaken)] at hk
        cases hk
    · refine ⟨l, hl, ?_⟩
      rw [OwnLine.entry_key] at hk
      rwa [Key.stored_of_startsWith (c := '@') rfl (by decide) hk]
  · rintro ⟨l, hl, hk⟩
    have hparts : Key.parts? l.key = none := by
      cases hp : Key.parts? l.key with
      | none => rfl
      | some ab =>
        obtain ⟨first, second⟩ := ab
        rw [Key.stored_compound hp] at hk
        rw [← hp, Key.parts?_of_event hk]
    have hpair : (Key.stored l.key, l.value) ∈ l.pairs := by
      rw [OwnLine.pairs_of_none hparts]
      exact List.mem_singleton_self _
    exact .inl ⟨Key.stored l.key, ⟨(Key.stored l.key, l.value), ⟨l, hl, hpair⟩, rfl⟩, hk⟩

/-- Whether a widget has events can be seen from the lines that are kept. -/
theorem hasEvents_eq (h : e.ReadFrom lines ls) :
    e.hasEvents
      = sayEvents ((OwnLine.keptFrom [] (OwnLine.others ls)).map OwnLine.written) := by
  rw [Bool.eq_iff_iff, h.hasEvents_iff, sayEvents, List.any_map, List.any_eq_true]
  constructor
  · rintro ⟨l, hl, hk⟩
    have hid : Key.stored l.key ≠ "id" := by
      intro he
      rw [he] at hk
      revert hk
      decide
    have hmem := @OwnLine.spelling_mem_keptFrom [] _ _ (OwnLine.mem_others.2 ⟨hl, hid⟩)
    have hanchor : Key.isAnchor (Key.stored l.key) = false := by
      rw [Bool.eq_false_iff]
      intro ha
      rw [Key.not_startsWith_event (c := 'a') rfl (by decide) ha] at hk
      cases hk
    rw [List.nil_append, Key.spelling_of_not_isAnchor hanchor] at hmem
    obtain ⟨m, hm, hcovers⟩ := List.mem_flatMap.1 hmem
    refine ⟨m, hm, ?_⟩
    have hstored := OwnLine.event_mem_covers hk hcovers
    simpa [OwnLine.written, hstored] using hk
  · rintro ⟨l, hl, hk⟩
    have hl' := (OwnLine.keptFrom_sublist [] _).subset hl
    exact ⟨l, (OwnLine.mem_others.1 hl').1, hk⟩

end Element.ReadFrom

/-! ### Blocks of widgets -/

namespace OwnLine

theorem others_eq_self {ms : List OwnLine} (h : ∀ m ∈ ms, Key.stored m.key ≠ "id") :
    others ms = ms :=
  List.filter_eq_self.2 fun m hm => by simpa using h m hm

theorem others_cons_of_id {m : OwnLine} (h : Key.stored m.key = "id") (ms : List OwnLine) :
    others (m :: ms) = others ms := by
  simp [others, h]

end OwnLine

/-- A block as it is written for a widget that was read: a header, perhaps an id, and settled
property lines. The id is there for a root, for a widget with events, and when it does not look
generated. -/
def IsRegular (isRoot : Bool) (b : List Said) : Prop :=
  ∃ name ids ps, b = .header name none :: (ids ++ ps.map pairSaid) ∧ IsWidgetName name
    ∧ AreSettled ps ∧ (∀ p ∈ ps, Key.stored p.1 ≠ "id")
    ∧ (ids = [] ∧ (isRoot || sayEvents ps) = false
      ∨ ∃ v, ids = [.id v] ∧ OnOneLine v ∧ (isRoot || sayEvents ps || !looksGenerated v) = true)

namespace Element

variable {templates : List (Template α)} {e : Element α}

/-- The block of a widget that was read is regular. -/
theorem IsFinished.isRegular (h : e.IsFinished lines templates)
    (hs : ∀ k ∈ lines, k.content.IsSound) (isRoot : Bool) : IsRegular isRoot (e.said isRoot) := by
  obtain ⟨ls, hr⟩ := h.read
  obtain ⟨id, hid⟩ := h.id
  obtain ⟨name, hname, hwidget⟩ := hr.surface
  have hunblocked : OwnLine.Unblocked (OwnLine.others ls) :=
    hr.properties.unblocked.sublist (OwnLine.others_sublist ls)
  have hsound : ∀ l ∈ OwnLine.others ls, l.IsSound := fun l hl =>
    hr.properties.isSound hs l (OwnLine.mem_others.1 hl).1
  have htext : textOrEmpty e.id = id := by rw [hid]; rfl
  have hsurface : textOrEmpty e.surface = name := by rw [hname]; rfl
  refine ⟨textOrEmpty e.surface, if writesId isRoot e then [.id (textOrEmpty e.id)] else [],
    (OwnLine.keptFrom [] (OwnLine.others ls)).map OwnLine.written, ?_, hsurface ▸ hwidget,
    OwnLine.areSettled_kept hunblocked hsound, fun p hp => ?_, ?_⟩
  · rw [h.said_eq hs hr, List.map_map]
    rfl
  · obtain ⟨l, hl, rfl⟩ := List.mem_map.1 hp
    exact (OwnLine.mem_others.1 ((OwnLine.keptFrom_sublist [] _).subset hl)).2
  · rw [← hr.hasEvents_eq, htext]
    by_cases hw : writesId isRoot e = true
    · refine .inr ⟨id, by rw [if_pos hw], hr.id id hid, ?_⟩
      rwa [writesId, htext] at hw
    · refine .inl ⟨by rw [if_neg hw], ?_⟩
      rw [writesId, htext, Bool.not_eq_true, Bool.or_eq_false_iff] at hw
      exact hw.1

/-- What a widget is like that was read back from a regular block: it has the lines of the block,
and the id that the block says or one that looks generated. -/
theorem Rereads.of_isRegular {b : List Said} {ms : List OwnLine} {isRoot : Bool}
    (h : e.Rereads lines b ms) (hb : IsRegular isRoot b) :
    ∃ ids ps ls, b = .header (textOrEmpty e.surface) none :: (ids ++ ps.map pairSaid)
      ∧ AreSettled ps ∧ e.ReadFrom lines ls ∧ (OwnLine.others ls).map OwnLine.asRead = ps
      ∧ (∀ l ∈ OwnLine.others ls, l.value = stripQuotes l.raw)
      ∧ (ids = [] ∧ (∃ v, e.id = some v ∧ IsGenerated v) ∧ (isRoot || sayEvents ps) = false
        ∨ ∃ v, ids = [.id v] ∧ e.id = some (stripQuotes (trim v))
          ∧ (isRoot || sayEvents ps || !looksGenerated v) = true) := by
  obtain ⟨props, hprops, hms⟩ := h.block
  obtain ⟨name, ids, ps, rfl, -, hps, hid, hids⟩ := hb
  obtain ⟨hheader, rfl⟩ := List.cons.inj hprops
  have hread := h.read
  have hstored : ∀ {ks : List OwnLine}, ks.map OwnLine.asRead = ps →
      ∀ k ∈ ks, Key.stored k.key ≠ "id" := fun hks k hk =>
    hid k.asRead (hks ▸ List.mem_map.2 ⟨k, hk, rfl⟩)
  have hidkey : Key.stored "id" = "id" := by decide
  rcases hids with ⟨rfl, hnone⟩ | ⟨v, rfl, -, hsome⟩
  · obtain ⟨hasRead, hvalues⟩ := hps.eq_of_readsAs hms
    have hothers := OwnLine.others_eq_self (hstored hasRead)
    rw [hps.counted_eq hasRead] at hread
    have hgen := h.id_of_not_mem fun m hm he => by
      rw [hps.counted_eq hasRead] at hm
      exact hstored hasRead m hm (by rw [he, hidkey])
    refine ⟨[], ps, ms, by rw [hheader], hps, hread, by rw [hothers, hasRead], ?_,
      .inl ⟨rfl, hgen, hnone⟩⟩
    rwa [hothers]
  · cases hms with
    | @cons _ m _ ms hm hms =>
      obtain ⟨hasRead, hvalues⟩ := hps.eq_of_readsAs hms
      obtain ⟨hkey, hvalue, -⟩ : "id" = m.key ∧ stripQuotes (trim v) = m.value ∧ trim v = m.raw := by
        simpa [Said.ReadsAs, Said.content, Content.ofColon, OwnLine.content] using hm
      have hothers : OwnLine.others (m :: ms) = ms := by
        rw [OwnLine.others_cons_of_id (by rw [← hkey, hidkey]),
          OwnLine.others_eq_self (hstored hasRead)]
      rw [hps.counted_cons_eq hasRead hid hkey.symm] at hread
      refine ⟨[.id v], ps, m :: ms, by rw [hheader], hps, hread, by rw [hothers, hasRead], ?_,
        .inr ⟨v, rfl, ?_, hsome⟩⟩
      · rwa [hothers]
      · rw [hvalue]
        exact h.id_of_cons m ms rfl hkey.symm

end Element

/-! ### Plain ids -/

/-- An id that is read back as it was written. -/
structure IsPlainId (id : String) : Prop where
  /-- It is not empty. -/
  ne_empty : id ≠ ""
  /-- There is no white space around it. -/
  trimmed : trim id = id
  /-- It is not in quotes. -/
  unquoted : insideQuotes? id.toList = none

instance (id : String) : Decidable (IsPlainId id) :=
  decidable_of_iff (id ≠ "" ∧ trim id = id ∧ insideQuotes? id.toList = none)
    ⟨fun h => ⟨h.1, h.2.1, h.2.2⟩, fun h => ⟨h.1, h.2, h.3⟩⟩

theorem IsPlainId.read_eq {id : String} (h : IsPlainId id) : stripQuotes (trim id) = id := by
  rw [h.trimmed, stripQuotes_of_none h.unquoted]

/-- A block of a widget that reading and writing leave as it is. -/
structure IsSettled (isRoot : Bool) (b : List Said) : Prop where
  /-- The block is regular. -/
  regular : IsRegular isRoot b
  /-- Its id is plain. -/
  plain : ∀ v, Said.id v ∈ b → IsPlainId v

namespace Element

variable {templates : List (Template α)} {e : Element α}

/-- The block of a widget that was read is settled when the id is plain. -/
theorem IsFinished.isSettled (h : e.IsFinished lines templates)
    (hs : ∀ k ∈ lines, k.content.IsSound) (hid : ∀ id ∈ e.id, IsPlainId id) (isRoot : Bool) :
    IsSettled isRoot (e.said isRoot) := by
  refine ⟨h.isRegular hs isRoot, fun v hv => ?_⟩
  obtain ⟨ls, hr⟩ := h.read
  obtain ⟨id, hid'⟩ := h.id
  rw [h.said_eq hs hr, hid'] at hv
  have hsame : v = id := by
    simp only [List.cons_append, List.mem_cons, reduceCtorEq, false_or, List.mem_append,
      List.mem_map] at hv
    rcases hv with hv | ⟨l, -, hl⟩
    · split at hv
      · rw [List.mem_singleton] at hv
        exact Said.id.inj hv
      · cases hv
    · cases hl
  exact hsame ▸ hid id hid'

/-- A widget that is read back from a settled block has an id. -/
theorem Rereads.id_ne_empty {b : List Said} {ms : List OwnLine} {isRoot : Bool}
    (h : e.Rereads lines b ms) (hb : IsSettled isRoot b) : textOrEmpty e.id ≠ "" := by
  obtain ⟨ids, _, _, rfl, -, -, -, -, hids⟩ := h.of_isRegular hb.regular
  rcases hids with ⟨-, ⟨v, hv, hgen⟩, -⟩ | ⟨v, rfl, hv, -⟩
  · rw [hv, textOrEmpty, Option.getD_some]
    rintro rfl
    have := hgen.1
    revert this
    decide
  · have hplain := hb.plain v (by simp)
    rw [hv, hplain.read_eq]
    exact hplain.ne_empty

/-- A widget that is read back from a settled block is written as the same block. -/
theorem Rereads.said_eq {b : List Said} {ms : List OwnLine} {isRoot : Bool}
    (h : e.Rereads lines b ms) (hf : e.IsFinished lines templates)
    (hs : ∀ k ∈ lines, k.content.IsSound) (hb : IsSettled isRoot b) : e.said isRoot = b := by
  obtain ⟨ids, ps, ls, rfl, hps, hread, hasRead, -, hids⟩ := h.of_isRegular hb.regular
  have hwritten := hps.map_written hasRead
  have hevents := hread.hasEvents_eq
  rw [hps.keptFrom_eq hasRead, hwritten] at hevents
  have hline : (if writesId isRoot e then [Said.id (textOrEmpty e.id)] else []) = ids := by
    rw [writesId, hevents]
    rcases hids with ⟨rfl, ⟨v, hv, hgen⟩, hnone⟩ | ⟨v, rfl, hv, hsome⟩
    · rw [hnone, hv, textOrEmpty, Option.getD_some, hgen.1]
      rfl
    · rw [hv, (hb.plain v (by simp)).read_eq, textOrEmpty, Option.getD_some, if_pos hsome]
  rw [hf.said_eq hs hread, hline, hps.keptFrom_eq hasRead, ← hwritten, List.map_map]
  rfl

end Element

end Otui
