import Otui.Proofs.BroughtTemplates

/-!
# What an instance keeps through a template that it brings

The template that an instance brings has the property lines of the instance, or its stored
properties when it has no lines. What of these comes back when the template is written and read
depends on how they are spelled: `Properties.LinesReadBack` and `Properties.ValuesReadBack` say when
a line, or a stored property, is read as what is stored. The properties of an instance with its
template applied are kept by a copy of the instance with a copy of the template that it brings
applied, as far as these conditions go (`Properties.IsKeptBy`): `isKeptBy_of_isCopy`.
-/

namespace Otui

open Otui.Text Otui.Document

variable {α : Type} {lines lines' : List Line}

/-! ### What written lines store -/

/-- What a property line stores when it is read as it was written. -/
def storedBy (q : String × String) : List (String × String) :=
  OwnLine.pairs (q.1, stripQuotes q.2, q.2, 0)

/-- Lines that were read back store what they were written with. -/
theorem flatMap_pairs_eq {ps : List (String × String)} {ms : List OwnLine}
    (hms : ms.map OwnLine.asRead = ps) (hvalues : ∀ m ∈ ms, m.value = stripQuotes m.raw) :
    ms.flatMap OwnLine.pairs = ps.flatMap storedBy := by
  rw [← hms, List.flatMap_map]
  refine List.flatMap_congr fun m hm => ?_
  have hvalue : m.2.1 = stripQuotes m.raw := hvalues m hm
  simp only [storedBy, OwnLine.pairs, OwnLine.asRead, OwnLine.key, OwnLine.value, hvalue]

/-- The lines for stored properties store these and nothing else. -/
theorem Properties.AreTellable.mem_flatMap_storedBy {p : Properties} (h : p.AreTellable)
    {ps : List (String × String)}
    (hps : ∀ q, q ∈ ps ↔ ∃ f ∈ p.values.entries, storedLine p.values f = q)
    (f : String × String) :
    f ∈ (ps.map (keyedLine p.written)).flatMap storedBy ↔ f ∈ p.values.entries := by
  let asLine (q : String × String) : OwnLine := (q.1, stripQuotes q.2, q.2, 0)
  have hread : ((ps.map (keyedLine p.written)).map asLine).map OwnLine.asRead
      = ps.map (keyedLine p.written) := by
    rw [List.map_map]
    exact List.map_id _
  have hvalues : ∀ m ∈ (ps.map (keyedLine p.written)).map asLine, m.value = stripQuotes m.raw := by
    intro m hm
    obtain ⟨q, -, rfl⟩ := List.mem_map.1 hm
    rfl
  rw [← flatMap_pairs_eq hread hvalues]
  exact h.mem_flatMap_pairs hps hread hvalues f

/-- A template that was read back has what its property lines store. -/
theorem Template.Rereads.get?_eq_some_iff {t : Template α} {b : List Said} {ms : List OwnLine}
    (h : t.Rereads lines b ms) {header : Said} {ps : List (String × String)}
    (hb : b = header :: ps.map pairSaid) (hps : AreSettled ps) {k v : String} :
    t.properties.values.get? k = some v ↔ (k, v) ∈ ps.flatMap storedBy := by
  obtain ⟨props, hprops, hms⟩ := h.block
  rw [hb, List.cons.injEq] at hprops
  obtain ⟨-, rfl⟩ := hprops
  obtain ⟨hasRead, hvalues⟩ := hps.eq_of_readsAs hms
  have hread := h.read
  rw [hps.counted_eq hasRead] at hread
  rw [Ledger.get?_eq_some_iff, hread.properties.entries_eq, flatMap_pairs_eq hasRead hvalues]

/-- A widget that was read back has what its property lines store, the id apart. -/
theorem Element.Rereads.get?_eq_some_iff {e copy : Element α} {isRoot : Bool} {ms : List OwnLine}
    (h : copy.Rereads lines (e.said isRoot) ms) {ps : List (String × String)}
    (hbody : e.bodyBlock.lines = ps.map pairSaid) (hps : AreSettled ps)
    (hid : ∀ q ∈ ps, Key.stored q.1 ≠ "id") {k v : String} (hk : k ≠ "id") :
    copy.properties.values.get? k = some v ↔ (k, v) ∈ ps.flatMap storedBy := by
  obtain ⟨props, hprops, hms⟩ := h.block
  rw [Element.said_eq_cons, hbody, List.cons.injEq] at hprops
  obtain ⟨-, rfl⟩ := hprops
  have hread := h.read
  split at hms
  · -- the id comes first, and stores nothing but the id
    cases hms with
    | @cons _ m _ ms hm hms =>
      obtain ⟨hasRead, hvalues⟩ := hps.eq_of_readsAs hms
      obtain ⟨hkey, -⟩ : "id" = m.key ∧ stripQuotes (trim (textOrEmpty e.id)) = m.value
          ∧ trim (textOrEmpty e.id) = m.raw := by
        simpa [Said.ReadsAs, Said.content, Content.ofColon, OwnLine.content] using hm
      have hpairs : m.pairs = [("id", m.value)] := by
        rw [OwnLine.pairs_of_none (by rw [← hkey]; decide), ← hkey]
        simp [show Key.stored "id" = "id" by decide]
      rw [hps.counted_cons_eq hasRead hid hkey.symm] at hread
      rw [Ledger.get?_eq_some_iff, hread.properties.entries_eq, List.flatMap_cons, hpairs,
        flatMap_pairs_eq hasRead hvalues, List.singleton_append, List.mem_cons, Prod.mk.injEq,
        or_iff_right fun h => hk h.1]
  · obtain ⟨hasRead, hvalues⟩ := hps.eq_of_readsAs hms
    rw [hps.counted_eq hasRead] at hread
    rw [Ledger.get?_eq_some_iff, hread.properties.entries_eq, flatMap_pairs_eq hasRead hvalues]

/-! ### Properties that are kept -/

namespace Properties

/-- The properties that an instance gives to the template that it brings: all but the id. -/
def withoutId (p : Properties) : Properties where
  lines := p.lines.filter fun l => l.key != "id"
  values := p.values.erase "id"
  written := p.written

/-- Property lines that are read back as what is stored, the id apart. -/
structure LinesReadBack (p : Properties) : Prop where
  /-- No line is left out for an earlier one. -/
  unsaid : (p.lines.map PropertyLine.key).Pairwise Key.Unsaid
  /-- What a line stores when it is written and read is what is stored. -/
  values : ∀ l ∈ p.lines, Key.stored l.key ≠ "id" → ∀ k ∈ Key.taken l.key,
    Ledger.lookIn (storedBy (l.key, Block.writtenValue l.key l.value)) k = p.values.get? k

instance (p : Properties) : Decidable p.LinesReadBack :=
  decidable_of_iff
    ((p.lines.map PropertyLine.key).Pairwise Key.Unsaid
      ∧ ∀ l ∈ p.lines, Key.stored l.key ≠ "id" → ∀ k ∈ Key.taken l.key,
        Ledger.lookIn (storedBy (l.key, Block.writtenValue l.key l.value)) k = p.values.get? k)
    ⟨fun h => ⟨h.1, h.2⟩, fun h => ⟨h.unsaid, h.values⟩⟩

/-- What the properties of an instance leave in those of another one, the id apart. -/
structure IsKeptBy (p q : Properties) : Prop where
  /-- With lines that are read back as what is stored, all that the lines are for is kept, and
  nothing comes in. -/
  lines : p.withoutId.lines ≠ [] → p.LinesReadBack →
    (∀ l ∈ p.lines, ∀ k ∈ Key.taken l.key, k ≠ "id" → q.values.get? k = p.values.get? k)
      ∧ ∀ k v, k ≠ "id" → q.values.get? k = some v → p.values.get? k = some v
  /-- Without lines, when the stored properties are read back, all is kept. -/
  values : p.withoutId.lines = [] → p.withoutId.ValuesReadBack →
    ∀ k, k ≠ "id" → q.values.get? k = p.values.get? k

theorem mem_entries_withoutId {p : Properties} {k v : String} :
    (k, v) ∈ p.withoutId.values.entries ↔ k ≠ "id" ∧ p.values.get? k = some v := by
  rw [Ledger.get?_eq_some_iff, withoutId, Ledger.erase, Ledger.filter, List.mem_filter]
  simp [and_comm]

end Properties

theorem Key.taken_of_stored_id {key : String} (h : stored key = "id") : taken key = ["id"] := by
  have hparts : parts? key = none := parts?_of_stored (by rw [h]; decide)
  rw [taken_of_none hparts, h]

namespace OwnLine

theorem nodup_keys_pairs (l : OwnLine) : (l.pairs.map Prod.fst).Nodup := by
  cases hparts : Key.parts? l.key with
  | none =>
    rw [pairs_of_none hparts]
    exact List.nodup_singleton _
  | some ab =>
    obtain ⟨first, second⟩ := ab
    simp only [pairs, hparts]
    split
    · rcases Key.parts?_eq_some hparts with ⟨-, rfl, rfl⟩ | ⟨-, rfl, rfl⟩ <;> simp
    · exact List.nodup_nil

/-- Lines of which none is left out are written one for one. -/
theorem addLines_of_unsaid {ls : List OwnLine} (h : Unblocked ls) (hs : ∀ l ∈ ls, l.IsSound)
    (hunsaid : ls.Pairwise fun l m => Key.Unsaid l.key m.key) :
    (({} : Block).addLines (ls.map entry)).lines = (ls.map written).map pairSaid
      ∧ AreSettled (ls.map written) := by
  have hkept : keptFrom [] ls = ls := keptFrom_eq_self hunsaid
  have hsettled := areSettled_kept h hs
  rw [hkept] at hsettled
  rw [addLines_entries fun l hl => (hs l hl).isKey, List.map_map]
  exact ⟨congrArg (List.map said) hkept, hsettled⟩

end OwnLine

theorem mem_storedBy_iff {q : String × String} {k v : String} :
    (k, v) ∈ storedBy q ↔ Ledger.lookIn (storedBy q) k = some v :=
  (Ledger.get?_eq_some_iff (m := ⟨storedBy q, OwnLine.nodup_keys_pairs _⟩)).symm

theorem mem_taken_of_mem_storedBy {q : String × String} {k v : String} (h : (k, v) ∈ storedBy q) :
    k ∈ Key.taken q.1 :=
  OwnLine.keys_pairs_subset (q.1, stripQuotes q.2, q.2, 0) (List.mem_map_of_mem (f := Prod.fst) h)

/-! ### One instance -/

namespace Properties.LinesReadBack

variable {p : Properties} {ls : List OwnLine}

/-- The key of a line stands for what the line stores when it is written and read. -/
theorem lookIn_written (h : p.LinesReadBack) (hp : p.lines = ls.map OwnLine.entry) {l : OwnLine}
    (hl : l ∈ ls) {k : String} (hk : k ≠ "id") (htaken : k ∈ Key.taken l.key) :
    l ∈ OwnLine.others ls ∧ Ledger.lookIn (storedBy l.written) k = p.values.get? k := by
  have hid : Key.stored l.key ≠ "id" := by
    intro hid
    rw [Key.taken_of_stored_id hid, List.mem_singleton] at htaken
    exact hk htaken
  have hentry : l.entry ∈ p.lines := hp ▸ List.mem_map_of_mem hl
  have hvalues := h.values l.entry hentry hid k htaken
  rw [OwnLine.entry_key, OwnLine.entry_value] at hvalues
  exact ⟨OwnLine.mem_others.2 ⟨hl, hid⟩, hvalues⟩

/-- What a written line stores is stored. -/
theorem get?_of_mem (h : p.LinesReadBack) (hp : p.lines = ls.map OwnLine.entry) {l : OwnLine}
    (hl : l ∈ ls) {k v : String} (hk : k ≠ "id") (hmem : (k, v) ∈ storedBy l.written) :
    p.values.get? k = some v := by
  have htaken : k ∈ Key.taken l.key := mem_taken_of_mem_storedBy hmem
  rw [← (h.lookIn_written hp hl hk htaken).2]
  exact mem_storedBy_iff.1 hmem

/-- Values that are stored by the lines of an instance, over values that are stored by some of them.
-/
theorem keeps (h : p.LinesReadBack) (hp : p.lines = ls.map OwnLine.entry) {ks : List OwnLine}
    (hks : ks ⊆ ls) {own brought : Ledger String}
    (hown : ∀ k v, k ≠ "id" → (own.get? k = some v
      ↔ (k, v) ∈ ((OwnLine.others ls).map OwnLine.written).flatMap storedBy))
    (hbrought : ∀ k v, k ≠ "id" → brought.get? k = some v →
      (k, v) ∈ (ks.map OwnLine.written).flatMap storedBy) :
    (∀ l ∈ p.lines, ∀ k ∈ Key.taken l.key, k ≠ "id" →
        (brought.overlay own).get? k = p.values.get? k)
      ∧ ∀ k v, k ≠ "id" → (brought.overlay own).get? k = some v → p.values.get? k = some v := by
  have hfrom : ∀ k v, k ≠ "id" → (brought.overlay own).get? k = some v →
      p.values.get? k = some v := by
    intro k v hk hv
    rw [Ledger.get?_overlay, Option.or_eq_some_iff] at hv
    rcases hv with hv | ⟨-, hv⟩
    · obtain ⟨q, hq, hmem⟩ := List.mem_flatMap.1 ((hown k v hk).1 hv)
      obtain ⟨l, hl, rfl⟩ := List.mem_map.1 hq
      exact h.get?_of_mem hp ((OwnLine.others_sublist ls).subset hl) hk hmem
    · obtain ⟨q, hq, hmem⟩ := List.mem_flatMap.1 (hbrought k v hk hv)
      obtain ⟨l, hl, rfl⟩ := List.mem_map.1 hq
      exact h.get?_of_mem hp (hks hl) hk hmem
  refine ⟨fun l hl k htaken hk => ?_, hfrom⟩
  rw [hp] at hl
  obtain ⟨m, hm, rfl⟩ := List.mem_map.1 hl
  cases hv : p.values.get? k with
  | some v =>
    obtain ⟨hother, hlook⟩ := h.lookIn_written hp hm hk htaken
    have hfound := (hown k v hk).2 (List.mem_flatMap.2
      ⟨_, List.mem_map_of_mem hother, mem_storedBy_iff.2 (hlook.trans hv)⟩)
    rw [Ledger.get?_overlay, hfound, Option.some_or]
  | none =>
    rw [Option.eq_none_iff_forall_ne_some]
    intro v hfound
    rw [hfrom k v hk hfound] at hv
    cases hv

end Properties.LinesReadBack

theorem Widget.IsExpansion.lines_eq {templates : List (Template α)} {e e' : Element α}
    (h : IsExpansion templates e e') : e'.properties.lines = e.properties.lines := by
  rcases h with rfl | ⟨t, -, rfl⟩ <;> rfl

/-- The body of a widget with lines is written from them, but for the id. -/
theorem Element.bodyBlock_of_lines {e : Element α} {ls : List OwnLine}
    (h : e.properties.lines = ls.map OwnLine.entry) (hne : ls ≠ []) :
    e.bodyBlock = ({} : Block).addLines ((OwnLine.others ls).map OwnLine.entry) := by
  rw [Element.bodyBlock, if_neg (by simpa [h] using hne), h, List.filter_map]
  rfl

theorem Properties.withoutId_lines_eq {p : Properties} {ls : List OwnLine}
    (h : p.lines = ls.map OwnLine.entry) :
    p.withoutId.lines = (ls.filter fun l => l.key != "id").map OwnLine.entry := by
  rw [withoutId, h, List.filter_map]
  rfl

section Instance

variable {e e' copy : Element α} {brought t' : Template α} {p : Properties}
  {ls ms ks : List OwnLine} {isRoot : Bool}

/-- With lines: a copy of the instance and a copy of the template that it brings have what the lines
of the instance store. -/
theorem Properties.LinesReadBack.keeps_of_rereads (h : p.LinesReadBack) (hr : e.ReadFrom lines ls)
    (hs : ∀ k ∈ lines, k.content.IsSound) (hp : p.lines = ls.map OwnLine.entry)
    (he' : e'.properties.lines = ls.map OwnLine.entry)
    (hread : copy.Rereads lines' (e'.said isRoot) ms) (hbrought : brought.properties = p.withoutId)
    (hread' : t'.Rereads lines' brought.said ks) (hsome : p.withoutId.lines ≠ []) :
    (∀ l ∈ p.lines, ∀ k ∈ Key.taken l.key, k ≠ "id" →
        (t'.applyTo copy).properties.values.get? k = p.values.get? k)
      ∧ ∀ k v, k ≠ "id" → (t'.applyTo copy).properties.values.get? k = some v →
        p.values.get? k = some v := by
  have hfilter := Properties.withoutId_lines_eq hp
  have hunsaid : ls.Pairwise fun l m => Key.Unsaid l.key m.key := by
    have := h.unsaid
    rw [hp, List.map_map, List.pairwise_map] at this
    exact this
  have hwritten : ∀ {ks : List OwnLine}, ks.Sublist ls →
      (({} : Block).addLines (ks.map OwnLine.entry)).lines = (ks.map OwnLine.written).map pairSaid
        ∧ AreSettled (ks.map OwnLine.written) := fun hks =>
    OwnLine.addLines_of_unsaid (hr.properties.unblocked.sublist hks)
      (fun l hl => hr.properties.isSound hs l (hks.subset hl)) (hunsaid.sublist hks)
  have hne : ls ≠ [] := by
    rintro rfl
    exact hsome hfilter
  obtain ⟨hown, hsettled⟩ := hwritten (OwnLine.others_sublist ls)
  obtain ⟨hsaid, hsettled'⟩ := hwritten (List.filter_sublist (p := fun l => l.key != "id"))
  rw [← Element.bodyBlock_of_lines he' hne] at hown
  have hblock : brought.said = .header brought.name (some brought.base)
      :: ((ls.filter fun l => l.key != "id").map OwnLine.written).map pairSaid := by
    rw [Template.said_eq_cons, Template.bodyBlock, hbrought,
      if_neg (by simpa using hsome), hfilter, hsaid]
  refine h.keeps hp (List.filter_subset_self (p := fun l => l.key != "id") ls)
    (fun k v hk => ?_) fun k v hk hv => ?_
  · refine hread.get?_eq_some_iff hown hsettled (fun q hq => ?_) hk
    obtain ⟨l, hl, rfl⟩ := List.mem_map.1 hq
    exact (OwnLine.mem_others.1 hl).2
  · exact (hread'.get?_eq_some_iff hblock hsettled').1 hv

/-- Stored properties that are written without lines are read back. -/
theorem Properties.AreTellable.exists_written (h : p.withoutId.AreTellable) :
    ∃ qs : List (String × String),
      (({} : Block).addValues p.withoutId.values p.withoutId.written).lines = qs.map pairSaid
        ∧ AreSettled qs ∧ (∀ q ∈ qs, Key.stored q.1 ≠ "id")
        ∧ ∀ k v, k ≠ "id" → ((k, v) ∈ qs.flatMap storedBy ↔ p.values.get? k = some v) := by
  obtain ⟨ps, hblock, hnodup, hps⟩ := h.exists_addValues []
  rw [List.nil_append] at hblock
  refine ⟨_, congrArg Block.lines hblock, h.areSettled hnodup fun q hq => (hps q).1 hq,
    fun q hq => ?_, fun k v hk => ?_⟩
  · obtain ⟨r, hr, rfl⟩ := List.mem_map.1 hq
    obtain ⟨f, hf, rfl⟩ := (hps r).1 hr
    exact h.stored_ne_id hf
  · rw [h.mem_flatMap_storedBy hps, Properties.mem_entries_withoutId, and_iff_right hk]

/-- Without lines: a copy of the template that the instance brings has what the instance has. -/
theorem Template.Rereads.get?_of_brought (hread' : t'.Rereads lines' brought.said ks)
    (hbrought : brought.properties = p.withoutId) (hnone : p.withoutId.lines = [])
    (htellable : p.withoutId.AreTellable) {k : String} (hk : k ≠ "id") :
    t'.properties.values.get? k = p.values.get? k := by
  obtain ⟨qs, hwritten, hsettled, -, hstored⟩ := htellable.exists_written
  have hsaid : brought.said = .header brought.name (some brought.base) :: qs.map pairSaid := by
    rw [Template.said_eq_cons, Template.bodyBlock, hbrought, hnone, if_pos List.isEmpty_nil,
      hwritten]
  exact Option.ext fun v => (hread'.get?_eq_some_iff hsaid hsettled).trans (hstored k v hk)

/-- A widget whose body is empty has nothing but the id when it was read back. -/
theorem Element.Rereads.get?_eq_none (hread : copy.Rereads lines' (e'.said isRoot) ms)
    (hbody : e'.bodyBlock.lines = []) {k : String} (hk : k ≠ "id") :
    copy.properties.values.get? k = none := by
  refine Option.eq_none_iff_forall_ne_some.2 fun v hv => ?_
  have hbody : e'.bodyBlock.lines = ([] : List (String × String)).map pairSaid := hbody
  have hmem := (hread.get?_eq_some_iff hbody ⟨by simp, by simp, .nil⟩ (by simp) hk).1 hv
  cases hmem

/-- Without lines: a copy of the instance has nothing but the id, or what the instance has, as its
template was applied before it was written. -/
theorem Element.Rereads.get?_of_instance {templates : List (Template α)} {t : Template α}
    (hread : copy.Rereads lines' (e'.said isRoot) ms) (hr : e.ReadFrom lines ls)
    (ht : Template.find? templates (textOrEmpty e.surface) = some t)
    (hexp : Widget.IsExpansion templates e e')
    (hnone : (t.applyTo e).properties.withoutId.lines = [])
    (htellable : (t.applyTo e).properties.withoutId.AreTellable) {k : String} (hk : k ≠ "id") :
    copy.properties.values.get? k = none
      ∨ copy.properties.values.get? k = (t.applyTo e).properties.values.get? k := by
  have he' : e'.properties.lines = ls.map OwnLine.entry :=
    hexp.lines_eq.trans hr.properties.lines_eq
  by_cases hls : ls = []
  · rw [hls] at he'
    rcases hexp with rfl | ⟨u, hu, rfl⟩
    · refine .inl (hread.get?_eq_none ?_ hk)
      rw [(Element.bodyBlock_of_no_lines hr he' t).1]
    · rw [ht, Option.some.injEq] at hu
      subst hu
      obtain ⟨qs, hwritten, hsettled, hids, hstored⟩ := htellable.exists_written
      have hbody : (t.applyTo e).bodyBlock.lines = qs.map pairSaid := by
        rw [Element.bodyBlock, he', if_pos (by rfl)]
        exact hwritten
      exact .inr (Option.ext fun v =>
        (hread.get?_eq_some_iff hbody hsettled hids hk).trans (hstored k v hk))
  · refine .inl (hread.get?_eq_none ?_ hk)
    -- all lines are for the id
    have hids : ∀ l ∈ ls, l.key = "id" := by
      rw [Properties.withoutId_lines_eq (p := (t.applyTo e).properties) hr.properties.lines_eq,
        List.map_eq_nil_iff, List.filter_eq_nil_iff] at hnone
      simpa using hnone
    have hothers : OwnLine.others ls = [] :=
      List.filter_eq_nil_iff.2 fun l hl => by
        rw [hids l hl]
        decide
    rw [Element.bodyBlock_of_lines he' hls, hothers]
    rfl

end Instance

/-- **One instance**: the properties of an instance with its template applied are kept by a copy of
the instance with a copy of the template that it brings applied. -/
theorem isKeptBy_of_isCopy {d : Document α} (hd : d.IsRead lines)
    (hs : ∀ k ∈ lines, k.content.IsSound) {e e' copy : Element α} {t brought t' : Template α}
    (he : e.IsFinished lines d.templates)
    (ht : Template.find? d.templates (textOrEmpty e.surface) = some t)
    (hexp : Widget.IsExpansion d.templates e e') (hcopy : e'.IsCopy lines' copy)
    (hbrought : brought.properties = (t.applyTo e).properties.withoutId)
    (ht' : ∃ ms, t'.Rereads lines' brought.said ms) :
    (t.applyTo e).properties.IsKeptBy (t'.applyTo copy).properties := by
  obtain ⟨ls, hr⟩ := he.read
  obtain ⟨isRoot, ms, hread⟩ := hcopy
  obtain ⟨ks, hread'⟩ := ht'
  refine ⟨fun hsome hback => ?_, fun hnone hback k hk => ?_⟩
  · exact hback.keeps_of_rereads hr hs hr.properties.lines_eq
      (hexp.lines_eq.trans hr.properties.lines_eq) hread hbrought hread' hsome
  · have htellable : (t.applyTo e).properties.withoutId.AreTellable := by
      obtain ⟨ks, hks⟩ := hd.templates t (List.mem_of_find?_eq_some ht)
      refine ⟨Properties.IsLegible.filter ?_ _ "id", hback, fun hmem => ?_⟩
      · exact (hks.properties.isLegible hs).overlay (hr.properties.isLegible hs)
      · obtain ⟨f, hf, hid⟩ := List.mem_map.1 hmem
        exact (Properties.mem_entries_withoutId.1 (show (f.1, f.2) ∈ _ from hf)).1 hid
    have hown := hread.get?_of_instance hr ht hexp hnone htellable hk
    change (t'.properties.values.overlay copy.properties.values).get? k = _
    rw [Ledger.get?_overlay, hread'.get?_of_brought hbrought hnone htellable hk]
    rcases hown with hown | hown <;> rw [hown]
    · exact Option.none_or
    · exact Option.or_self

end Otui
