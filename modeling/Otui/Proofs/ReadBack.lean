import Otui.Proofs.Scripts

/-!
# Reading back what was written

The lines that were written from scripts have an outline of the same shape: `TellAll` relates scripts
and the parts of an outline, and `outline_scriptLines` finds it whatever follows. Parts that tell
scripts are read as widgets and templates which have what the blocks say; this is
`Element.Rereads` and `Template.Rereads`, and `rereads_parsed` is the statement for whole documents.
-/

namespace Otui

open Otui.Text Otui.Document

variable {α : Type} {lines : List Line}

namespace Document

/-! ### Scripts that can be read -/

/-- A line that is no header. -/
def Said.IsProperty : Said → Prop
  | .header .. => False
  | _ => True

/-- A block that can be read: a header and other lines. -/
def IsBlock (b : List Said) : Prop :=
  (∃ name base props, b = .header name base :: props ∧ ∀ s ∈ props, s.IsProperty)
    ∧ ∀ s ∈ b, s.IsReadable

/-- A block of a widget that can be read. -/
def IsWidgetBlock (b : List Said) : Prop :=
  IsBlock b ∧ ∃ name props, b = .header name none :: props

/-- A script of a template that can be read. -/
structure IsTemplateScript (t : Tree (List Said)) : Prop where
  /-- Its block can be read. -/
  block : IsBlock t.label
  /-- The block has a base. -/
  header : ∃ name base props, t.label = .header name (some base) :: props
  /-- The other blocks are those of widgets. -/
  body : ∀ b ∈ Tree.forestLabels t.children, IsWidgetBlock b

/-- A property line that says what was written. -/
def Said.ReadsAs (s : Said) (l : OwnLine) : Prop := s.content = l.content

/-- The part of an outline for a property line. -/
def ownPart (l : OwnLine) : Outline := .property l.key l.value l.raw l.number

/-- Parts of an outline that have the shape of scripts and say what they say. -/
inductive TellAll : List (Tree (List Said)) → List Outline → Prop where
  /-- Nothing is said. -/
  | nil : TellAll [] []
  /-- A block, all below it, and other blocks. -/
  | cons {name : String} {base : Option String} {number : Nat} {props : List Said}
    {ms : List OwnLine} {bs ts : List (Tree (List Said))} {below others : List Outline} :
    List.Forall₂ Said.ReadsAs props ms → TellAll bs below → TellAll ts others →
    TellAll (.node (.header name base :: props) bs :: ts)
      (.block name base number (ms.map ownPart ++ below) :: others)

/-! ### Levels -/

theorem saidLines_cons (level : Nat) (s : Said) (b : List Said) :
    saidLines level (s :: b) = ⟨level, s⟩ :: b.map fun s => ⟨level + 1, s⟩ := rfl

/-- All lines of scripts are at the level of the scripts or deeper. -/
theorem level_le_of_mem {ts : List (Tree (List Said))} {level : Nat} {w : WrittenLine}
    (h : w ∈ scriptLinesAmong level ts) : level ≤ w.level := by
  induction ts using Tree.forest_induction generalizing level with
  | nil => cases h
  | cons b bs ts ihb iht =>
    rw [scriptLinesAmong, scriptLines, List.mem_append, List.mem_append] at h
    rcases h with (h | h) | h
    · cases b with
      | nil => cases h
      | cons s b =>
        rw [saidLines_cons, List.mem_cons] at h
        rcases h with rfl | h
        · exact Nat.le_refl _
        · obtain ⟨t, -, rfl⟩ := List.mem_map.1 h
          exact Nat.le_succ _
    · exact Nat.le_of_succ_le (ihb h)
    · exact iht h

/-- What follows a script does not start deeper than the script. -/
theorem head_level_le {ts : List (Tree (List Said))} (hb : ∀ b ∈ Tree.forestLabels ts, IsBlock b)
    {level : Nat} {ks rest : List Line}
    (h : List.Forall₂ Line.Says ks (scriptLinesAmong level ts))
    (hrest : ∀ l ∈ rest.head?, l.level ≤ level) : ∀ l ∈ (ks ++ rest).head?, l.level ≤ level := by
  cases ts with
  | nil =>
    cases h
    exact hrest
  | cons t ts =>
    cases t with
    | node b bs =>
      obtain ⟨⟨name, base, props, rfl, -⟩, -⟩ := hb b (by simp)
      rw [scriptLinesAmong, scriptLines, saidLines_cons, List.cons_append, List.cons_append] at h
      cases h with
      | cons hk hks =>
        intro l hl
        simp only [List.cons_append, List.head?_cons, Option.mem_some_iff] at hl
        subst hl
        exact hk.level.le

/-! ### Outlines -/

theorem outline_opening {l : Line} {name : String} {base : Option String}
    (h : l.content = .opening name base) (body rest : List Line)
    (hbody : ∀ k ∈ body, l.level < k.level) (hrest : ∀ k ∈ rest.head?, k.level ≤ l.level) :
    outline (l :: (body ++ rest)) = .block name base l.number (outline body) :: outline rest := by
  have hpos : ∀ k ∈ body, Line.isBelow l.level k = true := fun k hk => by
    simpa [Line.isBelow] using hbody k hk
  have htake : rest.takeWhile (Line.isBelow l.level) = [] := by
    cases rest with
    | nil => rfl
    | cons k rest =>
      exact List.takeWhile_cons_of_neg (by simpa [Line.isBelow] using hrest k rfl)
  have hdrop : rest.dropWhile (Line.isBelow l.level) = rest := by
    cases rest with
    | nil => rfl
    | cons k rest =>
      exact List.dropWhile_cons_of_neg (by simpa [Line.isBelow] using hrest k rfl)
  rw [outline, h]
  simp only [List.takeWhile_append_of_pos hpos, List.dropWhile_append_of_pos hpos, htake, hdrop,
    List.append_nil]

theorem outline_property {l : Line} {key value raw : String}
    (h : l.content = .property key value raw) (rest : List Line) :
    outline (l :: rest) = .property key value raw l.number :: outline rest := by
  rw [outline, h]

/-- Property lines become the property lines of an outline. -/
theorem outline_properties {props : List Said} (hp : ∀ s ∈ props, s.IsProperty) {level : Nat}
    {ks : List Line}
    (h : List.Forall₂ Line.Says ks (props.map fun s => ⟨level, s⟩)) (rest : List Line) :
    ∃ ms, outline (ks ++ rest) = ms.map ownPart ++ outline rest
      ∧ List.Forall₂ Said.ReadsAs props ms := by
  induction props generalizing ks with
  | nil =>
    cases h
    exact ⟨[], rfl, .nil⟩
  | cons s props ih =>
    cases h with
    | @cons k _ ks _ hk hks =>
      obtain ⟨ms, hms, hr⟩ := ih (fun t ht => hp t (by simp [ht])) hks
      obtain ⟨key, value, raw, hc⟩ : ∃ key value raw, s.content = .property key value raw := by
        have hs := hp s (by simp)
        cases s with
        | header => exact hs.elim
        | id => exact ⟨_, _, _, rfl⟩
        | property => exact ⟨_, _, _, rfl⟩
        | size => exact ⟨_, _, _, rfl⟩
      refine ⟨(key, value, raw, k.number) :: ms, ?_, .cons hc hr⟩
      rw [List.cons_append, outline_property (hk.2.trans hc), hms]
      rfl

theorem forall₂_append_right {β γ : Type} {R : β → γ → Prop} {xs : List β} {ys zs : List γ}
    (h : List.Forall₂ R xs (ys ++ zs)) :
    ∃ as bs, xs = as ++ bs ∧ List.Forall₂ R as ys ∧ List.Forall₂ R bs zs :=
  ⟨_, _, (List.take_append_drop ys.length xs).symm, List.forall₂_take_append xs ys zs h,
    List.forall₂_drop_append xs ys zs h⟩

/-- The outline of lines that were written from scripts tells the scripts, whatever follows that is
not deeper. -/
theorem outline_scriptLines {ts : List (Tree (List Said))}
    (hb : ∀ b ∈ Tree.forestLabels ts, IsBlock b) {level : Nat} {ks rest : List Line}
    (h : List.Forall₂ Line.Says ks (scriptLinesAmong level ts))
    (hrest : ∀ l ∈ rest.head?, l.level ≤ level) :
    ∃ os, outline (ks ++ rest) = os ++ outline rest ∧ TellAll ts os := by
  induction ts using Tree.forest_induction generalizing level ks rest with
  | nil =>
    cases h
    exact ⟨[], rfl, .nil⟩
  | cons b bs ts ihb iht =>
    simp only [Tree.forestLabels_cons, List.mem_cons, List.mem_append] at hb
    obtain ⟨⟨name, base, props, rfl, hprops⟩, -⟩ := hb b (.inl rfl)
    have hts : ∀ b ∈ Tree.forestLabels ts, IsBlock b := fun b h => hb b (.inr (.inr h))
    rw [scriptLinesAmong, scriptLines, saidLines_cons, List.cons_append, List.cons_append] at h
    cases h with
    | @cons k _ ks _ hk hks =>
      obtain ⟨ks, kts, rfl, hks, hkts⟩ := forall₂_append_right hks
      obtain ⟨kps, kbs, rfl, hkps, hkbs⟩ := forall₂_append_right hks
      obtain ⟨others, hothers, htell⟩ := iht hts hkts hrest
      obtain ⟨below, hbelow, htellb⟩ := ihb (fun b h => hb b (.inr (.inl h))) hkbs
        (show ∀ l ∈ ([] : List Line).head?, l.level ≤ level + 1 by simp)
      obtain ⟨ms, hms, hr⟩ := outline_properties hprops hkps kbs
      rw [List.append_nil, outline_nil, List.append_nil] at hbelow
      have hdeeper : ∀ l ∈ kps ++ kbs, k.level < l.level := by
        intro l hl
        obtain ⟨w, hw, hlw⟩ : ∃ w ∈ (props.map fun s => (⟨level + 1, s⟩ : WrittenLine))
            ++ scriptLinesAmong (level + 1) bs, l.Says w := by
          have hall := List.rel_append hkps hkbs
          obtain ⟨i, hi, rfl⟩ := List.getElem_of_mem hl
          exact ⟨_, List.getElem_mem (hall.length_eq ▸ hi), hall.get hi _⟩
        rw [hk.level, hlw.level]
        rcases List.mem_append.1 hw with hw | hw
        · obtain ⟨s, -, rfl⟩ := List.mem_map.1 hw
          exact Nat.lt_succ_self _
        · exact level_le_of_mem hw
      refine ⟨.block name base k.number (ms.map ownPart ++ below) :: others, ?_,
        .cons hr htellb htell⟩
      rw [List.cons_append, List.append_assoc,
        outline_opening hk.2 _ _ hdeeper (by
          rw [hk.level]
          exact head_level_le hts hkts hrest),
        hms, hbelow, hothers, List.cons_append]

/-! ### Reading -/

theorem ownProperties_tell {ts : List (Tree (List Said))} {os : List Outline} (h : TellAll ts os)
    (ms : List OwnLine) : ownProperties (ms.map ownPart ++ os) = ms := by
  have hblocks : ownProperties os = [] := by
    induction h with
    | nil => rfl
    | cons _ _ _ _ ih => exact ih
  rw [ownProperties, List.filterMap_append]
  rw [ownProperties] at hblocks
  rw [hblocks, List.append_nil]
  induction ms with
  | nil => rfl
  | cons m ms ih =>
    rw [List.map_cons, ownPart, List.filterMap_cons, ih]
    rfl

/-- Property lines outside of openings make no difference. -/
theorem readParts_ownParts (ms : List OwnLine) (os : List Outline) (r : Registry) :
    readParts (α := α) (ms.map ownPart ++ os) r = readParts os r := by
  induction ms with
  | nil => rfl
  | cons m ms ih =>
    rw [List.map_cons, List.cons_append, readParts, ownPart, readPart]
    exact ih

theorem readParts_append (os ps : List Outline) (r : Registry) :
    (readParts (α := α) (os ++ ps) r).widgets
        = (readParts os r).widgets
          ++ (readParts ps (readParts (α := α) os r).registry).widgets
      ∧ (readParts (α := α) (os ++ ps) r).templates
        = (readParts os r).templates
          ++ (readParts ps (readParts (α := α) os r).registry).templates := by
  induction os generalizing r with
  | nil => exact ⟨rfl, rfl⟩
  | cons o os ih =>
    obtain ⟨hw, ht⟩ := ih (readPart (α := α) o r).registry
    simp only [List.cons_append, readParts, hw, ht, List.append_assoc, and_self]

theorem allComeFrom_append {os ps : List Outline}
    (h : Outline.AllComeFrom lines (os ++ ps)) :
    Outline.AllComeFrom lines os ∧ Outline.AllComeFrom lines ps := by
  induction os with
  | nil => exact ⟨trivial, h⟩
  | cons o os ih => exact ⟨⟨h.1, (ih h.2).1⟩, (ih h.2).2⟩

theorem allComeFrom_ownParts {ms : List OwnLine} (h : Outline.AllComeFrom lines (ms.map ownPart)) :
    ∀ m ∈ ms, m.IsAmong lines := by
  induction ms with
  | nil => simp
  | cons m ms ih =>
    intro k hk
    rcases List.mem_cons.1 hk with rfl | hk
    · exact h.1
    · exact ih h.2 k hk

end Document

/-- A widget that is not finished has what a block says. -/
def Element.HasRead (lines : List Line) (b : List Said) (e : Element α) : Prop :=
  ∃ type name props ms, b = .header name none :: props ∧ List.Forall₂ Said.ReadsAs props ms
    ∧ (∀ m ∈ ms, m.IsAmong lines) ∧ type ≠ "" ∧ IsWidgetName name
    ∧ e = ((opened type name).storeAll ms).1

/-- A template has what a block says. -/
structure Template.Rereads (lines : List Line) (b : List Said) (ms : List OwnLine)
    (t : Template α) : Prop where
  /-- The block is a header and property lines. -/
  block : ∃ props, b = .header t.name (some t.base) :: props ∧ List.Forall₂ Said.ReadsAs props ms
  /-- The template is what the lines store. -/
  read : t.ReadFrom lines (Properties.counted {} ms)

namespace Document

/-- Scripts of widgets are read as widgets. -/
theorem readParts_widgets {ts : List (Tree (List Said))}
    (hb : ∀ b ∈ Tree.forestLabels ts, IsWidgetBlock b)
    {os : List Outline} (h : TellAll ts os) (ho : Outline.AllComeFrom lines os)
    {names : List String} {r : Registry} (hr : r.Knows names) :
    Tree.Alike (Element.HasRead (α := α) lines) ts (readParts os r).widgets
      ∧ (readParts (α := α) os r).templates = []
      ∧ (readParts (α := α) os r).registry.Knows names := by
  induction h generalizing r with
  | nil => exact ⟨.nil, rfl, hr⟩
  | @cons name base number props ms bs ts below others hms hbelow hothers ihb iho =>
    simp only [Tree.forestLabels_cons, List.mem_cons, List.mem_append] at hb
    obtain ⟨⟨-, hreadable⟩, name', props', hheader⟩ := hb _ (.inl rfl)
    cases hheader
    have hname : IsWidgetName name := (hreadable (.header name none) (by simp)).1
    obtain ⟨hown, hbody⟩ := allComeFrom_append ho.1.2
    obtain ⟨hwb, htb, hkb⟩ := ihb (fun b h => hb b (.inr (.inl h))) hbody (hr.ensure name)
    obtain ⟨hwo, hto, hko⟩ := iho (fun b h => hb b (.inr (.inr h))) ho.2 hkb
    simp only [readParts, readPart, readParts_ownParts, ownProperties_tell hbelow]
    refine ⟨?_, by rw [htb, hto, List.append_nil], hko⟩
    refine .cons ?_ hwb hwo
    exact ⟨r.resolve name, name, props, ms, rfl, hms, allComeFrom_ownParts hown,
      hr.resolve_ne_empty hname, hname, rfl⟩

/-- The script of a template, and what it is read as. -/
def TemplateHasRead (lines : List Line) (s : Tree (List Said)) (t : Template α) : Prop :=
  (∃ ms, t.Rereads lines s.label ms)
    ∧ Tree.Alike (Element.HasRead lines) s.children t.children

/-- Scripts of templates are read as templates. -/
theorem readParts_templates {ts : List (Tree (List Said))}
    (hb : ∀ t ∈ ts, IsTemplateScript t) {os : List Outline} (h : TellAll ts os) (ho : Outline.AllComeFrom lines os)
    {names : List String} {r : Registry} (hr : r.Knows names) :
    List.Forall₂ (TemplateHasRead (α := α) lines) ts (readParts os r).templates
      ∧ (readParts (α := α) os r).widgets = []
      ∧ ∃ names, (readParts (α := α) os r).registry.Knows names := by
  induction ts generalizing os names r with
  | nil =>
    cases h
    exact ⟨.nil, rfl, names, hr⟩
  | cons t ts ih =>
    obtain ⟨⟨-, hreadable⟩, ⟨name', base', props', hheader⟩, hbodies⟩ := hb t (by simp)
    cases h with
    | @cons name base number props ms bs _ below others hms hbelow hothers =>
      cases hheader
      obtain ⟨hn, hbase⟩ := hreadable (.header name' (some base')) (by simp)
      obtain ⟨hown, hbody⟩ := allComeFrom_append ho.1.2
      obtain ⟨hwb, htb, hkb⟩ := readParts_widgets (α := α) hbodies hbelow hbody
        (hr.registerTemplate name' base')
      obtain ⟨hto, hwo, hko⟩ := ih (fun t h => hb t (by simp [h])) hothers ho.2 hkb
      simp only [readParts, readPart, readParts_ownParts, ownProperties_tell hbelow]
      rw [htb, List.nil_append]
      refine ⟨.cons ⟨⟨ms, ⟨props', rfl, hms⟩, hn, hbase _ rfl, ?_⟩, hwb⟩ hto, hwo, hko⟩
      exact Properties.readFrom_recordAll (allComeFrom_ownParts hown)

end Document

/-! ### Documents -/

/-- A widget that was read back has what its block says. -/
structure Element.Rereads (lines : List Line) (b : List Said) (ms : List OwnLine)
    (e : Element α) : Prop where
  /-- The block is a header and property lines. -/
  block : ∃ props, b = .header (textOrEmpty e.surface) none :: props
    ∧ List.Forall₂ Said.ReadsAs props ms
  /-- The widget is what the lines store. -/
  read : e.ReadFrom lines (Properties.counted {} ms)
  /-- An id that comes first is the id. -/
  id_of_cons : ∀ m rest, ms = m :: rest → m.key = "id" → e.id = some m.value
  /-- Without an id there is one that looks generated. -/
  id_of_not_mem : (∀ m ∈ Properties.counted {} ms, m.key ≠ "id") →
    ∃ v, e.id = some v ∧ IsGenerated v

/-- What a script of a template was read back as. -/
def Template.RereadsScript (lines : List Line) (s : Tree (List Said)) (t : Template α) : Prop :=
  (∃ ms, t.Rereads lines s.label ms)
    ∧ Tree.Alike (fun b e => ∃ ms, e.Rereads lines b ms) s.children t.children

namespace Document

/-- The last step of reading gives an id only where there is none. -/
theorem rereads_finishStep (hs : ∀ k ∈ lines, k.content.IsSound) {b : List Said} {e : Element α}
    (h : e.HasRead lines b) (templates : List (Template α)) (counts : Ledger Nat) :
    ∃ ms, ((finishStep templates e counts).1).Rereads lines b ms := by
  obtain ⟨type, name, props, ms, rfl, hms, hown, htype, hname, rfl⟩ := h
  have hread := readFrom_storeAll (α := α) hs htype hname hown
  obtain ⟨id, anchors, margins, sized, he⟩ := Element.storeAll_eq (opened type name : Element α) ms
  have hsurface : ((opened type name : Element α).storeAll ms).1.surface = some name := by
    rw [he]; rfl
  obtain ⟨v, hv, hid⟩ := finishStep_eq templates
    (e := ((opened type name : Element α).storeAll ms).1) (by rw [he]; rfl) (by rw [he]; rfl) counts
  have hfresh : ((opened type name : Element α).storeAll ms).1.IsFresh lines :=
    ⟨⟨_, hread⟩, by rw [he]; rfl, by rw [he]; rfl⟩
  refine ⟨ms, ⟨⟨props, ?_, hms⟩, ?_, ?_, ?_⟩⟩
  · rw [hv, hsurface]
    rfl
  · rw [hv]
    refine ⟨hread.surface, hread.type, hread.inherited, hread.placement, hread.properties,
      ⟨hread.has.sized, hread.has.anchors, hread.has.margins⟩, fun w hw => ?_⟩
    cases hw
    exact hid.elim (hread.id v) fun h => h.2.2
  · rintro m rest rfl hm
    rw [hv]
    rw [Element.id_storeAll_cons hm rfl] at hid
    exact (hid.resolve_right fun h => by cases h.1).symm
  · intro hnone
    rw [Element.id_storeAll_of_not_mem hnone] at hid
    exact ⟨v, by rw [hv], (hid.resolve_left fun h => by cases h).2⟩

theorem scriptLinesAmong_eq_flatten (level : Nat) (ts : List (Tree (List Said))) :
    scriptLinesAmong level ts = (ts.map (scriptLines level)).flatten := by
  induction ts with
  | nil => rfl
  | cons t ts ih => rw [scriptLinesAmong, ih, List.map_cons, List.flatten_cons]

theorem said_mem_of_mem {ts : List (Tree (List Said))} {level : Nat} {w : WrittenLine}
    (h : w ∈ scriptLinesAmong level ts) : ∃ b ∈ Tree.forestLabels ts, w.said ∈ b := by
  induction ts using Tree.forest_induction generalizing level with
  | nil => cases h
  | cons b bs ts ihb iht =>
    rw [scriptLinesAmong, scriptLines, List.mem_append, List.mem_append] at h
    simp only [Tree.forestLabels_cons, List.mem_cons, List.mem_append]
    rcases h with (h | h) | h
    · refine ⟨b, .inl rfl, ?_⟩
      cases b with
      | nil => cases h
      | cons s b =>
        rw [saidLines_cons, List.mem_cons] at h
        rcases h with rfl | h
        · exact List.mem_cons_self
        · obtain ⟨t, ht, rfl⟩ := List.mem_map.1 h
          exact List.mem_cons_of_mem _ ht
    · obtain ⟨c, hc, hw⟩ := ihb h
      exact ⟨c, .inr (.inl hc), hw⟩
    · obtain ⟨c, hc, hw⟩ := iht h
      exact ⟨c, .inr (.inr hc), hw⟩

theorem areReadable_scripts {ts : List (Tree (List Said))}
    (hb : ∀ b ∈ Tree.forestLabels ts, IsBlock b) : AreReadable (ts.map (scriptLines 0)) := by
  intro ls hls
  obtain ⟨t, ht, rfl⟩ := List.mem_map.1 hls
  obtain ⟨as, bs, rfl⟩ := List.append_of_mem ht
  refine ⟨?_, fun w hw => ?_⟩
  · cases t with
    | node b cs =>
      obtain ⟨⟨name, base, props, rfl, -⟩, -⟩ := hb b (by simp)
      rw [scriptLines, saidLines_cons, List.cons_append]
      exact List.cons_ne_nil _ _
  · have hmem : w ∈ scriptLinesAmong 0 (as ++ t :: bs) := by
      rw [scriptLinesAmong_eq_flatten, List.mem_flatten]
      exact ⟨_, hls, hw⟩
    obtain ⟨b, hbmem, hwb⟩ := said_mem_of_mem hmem
    exact (hb b hbmem).2 _ hwb

theorem tellAll_append {ts ws : List (Tree (List Said))} {os : List Outline}
    (h : TellAll (ts ++ ws) os) : ∃ as bs, os = as ++ bs ∧ TellAll ts as ∧ TellAll ws bs := by
  induction ts generalizing os with
  | nil => exact ⟨[], os, rfl, .nil, h⟩
  | cons t ts ih =>
    cases h with
    | cons hms hbelow hothers =>
      obtain ⟨as, bs, rfl, has, hbs⟩ := ih hothers
      exact ⟨_ :: as, bs, rfl, .cons hms hbelow has, hbs⟩

/-- The last step of reading changes the bodies of templates and nothing else of them. -/
theorem rereadsScript_finishTemplates (hs : ∀ k ∈ lines, k.content.IsSound)
    (templates : List (Template α)) {ss : List (Tree (List Said))} {ts : List (Template α)}
    (h : List.Forall₂ (TemplateHasRead lines) ss ts) (counts : Ledger Nat) :
    List.Forall₂ (Template.RereadsScript lines) ss
      (finishTemplates (finishStep templates) ts counts) := by
  induction h generalizing counts with
  | nil => exact .nil
  | cons ht _ ih =>
    obtain ⟨⟨ms, hblock, hread⟩, hbody⟩ := ht
    rw [finishTemplates]
    refine .cons ⟨⟨ms, hblock, hread.name, hread.base, hread.properties⟩, ?_⟩ (ih _)
    exact hbody.forestMapState (fun b e counts he => rereads_finishStep hs he templates counts) counts

/-- The text that is written for scripts. -/
def scriptText (ts : List (Tree (List Said))) : String := textOf (ts.map (scriptLines 0))

/-- The blocks of scripts of templates and of widgets can be read. -/
theorem isBlock_of_mem_scripts {ts ws : List (Tree (List Said))}
    (hts : ∀ t ∈ ts, IsTemplateScript t) (hws : ∀ b ∈ Tree.forestLabels ws, IsWidgetBlock b) :
    ∀ b ∈ Tree.forestLabels (ts ++ ws), IsBlock b := by
  intro b hb
  rw [Tree.forestLabels_append, List.mem_append] at hb
  rcases hb with hb | hb
  · induction ts with
    | nil => cases hb
    | cons t ts ih =>
      cases t with
      | node c cs =>
        rw [Tree.forestLabels_cons, List.mem_cons, List.mem_append] at hb
        rcases hb with rfl | hb | hb
        · exact (hts _ List.mem_cons_self).block
        · exact ((hts _ List.mem_cons_self).body b hb).1
        · exact ih (fun t ht => hts t (List.mem_cons_of_mem _ ht)) hb
  · exact (hws b hb).1

/-- **Reading back**: scripts of templates and of widgets, written one after the other, are read as
templates and widgets that have what they say. -/
theorem rereads_parsed {ts ws : List (Tree (List Said))} (hts : ∀ t ∈ ts, IsTemplateScript t)
    (hws : ∀ b ∈ Tree.forestLabels ws, IsWidgetBlock b) (hne : ts ++ ws ≠ []) :
    List.Forall₂ (Template.RereadsScript (Document.lines (scriptText (ts ++ ws)))) ts
        (parsed (scriptText (ts ++ ws)) : Document α).templates
      ∧ Tree.Alike (fun b e => ∃ ms, e.Rereads (Document.lines (scriptText (ts ++ ws))) b ms) ws
        (parsed (scriptText (ts ++ ws)) : Document α).widgets := by
  have hblocks := isBlock_of_mem_scripts hts hws
  have hlines := lines_textOf (by simpa using hne) (areReadable_scripts hblocks)
  rw [← scriptLinesAmong_eq_flatten] at hlines
  obtain ⟨os, hos, htell⟩ := outline_scriptLines hblocks hlines
    (show ∀ l ∈ ([] : List Line).head?, l.level ≤ 0 by simp)
  rw [List.append_nil, outline_nil, List.append_nil] at hos
  obtain ⟨as, bs, rfl, has, hbs⟩ := tellAll_append htell
  have hcome := comesFrom_outline (Document.lines (scriptText (ts ++ ws))) (List.Subset.refl _)
  have hsound : ∀ k ∈ Document.lines (scriptText (ts ++ ws)), k.content.IsSound :=
    fun _ => isSound_of_mem_lines
  rw [scriptText, hos] at hcome
  obtain ⟨hcomea, hcomeb⟩ := allComeFrom_append hcome
  obtain ⟨hta, hwa, names, hka⟩ := readParts_templates (α := α) hts has hcomea
    Registry.knows_packaged
  obtain ⟨hwb, htb, -⟩ := readParts_widgets (α := α) hws hbs hcomeb hka
  obtain ⟨hw, ht⟩ := readParts_append (α := α) as bs Registry.packaged
  rw [htb, List.append_nil] at ht
  rw [hwa, List.nil_append] at hw
  have hparsed : (parsed (scriptText (ts ++ ws)) : Document α)
      = finish (readParts (as ++ bs) Registry.packaged).widgets
          (readParts (as ++ bs) Registry.packaged).templates := by
    rw [← hos]
    rfl
  rw [hparsed, ht, hw]
  exact ⟨rereadsScript_finishTemplates hsound _ hta _,
    hwb.forestMapState (fun b e counts he => rereads_finishStep hsound he _ counts) _⟩

end Document

end Otui
