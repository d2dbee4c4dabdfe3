import Otui.Proofs.ReadDocuments

/-!
# Documents after the last step of reading

When all is read, widgets without an id get one that looks generated, and widgets whose type names a
template become its instances; `isFinished_finish` says what a widget is like then. With it
`Document.IsRead` holds of the document of any text (`isRead_parsed`).
-/

namespace Otui

open Otui.Text Otui.Document

variable {α : Type} {lines : List Line}

namespace Document

/-! ### Generated ids -/

/-- An id as widgets without one get it. -/
structure IsGenerated (id : String) : Prop where
  /-- The id looks generated. -/
  looks : looksGenerated id = true
  /-- The id can be written. -/
  oneLine : OnOneLine id
  /-- The id is in lower case. -/
  lower : Text.lower id = id

/-- Small letters and digits are in lower case. -/
theorem isUpper_eq_false {c : Char} (h : c.isLower = true ∨ c.isDigit = true) :
    c.toNat < 0x80 ∧ c.isUpper = false := by
  rw [isLower_iff, Char.isDigit_iff_toNat] at h
  rw [← Bool.not_eq_true, isUpper_iff]
  have hdigit : '0'.toNat = 48 ∧ '9'.toNat = 57 := by decide
  omega

theorem lowerFrom_eq_self {before cs : List Char}
    (h : ∀ c ∈ cs, c.toNat < 0x80 ∧ c.isUpper = false) : lowerFrom before cs = cs := by
  induction cs generalizing before with
  | nil => rfl
  | cons c cs ih =>
    obtain ⟨hascii, hupper⟩ := h c (by simp)
    have hrange : ¬ (0x41 ≤ c.toNat ∧ c.toNat ≤ 0x5A) := of_decide_eq_false hupper
    have hnone : lowerCase? c = none := by
      simp only [lowerCase?]
      rw [if_neg (by simpa using hrange), if_pos hascii]
    rw [lowerFrom, ih fun d hd => h d (by simp [hd]), lowerAt, if_neg (by omega), if_neg (by omega),
      hnone]
    rfl

/-- A text without capital letters and without letters outside of ASCII is in lower case. -/
theorem lower_eq_self {s : String} (h : ∀ c ∈ s.toList, c.toNat < 0x80 ∧ c.isUpper = false) :
    lower s = s := by
  rw [lower, lowerChars, lowerFrom_eq_self h, String.ofList_toList]

theorem isDigit_of_mem_toString {n : Nat} {c : Char} (h : c ∈ (toString n).toList) :
    c.isDigit = true := by
  rw [Nat.toString_eq_repr, Nat.toList_repr] at h
  exact Nat.isDigit_of_mem_toDigits (by decide) (by decide) h

theorem ne_newline_of_isDigit {c : Char} (h : c.isDigit = true) : c ≠ '\n' := by
  rintro rfl
  revert h
  decide

theorem isNumberTail_of_isDigit {cs : List Char} (hne : cs ≠ [])
    (h : ∀ c ∈ cs, c.isDigit = true) : isNumberTail cs = true := by
  have hlast : (cs.getLast? == some '\n') = false := by
    rw [beq_eq_false_iff_ne]
    exact fun hl => ne_newline_of_isDigit (h _ (List.mem_of_getLast? hl)) rfl
  have hdigits : cs.all Text.isDigit = true := by
    rw [List.all_eq_true]
    intro c hc
    rw [Text.isDigit, digitValue?_ascii (h c hc)]
    rfl
  have hne' : cs.isEmpty = false := List.isEmpty_eq_false_iff.2 hne
  simp only [isNumberTail, hlast, hne', hdigits, Bool.false_eq_true, if_false]
  rfl

theorem isNumberTail_toString (n : Nat) : isNumberTail (toString n).toList = true :=
  isNumberTail_of_isDigit (by rw [Nat.toString_eq_repr]; simp) fun _ => isDigit_of_mem_toString

/-- Small letters, an underscore and a number look generated. -/
theorem isGenerated_of_isLower {stem : String} (hne : stem ≠ "")
    (hs : ∀ c ∈ stem.toList, c.isLower = true) (n : Nat) :
    IsGenerated (stem ++ "_" ++ toString n) := by
  have hletter : ∀ c ∈ stem.toList, isIdLetter c = true := by
    intro c hc
    simp [isIdLetter, isAlpha_iff.2 (.inr (hs c hc))]
  have htext : (stem ++ "_" ++ toString n).toList
      = stem.toList ++ '_' :: (toString n).toList := by
    simp
  have hline : isIdLetter '_' = false := by decide
  have hne' : stem.toList.isEmpty = false := by
    rw [List.isEmpty_eq_false_iff]
    exact fun h => hne (String.toList_eq_nil_iff.1 h)
  refine ⟨?_, ?_, ?_⟩
  · rw [looksGenerated, htext]
    simp only [List.takeWhile_append_of_pos hletter, List.dropWhile_append_of_pos hletter,
      List.takeWhile_cons_of_neg (by simp [hline] : ¬ isIdLetter '_' = true),
      List.dropWhile_cons_of_neg (by simp [hline] : ¬ isIdLetter '_' = true), List.append_nil,
      hne', isNumberTail_toString]
    rfl
  · unfold OnOneLine
    rw [htext, List.mem_append, List.mem_cons]
    rintro (h | h | h)
    · have := hs _ h
      revert this
      decide
    · cases h
    · exact ne_newline_of_isDigit (isDigit_of_mem_toString h) rfl
  · refine lower_eq_self fun c hc => ?_
    rw [htext, List.mem_append, List.mem_cons] at hc
    rcases hc with hc | rfl | hc
    · exact isUpper_eq_false (.inl (hs c hc))
    · decide
    · exact isUpper_eq_false (.inr (isDigit_of_mem_toString hc))

theorem idStem_spec (type : String) :
    idStem type ≠ "" ∧ ∀ c ∈ (idStem type).toList, c.isLower = true := by
  unfold idStem
  simp only
  split
  · exact ⟨by decide, List.all_eq_true.1 (by decide)⟩
  · next h =>
    refine ⟨by simpa using h, fun c hc => ?_⟩
    rw [String.toList_ofList] at hc
    exact (List.mem_filter.1 hc).2

/-- A widget keeps its id, or gets one that looks generated. -/
theorem withId_eq (e : Element α) (counts : Ledger Nat) :
    ∃ v, (withId e counts).1 = { e with id := some v }
      ∧ (e.id = some v ∨ e.id = none ∧ IsGenerated v) := by
  unfold withId
  split
  · next v hv => exact ⟨v, by rw [← hv], .inl hv⟩
  · next hv =>
    obtain ⟨hne, hs⟩ := idStem_spec
      (if textOrEmpty e.surface != "" then textOrEmpty e.surface else e.type)
    exact ⟨_, rfl, .inr ⟨hv, isGenerated_of_isLower hne hs _⟩⟩

/-! ### Instances -/

/-- What a name of a type refers to when it names a template. -/
def refAmong (templates : List (Template α)) (name : String) : Option TemplateRef :=
  (Template.find? templates name).map fun t => ⟨t.name, t.instanceBase⟩

theorem name_of_refAmong {templates : List (Template α)} {name : String} {ref : TemplateRef}
    (h : refAmong templates name = some ref) :
    ref.name = name ∧ name ∈ templates.map Template.name := by
  obtain ⟨t, ht, rfl⟩ := Option.map_eq_some_iff.1 h
  have hname : t.name = name := by simpa using List.find?_some ht
  exact ⟨hname, List.mem_map.2 ⟨t, List.mem_of_find?_eq_some ht, hname⟩⟩

/-- What names refer to depends on the names of the templates and their bases alone. -/
theorem refAmong_congr {β : Type} {ts : List (Template α)} {us : List (Template β)}
    (h : ts.map (fun t => (t.name, t.instanceBase)) = us.map fun u => (u.name, u.instanceBase))
    (name : String) : refAmong ts name = refAmong us name := by
  induction ts generalizing us with
  | nil =>
    cases us with
    | nil => rfl
    | cons u us => cases h
  | cons t ts ih =>
    cases us with
    | nil => cases h
    | cons u us =>
      simp only [List.map_cons, List.cons.injEq, Prod.mk.injEq] at h
      obtain ⟨⟨hname, hbase⟩, hrest⟩ := h
      have hih := ih hrest
      simp only [refAmong, Template.find?, List.find?_cons, hname] at hih ⊢
      split
      · rw [Option.map_some, Option.map_some, hname, hbase]
      · exact hih

theorem withTemplate_eq (templates : List (Template α)) {e : Element α} (ht : e.template = none)
    (hb : e.base = none) :
    withTemplate templates e
      = { e with
          template := refAmong templates (textOrEmpty e.surface)
          base := (refAmong templates (textOrEmpty e.surface)).map TemplateRef.base } := by
  unfold withTemplate refAmong
  cases Template.find? templates (textOrEmpty e.surface) with
  | none => rw [Option.map_none, Option.map_none, ← ht, ← hb]
  | some t => rfl

/-- The last step of reading at one widget. -/
def finishStep (templates : List (Template α)) (e : Element α) (counts : Ledger Nat) :
    Element α × Ledger Nat :=
  (withTemplate templates (withId e counts).1, (withId e counts).2)

/-- The last step gives an id where there is none and marks instances, and that is all. -/
theorem finishStep_eq (templates : List (Template α)) {e : Element α} (ht : e.template = none)
    (hb : e.base = none) (counts : Ledger Nat) :
    ∃ v, (finishStep templates e counts).1
        = { e with
            id := some v
            template := refAmong templates (textOrEmpty e.surface)
            base := (refAmong templates (textOrEmpty e.surface)).map TemplateRef.base }
      ∧ (e.id = some v ∨ e.id = none ∧ IsGenerated v) := by
  obtain ⟨v, hv, hid⟩ := withId_eq e counts
  refine ⟨v, ?_, hid⟩
  rw [finishStep, hv, withTemplate_eq]
  · exact ht
  · exact hb

end Document

/-! ### Widgets -/

/-- A widget that was read and finished, in a document with some templates. -/
structure Element.IsFinished (lines : List Line) (templates : List (Template α)) (e : Element α) :
    Prop where
  /-- The widget was read. -/
  read : ∃ ls, e.ReadFrom lines ls
  /-- It has an id. -/
  id : ∃ v, e.id = some v
  /-- It is an instance when its type names a template. -/
  template : e.template = refAmong templates (textOrEmpty e.surface)
  /-- An instance has the type that its template is based on. -/
  base : e.base = e.template.map TemplateRef.base

theorem Element.IsFresh.isFinished {e : Element α} (h : e.IsFresh lines)
    (templates : List (Template α)) (counts : Ledger Nat) :
    (finishStep templates e counts).1.IsFinished lines templates := by
  obtain ⟨⟨ls, hr⟩, ht, hb⟩ := h
  obtain ⟨v, he, hid⟩ := finishStep_eq templates ht hb counts
  rw [he]
  refine ⟨⟨ls, hr.surface, hr.type, hr.inherited, hr.placement, hr.properties, ?_, ?_⟩, ⟨v, rfl⟩,
    rfl, rfl⟩
  · exact ⟨hr.has.sized, hr.has.anchors, hr.has.margins⟩
  · intro w hw
    cases hw
    exact hid.elim (hr.id v) fun h => h.2.2

/-! ### Documents -/

namespace Document

/-- What is true of a document that was read. -/
structure IsRead (lines : List Line) (d : Document α) : Prop where
  /-- Its widgets are finished. -/
  widgets : ∀ e ∈ Tree.forestLabels d.widgets, e.IsFinished lines d.templates
  /-- Its templates were read. -/
  templates : ∀ t ∈ d.templates, ∃ ls, t.ReadFrom lines ls
  /-- The widgets of templates are finished. -/
  bodies : ∀ t ∈ d.templates, ∀ e ∈ Tree.forestLabels t.children, e.IsFinished lines d.templates
  /-- The bases of templates were resolved in order. -/
  bases : ResolvedAmong [] d.templates

theorem mem_finishTemplates {step : Element α → Ledger Nat → Element α × Ledger Nat}
    {ts : List (Template α)} {counts : Ledger Nat} {u : Template α}
    (h : u ∈ finishTemplates step ts counts) :
    ∃ t ∈ ts, ∃ counts,
      u = { t with children := (Tree.forestMapState step t.children counts).1 } := by
  induction ts generalizing counts with
  | nil => cases h
  | cons t ts ih =>
    rw [finishTemplates] at h
    rcases List.mem_cons.1 h with h | h
    · exact ⟨t, by simp, counts, h⟩
    · obtain ⟨t', ht', hu⟩ := ih h
      exact ⟨t', List.mem_cons_of_mem _ ht', hu⟩

theorem resolvedAmong_finishTemplates {names : List String} {ts : List (Template α)}
    (h : ResolvedAmong names ts) (step : Element α → Ledger Nat → Element α × Ledger Nat)
    (counts : Ledger Nat) : ResolvedAmong names (finishTemplates step ts counts) := by
  induction ts generalizing names counts with
  | nil => exact trivial
  | cons t ts ih => exact ⟨h.1, ih h.2 _⟩

theorem map_finishTemplates {β : Type} {f : Template α → β}
    (hf : ∀ t children, f { t with children } = f t)
    (step : Element α → Ledger Nat → Element α × Ledger Nat) (ts : List (Template α))
    (counts : Ledger Nat) : (finishTemplates step ts counts).map f = ts.map f := by
  induction ts generalizing counts with
  | nil => rfl
  | cons t ts ih =>
    simp only [finishTemplates, List.map_cons, hf, ih]

/-- The last step leaves what names refer to. -/
theorem refAmong_finishTemplates (ts : List (Template α)) (counts : Ledger Nat) (name : String) :
    refAmong (finishTemplates (finishStep ts) ts counts) name = refAmong ts name :=
  refAmong_congr (map_finishTemplates (fun _ _ => rfl) _ _ _) name

/-- The last step makes a document of what was read. -/
theorem isRead_finish {r : Reading α} (h : r.IsFresh lines []) :
    (finish r.widgets r.templates).IsRead lines := by
  have hfinished : ∀ {e : Element α} {counts : Ledger Nat} (other : Ledger Nat), e.IsFresh lines →
      (finishStep r.templates e counts).1.IsFinished lines
        (finishTemplates (finishStep r.templates) r.templates other) := by
    intro e counts other he
    obtain ⟨hr, hid, ht, hb⟩ := he.isFinished r.templates counts
    exact ⟨hr, hid, ht.trans (refAmong_finishTemplates _ other _).symm, hb⟩
  have hlabels : ∀ {ts : List (Widget α)} (s other : Ledger Nat),
      (∀ e ∈ Tree.forestLabels ts, e.IsFresh lines) →
      ∀ e ∈ Tree.forestLabels (Tree.forestMapState (finishStep r.templates) ts s).1,
        e.IsFinished lines (finishTemplates (finishStep r.templates) r.templates other) := by
    intro ts s other hts e he
    obtain ⟨b, hb, s', rfl⟩ := Tree.exists_of_mem_forestMapState he
    exact hfinished other (hts b hb)
  refine ⟨hlabels {} _ h.widgets, fun u hu => ?_, fun u hu e he => ?_, ?_⟩
  · obtain ⟨t, ht, _, rfl⟩ := mem_finishTemplates hu
    obtain ⟨ls, hls⟩ := h.templates t ht
    exact ⟨ls, hls.name, hls.base, hls.properties⟩
  · obtain ⟨t, ht, s, rfl⟩ := mem_finishTemplates hu
    exact hlabels s _ (h.bodies t ht) e he
  · exact resolvedAmong_finishTemplates h.bases _ _

/-- The document that a text is read as, with the packaged types. -/
def parsed (text : String) : Document α := (read Registry.packaged text).value.document

/-- **Reading**: whatever the text, its document comes from its lines. -/
theorem isRead_parsed (text : String) : (parsed text : Document α).IsRead (Document.lines text) :=
  isRead_finish (isFresh_readParts (fun _ => isSound_of_mem_lines)
    (comesFrom_outline _ (List.Subset.refl _)) Registry.knows_packaged)

end Document

end Otui
