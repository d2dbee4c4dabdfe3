import Otui.Proofs.EditedLines
import Otui.Proofs.FinishedDocuments
import Otui.Proofs.LineNesting

/-!
# What reading makes of white space and comments

The numbers of lines go into the property lines of a document and nowhere else, and of the white
space in front of a line reading uses the level alone. That a bare key counts only with white space
in front makes no difference: on the level of the roots there is no opening that it could belong to.
So the document without its numbers depends on the essences of the lines (`unnumbered_read`), and
these survive every edit of white space that leaves the levels (`edits_ignored`).
-/

namespace Otui

open Otui.Text Otui.Document

variable {α : Type}

/-! ### Documents without the numbers of their lines -/

/-- A property line without its number. -/
def PropertyLine.unnumbered (l : PropertyLine) : PropertyLine := { l with line := 0 }

/-- Properties without the numbers of their lines. -/
def Properties.unnumbered (p : Properties) : Properties :=
  { p with lines := p.lines.map PropertyLine.unnumbered }

/-- An element without the numbers of its lines. -/
def Element.unnumbered (e : Element α) : Element α :=
  { e with properties := e.properties.unnumbered }

/-- A template without the numbers of lines. -/
def Template.unnumbered (t : Template α) : Template α :=
  { t with
    properties := t.properties.unnumbered
    children := Tree.forestMap Element.unnumbered t.children }

/-- A document without the numbers of lines. -/
def Document.unnumbered (d : Document α) : Document α :=
  { widgets := Tree.forestMap Element.unnumbered d.widgets
    templates := d.templates.map Template.unnumbered }

/-- A property line of an opening without its number. -/
def OwnLine.unnumbered (l : OwnLine) : OwnLine := (l.key, l.value, l.raw, 0)

/-! ### Storing lines -/

/-- A line is stored in the same way whatever numbers there are. -/
theorem Properties.record?_unnumbered (p : Properties) (l : OwnLine) :
    p.unnumbered.record? l.value l.unnumbered.entry
      = (p.record? l.value l.entry).map Properties.unnumbered := by
  have hkey : l.unnumbered.entry.key = l.entry.key := rfl
  have hvalues : p.unnumbered.values = p.values := rfl
  rw [record?, record?, hkey]
  cases Key.parts? l.entry.key with
  | some ab =>
    simp only [recordCompound?, hvalues]
    split
    · rfl
    · rw [Option.map_some, unnumbered, unnumbered, List.map_append]
      rfl
  | none =>
    simp only [recordPlain?, hvalues, hkey]
    split
    · rfl
    · rw [Option.map_some, unnumbered, unnumbered, List.map_append]
      rfl

theorem Properties.after_unnumbered (p : Properties) (l : OwnLine) :
    p.unnumbered.after l.unnumbered = (p.after l).unnumbered := by
  have hvalue : l.unnumbered.value = l.value := rfl
  rw [after, after, hvalue, record?_unnumbered]
  cases p.record? l.value l.entry <;> rfl

theorem Properties.recordAll_unnumbered (p : Properties) (ls : List OwnLine) :
    p.unnumbered.recordAll (ls.map OwnLine.unnumbered) = (p.recordAll ls).unnumbered := by
  induction ls generalizing p with
  | nil => rfl
  | cons l ls ih => rw [List.map_cons, recordAll_cons, recordAll_cons, after_unnumbered, ih]

namespace Element

theorem storeLine_unnumbered (e : Element α) (l : OwnLine) :
    e.unnumbered.storeLine l.unnumbered = (e.storeLine l).unnumbered := by
  have hrecord : e.unnumbered.properties.record? l.value ⟨l.key, l.raw, (0 : Nat)⟩
      = (e.properties.record? l.value ⟨l.key, l.raw, l.number⟩).map Properties.unnumbered :=
    Properties.record?_unnumbered e.properties l
  change (e.unnumbered.store l.key l.value l.raw 0).1
    = (e.store l.key l.value l.raw l.number).1.unnumbered
  rw [store, store, hrecord]
  cases e.properties.record? l.value ⟨l.key, l.raw, l.number⟩ with
  | none => rfl
  | some p =>
    dsimp only [Option.map_some]
    repeat' split
    all_goals rfl

theorem storeAll_unnumbered (e : Element α) (ls : List OwnLine) :
    (e.unnumbered.storeAll (ls.map OwnLine.unnumbered)).1 = (e.storeAll ls).1.unnumbered := by
  induction ls generalizing e with
  | nil => rfl
  | cons l ls ih => rw [List.map_cons, storeAll_cons, storeAll_cons, storeLine_unnumbered, ih]

end Element

/-! ### Reading outlines -/

namespace Document

mutual

/-- A part of an outline without the numbers of its lines. -/
def Outline.unnumbered : Outline → Outline
  | .block name base _ body => .block name base 0 (Outline.allUnnumbered body)
  | .property key value raw _ => .property key value raw 0

/-- The parts of an outline without the numbers of their lines. -/
def Outline.allUnnumbered : List Outline → List Outline
  | [] => []
  | o :: os => o.unnumbered :: Outline.allUnnumbered os

end

/-- Whether a part of an outline is an opening with its body. -/
def Outline.isBlock : Outline → Bool
  | .block .. => true
  | .property .. => false

theorem ownProperties_allUnnumbered (os : List Outline) :
    ownProperties (Outline.allUnnumbered os) = (ownProperties os).map OwnLine.unnumbered := by
  induction os with
  | nil => rfl
  | cons o os ih =>
    rw [ownProperties, ownProperties] at ih
    rw [Outline.allUnnumbered, ownProperties, ownProperties]
    cases o with
    | block name base number body => simpa [Outline.unnumbered] using ih
    | property key value raw number =>
      simpa [Outline.unnumbered, OwnLine.unnumbered, OwnLine.key, OwnLine.value, OwnLine.raw]
        using ih

/-- Two readings that say the same, one of them without the numbers of lines. -/
structure Reading.IsUnnumbered (r s : Reading α) : Prop where
  /-- The widgets are the same but for the numbers. -/
  widgets : s.widgets = Tree.forestMap Element.unnumbered r.widgets
  /-- The templates are the same but for the numbers. -/
  templates : s.templates = r.templates.map Template.unnumbered
  /-- The registries are the same. -/
  registry : s.registry = r.registry

mutual

theorem isUnnumbered_readPart : ∀ (o : Outline) (r : Registry),
    (readPart (α := α) o r).IsUnnumbered (readPart o.unnumbered r)
  | .property .., _ => ⟨rfl, rfl, rfl⟩
  | .block name none number body, r => by
    obtain ⟨hwidgets, htemplates, hregistry⟩ :=
      isUnnumbered_readParts body (r.ensure (r.resolve name)).value
    have hown := Element.storeAll_unnumbered (opened (r.resolve name) name : Element α)
      (ownProperties body)
    rw [Outline.unnumbered, readPart, readPart, ownProperties_allUnnumbered]
    refine ⟨?_, htemplates, hregistry⟩
    rw [Tree.forestMap_nodeCons, ← hwidgets]
    exact congrArg (fun e => [Tree.node e _]) hown
  | .block name (some base) number body, r => by
    obtain ⟨hwidgets, htemplates, hregistry⟩ :=
      isUnnumbered_readParts body (r.registerTemplate name (r.resolve base)).value
    have hown := Properties.recordAll_unnumbered {} (ownProperties body)
    rw [Outline.unnumbered, readPart, readPart, ownProperties_allUnnumbered]
    refine ⟨rfl, congrArg₂ List.cons ?_ htemplates, hregistry⟩
    rw [Template.unnumbered, ← hwidgets]
    exact congrArg (fun p => Template.mk name base _ p _) hown

theorem isUnnumbered_readParts : ∀ (os : List Outline) (r : Registry),
    (readParts (α := α) os r).IsUnnumbered (readParts (Outline.allUnnumbered os) r)
  | [], _ => ⟨rfl, rfl, rfl⟩
  | o :: os, r => by
    obtain ⟨hwidgets, htemplates, hregistry⟩ := isUnnumbered_readPart o r
    obtain ⟨hwidgets', htemplates', hregistry'⟩ :=
      isUnnumbered_readParts os (readPart (α := α) o r).registry
    rw [Outline.allUnnumbered, readParts, readParts, hregistry]
    refine ⟨?_, ?_, hregistry'⟩
    · simp only [hwidgets, hwidgets', Tree.forestMap_eq_map, List.map_append]
    · simp only [htemplates, htemplates', List.map_append]

end

/-! ### The last step of reading -/

theorem find?_map_unnumbered (templates : List (Template α)) (name : String) :
    Template.find? (templates.map Template.unnumbered) name
      = (Template.find? templates name).map Template.unnumbered := by
  rw [Template.find?, Template.find?, List.find?_map]
  rfl

/-- Ids and instances do not depend on the numbers of lines. -/
theorem finishStep_unnumbered (templates : List (Template α)) (e : Element α)
    (counts : Ledger Nat) :
    finishStep (templates.map Template.unnumbered) e.unnumbered counts
      = ((finishStep templates e counts).1.unnumbered, (finishStep templates e counts).2) := by
  have hid : withId e.unnumbered counts
      = ((withId e counts).1.unnumbered, (withId e counts).2) := by
    cases hid : e.id <;> simp [withId, Element.unnumbered, hid]
  have htemplate : ∀ e : Element α, withTemplate (templates.map Template.unnumbered) e.unnumbered
      = (withTemplate templates e).unnumbered := by
    intro e
    have hsurface : e.unnumbered.surface = e.surface := rfl
    rw [withTemplate, withTemplate, hsurface, find?_map_unnumbered]
    cases Template.find? templates (textOrEmpty e.surface) <;> rfl
  rw [finishStep, finishStep, hid, htemplate]

theorem forestMapState_unnumbered (templates : List (Template α)) (ws : List (Widget α))
    (counts : Ledger Nat) :
    Tree.forestMapState (finishStep (templates.map Template.unnumbered))
        (Tree.forestMap Element.unnumbered ws) counts
      = (Tree.forestMap Element.unnumbered
            (Tree.forestMapState (finishStep templates) ws counts).1,
          (Tree.forestMapState (finishStep templates) ws counts).2) := by
  induction ws using Tree.forest_induction generalizing counts with
  | nil => rfl
  | cons e cs ws ihc ihw =>
    rw [Tree.forestMap_nodeCons, Tree.forestMapState_nodeCons, Tree.forestMapState_nodeCons,
      finishStep_unnumbered, Tree.forestMap_nodeCons]
    simp only [ihc, ihw]

theorem finish_eq (widgets : List (Widget α)) (templates : List (Template α)) :
    finish widgets templates
      = { widgets := (Tree.forestMapState (finishStep templates) widgets {}).1
          templates := finishTemplates (finishStep templates) templates
            (Tree.forestMapState (finishStep templates) widgets {}).2 } := rfl

/-- The last step of reading does not depend on the numbers of lines. -/
theorem finish_unnumbered (widgets : List (Widget α)) (templates : List (Template α)) :
    finish (Tree.forestMap Element.unnumbered widgets) (templates.map Template.unnumbered)
      = (finish widgets templates).unnumbered := by
  have hbodies : ∀ (ts : List (Template α)) (counts : Ledger Nat),
      finishTemplates (finishStep (templates.map Template.unnumbered))
          (ts.map Template.unnumbered) counts
        = (finishTemplates (finishStep templates) ts counts).map Template.unnumbered := by
    intro ts
    induction ts with
    | nil => exact fun _ => rfl
    | cons t ts ih =>
      intro counts
      have hchildren : t.unnumbered.children = Tree.forestMap Element.unnumbered t.children := rfl
      rw [List.map_cons, finishTemplates, finishTemplates, hchildren, forestMapState_unnumbered]
      exact congrArg (List.cons _) (ih _)
  rw [finish_eq, finish_eq, forestMapState_unnumbered, hbodies]
  rfl

/-! ### The essence of a line -/

/-- A line as reading makes use of it: its level, and what it says unless it is a property on the
level of the roots. -/
def Line.essence (l : Line) : Line :=
  { number := 0
    indent := 2 * l.level
    content := if l.isOpening || 0 < l.level then l.content else .other }

theorem level_essence (l : Line) : l.essence.level = l.level := by
  simp [Line.essence, Line.level]

theorem essence_congr {k l : Line} (hlevel : k.level = l.level) (hcontent : k.content = l.content) :
    k.essence = l.essence := by
  have hopening : k.isOpening = l.isOpening := by
    simp only [Line.isOpening, Line.isWidget, Line.isTemplate, hcontent]
  rw [Line.essence, Line.essence, hlevel, hcontent, hopening]

theorem isBelow_essence (level : Nat) (l : Line) : l.essence.isBelow level = l.isBelow level := by
  rw [Line.isBelow, Line.isBelow, level_essence]

/-- Below an opening the outline of essences is the outline without its numbers, and at the top it
has the same openings. -/
theorem outline_map_essence (ls : List Line) :
    ((∀ l ∈ ls, 0 < l.level) → outline (ls.map Line.essence) = Outline.allUnnumbered (outline ls))
      ∧ (outline (ls.map Line.essence)).filter Outline.isBlock
        = (Outline.allUnnumbered (outline ls)).filter Outline.isBlock := by
  fun_induction outline ls with
  | case1 => exact ⟨fun _ => by simp [Outline.allUnnumbered], by simp [Outline.allUnnumbered]⟩
  | case2 l rest name base hl ihbody ihrest =>
    have hopening : l.isOpening = true := by
      cases base <;> simp [Line.isOpening, Line.isWidget, Line.isTemplate, hl]
    have hcontent : l.essence.content = .opening name base := by
      simp [Line.essence, hopening, hl]
    have hbelow : Line.isBelow l.essence.level ∘ Line.essence = Line.isBelow l.level := by
      funext k
      rw [Function.comp_apply, isBelow_essence, level_essence]
    have hbody := ihbody.1 fun k hk => by
      have hk' : l.level < k.level := by simpa [Line.isBelow] using List.mem_takeWhile_imp hk
      omega
    rw [List.map_cons, outline, hcontent, List.takeWhile_map, List.dropWhile_map, hbelow]
    simp only [hbody, Outline.allUnnumbered, Outline.unnumbered]
    refine ⟨fun h => congrArg _ (ihrest.1 fun k hk => ?_), ?_⟩
    · exact h k (List.mem_cons_of_mem _ (List.dropWhile_subset _ hk))
    · rw [List.filter_cons_of_pos rfl, List.filter_cons_of_pos rfl, ihrest.2]
      rfl
  | case3 l rest key value raw hl ih =>
    have hopening : l.isOpening = false := by
      simp [Line.isOpening, Line.isWidget, Line.isTemplate, hl]
    rw [List.map_cons, Outline.allUnnumbered, Outline.unnumbered,
      List.filter_cons_of_neg (by simp [Outline.isBlock]), ← ih.2]
    rcases Nat.eq_zero_or_pos l.level with hzero | hpos
    · have hcontent : l.essence.content = .other := by simp [Line.essence, hopening, hzero]
      rw [outline, hcontent]
      exact ⟨fun h => absurd (h l List.mem_cons_self) (by omega), rfl⟩
    · have hcontent : l.essence.content = .property key value raw := by
        simp [Line.essence, hpos, hl]
      rw [outline, hcontent]
      refine ⟨fun h => congrArg _ (ih.1 fun k hk => h k (List.mem_cons_of_mem _ hk)), ?_⟩
      exact List.filter_cons_of_neg (by simp [Outline.isBlock])
  | case4 l rest hl ih =>
    have hcontent : l.essence.content = .other := by simp [Line.essence, hl]
    rw [List.map_cons, outline, hcontent]
    exact ⟨fun h => ih.1 fun k hk => h k (List.mem_cons_of_mem _ hk), ih.2⟩

/-- Property lines outside of all openings are not read. -/
theorem readParts_filter_isBlock (os : List Outline) (r : Registry) :
    readParts (α := α) (os.filter Outline.isBlock) r = readParts os r := by
  induction os generalizing r with
  | nil => rfl
  | cons o os ih =>
    cases o with
    | block name base number body =>
      rw [List.filter_cons_of_pos rfl, readParts, readParts, ih]
    | property key value raw number =>
      rw [List.filter_cons_of_neg (by simp [Outline.isBlock]), ih, readParts, readPart]
      rfl

/-- **Reading makes use of the essences of lines**: they decide the document, the numbers of its
lines apart. -/
theorem unnumbered_read (registry : Registry) (text : String) :
    (read (α := α) registry text).value.document.unnumbered
      = finish (readParts (outline ((lines text).map Line.essence)) registry).widgets
          (readParts (outline ((lines text).map Line.essence)) registry).templates := by
  obtain ⟨hwidgets, htemplates, -⟩ :=
    isUnnumbered_readParts (α := α) (outline (lines text)) registry
  have hparts : readParts (α := α) (outline ((lines text).map Line.essence)) registry
      = readParts (Outline.allUnnumbered (outline (lines text))) registry := by
    rw [← readParts_filter_isBlock, (outline_map_essence (lines text)).2, readParts_filter_isBlock]
  rw [hparts, hwidgets, htemplates, finish_unnumbered]
  rfl

/-! ### Edits -/

/-- A text without the form of an opening says a property or nothing. -/
theorem isOpening_ofText_of_none {l : ContentLine} (h : opening? l.text = none) :
    (Line.ofText l).isOpening = false := by
  have hcolon : ∀ c ∈ colonProperty? l.text, ∃ key value raw, c = .property key value raw := by
    intro c hc
    unfold colonProperty? at hc
    grind
  have hspace : ∀ c ∈ spaceProperty? l.text, ∃ key value raw, c = .property key value raw := by
    intro c hc
    unfold spaceProperty? at hc
    grind
  have hbare : ∀ c ∈ bareProperty? l.indent l.text,
      ∃ key value raw, c = .property key value raw := by
    intro c hc
    unfold bareProperty? at hc
    grind
  have hcontent : (Line.ofText l).content = .other
      ∨ ∃ key value raw, (Line.ofText l).content = .property key value raw := by
    simp only [Line.ofText, contentOf, h]
    cases hc : colonProperty? l.text with
    | some c => exact .inr (hcolon c hc)
    | none =>
      cases hs : spaceProperty? l.text with
      | some c => exact .inr (hspace c hs)
      | none =>
        cases hb : bareProperty? l.indent l.text with
        | some c => exact .inr (hbare c hb)
        | none => exact .inl rfl
  rcases hcontent with hc | ⟨key, value, raw, hc⟩ <;>
    simp [Line.isOpening, Line.isWidget, Line.isTemplate, hc]

/-- With white space in front, how much of it there is makes no difference. -/
theorem contentOf_of_pos {m n : Nat} (hm : 0 < m) (hn : 0 < n) (cs : List Char) :
    contentOf m cs = contentOf n cs := by
  simp only [contentOf, bareProperty?, hm, hn]

/-- What a line says depends on its text and on its level, but for a property on the level of the
roots. -/
theorem essence_ofText {k l : ContentLine} (hlevel : k.indent / 2 = l.indent / 2)
    (htext : k.text = l.text) : (Line.ofText k).essence = (Line.ofText l).essence := by
  have hlevels : (Line.ofText k).level = (Line.ofText l).level := hlevel
  cases ho : opening? l.text with
  | some opening =>
    -- an opening stays one at any depth
    refine essence_congr hlevels ?_
    simp only [Line.ofText, contentOf, htext, ho]
  | none =>
    rcases Nat.eq_zero_or_pos (l.indent / 2) with hzero | hpos
    · have hk := isOpening_ofText_of_none (htext ▸ ho)
      have hl := isOpening_ofText_of_none ho
      have hzero' : (Line.ofText l).level = 0 := hzero
      simp [Line.essence, hlevels, hk, hl, hzero']
    · refine essence_congr hlevels ?_
      rw [Line.ofText, Line.ofText, htext]
      exact contentOf_of_pos (by omega) (by omega) _

end Document

/-- **White space and comments do not count**: a text with more white space at the ends of its
lines, other white space of the same length in front, and more empty lines and comments is read as
the same style sheet; and as the same document, the numbers of lines apart, even when the white
space in front only tells the same levels. -/
theorem edits_ignored (s t : String) :
    (IsEdited id s t → Sheet.read t = Sheet.read s ∧ ∀ registry : Registry,
        (read (α := α) registry t).value.document.unnumbered
          = (read (α := α) registry s).value.document.unnumbered)
      ∧ (IsEdited (· / 2) s t → ∀ registry : Registry,
        (read (α := α) registry t).value.document.unnumbered
          = (read (α := α) registry s).value.document.unnumbered) := by
  have hdocument : IsEdited (· / 2) s t → ∀ registry : Registry,
      (read (α := α) registry t).value.document.unnumbered
        = (read (α := α) registry s).value.document.unnumbered := by
    intro h registry
    have hlines : (Document.lines t).map Line.essence = (Document.lines s).map Line.essence := by
      rw [Document.lines, Document.lines, List.map_map, List.map_map]
      exact map_contentLines_eq (fun k l => essence_ofText) h
    rw [unnumbered_read, unnumbered_read, hlines]
  exact ⟨fun h => ⟨Sheet.read_eq_of_isEdited h, hdocument (h.mono fun _ _ => congrArg (· / 2))⟩,
    hdocument⟩

/-- A panel with a comment before it, line ends of two characters and an empty line in it; and the
same panel with three other characters in front of its one property. -/
theorem edits_ignored_panel :
    (IsEdited id "Panel\n  id: p" " # note\r\nPanel\r\n\t\n  id: p \r"
        ∧ Sheet.read " # note\r\nPanel\r\n\t\n  id: p \r" = Sheet.read "Panel\n  id: p"
        ∧ (read (α := Rat) .packaged " # note\r\nPanel\r\n\t\n  id: p \r").value.document.unnumbered
          = (read (α := Rat) .packaged "Panel\n  id: p").value.document.unnumbered)
      ∧ IsEdited (· / 2) "Panel\n  id: p" "Panel\n\t\t id: p"
        ∧ (read (α := Rat) .packaged "Panel\n\t\t id: p").value.document.unnumbered
          = (read (α := Rat) .packaged "Panel\n  id: p").value.document.unnumbered := by
  -- white space is looked at character by character
  have hblanks (cs : List Char) (h : cs.all isBlank = true) : ∀ c ∈ cs, isBlank c = true :=
    List.all_eq_true.1 h
  have hends : IsEdited id "Panel\n  id: p" " # note\r\nPanel\r\n\t\n  id: p \r" :=
    .insert (.numberSign (a := [' ']) [' ', 'n', 'o', 't', 'e', '\r'] (hblanks _ rfl)) <|
      .keep (respaced_append (hblanks ['\r'] rfl) ['P', 'a', 'n', 'e', 'l']) <|
      .insert (.blank (hblanks _ rfl)) <|
      .keep (respaced_append (hblanks [' ', '\r'] rfl) [' ', ' ', 'i', 'd', ':', ' ', 'p']) .nil
  have hfront : IsEdited (· / 2) "Panel\n  id: p" "Panel\n\t\t id: p" :=
    .keep (respaced_append (hblanks [] rfl) ['P', 'a', 'n', 'e', 'l']) <|
      .keep (.mk (hblanks ['\t', '\t', ' '] rfl) (hblanks [] rfl) rfl) .nil
  obtain ⟨hsheet, hdocument⟩ := (edits_ignored (α := Rat) _ _).1 hends
  exact ⟨⟨hends, hsheet, hdocument _⟩, hfront, (edits_ignored (α := Rat) _ _).2 hfront _⟩

end Otui
