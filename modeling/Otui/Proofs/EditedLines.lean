import Otui.Proofs.WrittenLines
import Otui.Style.Reader

/-!
# Lines with other white space

Lines that say nothing may come in anywhere, and the white space around any line may be another, as
long as the line does not seem deeper or less deep: `IsEdited`. What counts as a depth is left open,
because style sheets compare every single character of white space in front and documents only tell
levels. Whatever looks at the content lines of a text through their depths and their texts alone
sees nothing of such an edit (`map_contentLines_eq`), and style sheets do so
(`Sheet.read_eq_of_isEdited`).
-/

namespace Otui.Text

open Otui.Document (withoutReturns)

variable {cs : List Char} {count : Nat → Nat}

/-! ### Edits -/

/-- A line that says nothing: white space, with or without a comment after it. -/
inductive SaysNothing : List Char → Prop where
  /-- White space alone. -/
  | blank {cs : List Char} : (∀ c ∈ cs, isBlank c = true) → SaysNothing cs
  /-- A comment with a number sign. -/
  | numberSign {a : List Char} (cs : List Char) : (∀ c ∈ a, isBlank c = true) →
    SaysNothing (a ++ '#' :: cs)
  /-- A comment with two slashes. -/
  | slashes {a : List Char} (cs : List Char) : (∀ c ∈ a, isBlank c = true) →
    SaysNothing (a ++ '/' :: '/' :: cs)

/-- A line and the same line with other white space in front, of a length that counts the same, and
with more white space at the end. -/
inductive Respaced (count : Nat → Nat) : List Char → List Char → Prop where
  /-- What stands after the white space in front stays. -/
  | mk {cs a b : List Char} : (∀ c ∈ a, isBlank c = true) → (∀ c ∈ b, isBlank c = true) →
    count a.length = count (blanksInFront cs) → Respaced count cs (a ++ trimStartChars cs ++ b)

/-- Lines, and the same lines with other white space and with lines between them that say nothing.
-/
inductive AreEdited (count : Nat → Nat) : List (List Char) → List (List Char) → Prop where
  /-- No lines. -/
  | nil : AreEdited count [] []
  /-- A line that says nothing comes in. -/
  | insert {k : List Char} {ls ks : List (List Char)} : SaysNothing k → AreEdited count ls ks →
    AreEdited count ls (k :: ks)
  /-- A line stays, with other white space. -/
  | keep {l k : List Char} {ls ks : List (List Char)} : Respaced count l k →
    AreEdited count ls ks → AreEdited count (l :: ls) (k :: ks)

/-- Texts of which the second is the first with other white space and more lines that say nothing.
-/
def IsEdited (count : Nat → Nat) (s t : String) : Prop :=
  AreEdited count (cutChars '\n' s.toList) (cutChars '\n' t.toList)

/-- White space at the end of a line does not count, whatever counts in front. -/
theorem respaced_append {b : List Char} (hb : ∀ c ∈ b, isBlank c = true) (cs : List Char) :
    Respaced count cs (cs ++ b) := by
  have h : Respaced count cs (cs.takeWhile isBlank ++ trimStartChars cs ++ b) :=
    .mk (fun c hc => List.mem_takeWhile_imp hc) hb rfl
  rwa [trimStartChars, List.takeWhile_append_dropWhile] at h

theorem Respaced.mono {coarse : Nat → Nat} {k : List Char}
    (hcount : ∀ m n, count m = count n → coarse m = coarse n) (h : Respaced count cs k) :
    Respaced coarse cs k := by
  obtain ⟨ha, hb, hlength⟩ := h
  exact .mk ha hb (hcount _ _ hlength)

theorem AreEdited.mono {coarse : Nat → Nat} {ls ks : List (List Char)}
    (hcount : ∀ m n, count m = count n → coarse m = coarse n) (h : AreEdited count ls ks) :
    AreEdited coarse ls ks := by
  induction h with
  | nil => exact .nil
  | insert hk _ ih => exact .insert hk ih
  | keep hlk _ ih => exact .keep (hlk.mono hcount) ih

/-- What counts less of the white space in front allows more edits. -/
theorem IsEdited.mono {coarse : Nat → Nat} {s t : String}
    (hcount : ∀ m n, count m = count n → coarse m = coarse n) (h : IsEdited count s t) :
    IsEdited coarse s t :=
  AreEdited.mono hcount h

/-! ### What reading sees -/

theorem isTrivia_trimChars (h : SaysNothing cs) : isTrivia (trimChars cs) = true := by
  cases h with
  | blank hcs =>
    rw [← List.append_nil cs, trimChars_append_left hcs]
    rfl
  | numberSign cs ha =>
    rw [trimChars_append_left ha, trimChars_cons (by decide)]
    rfl
  | slashes cs ha =>
    rw [trimChars_append_left ha, trimChars_cons (by decide), trimEndChars,
      show '/' :: cs = [] ++ '/' :: cs from rfl, dropEndWhile_append_cons (by decide)]
    rfl

/-- The white space in front ends at the first other character. -/
theorem blanksInFront_append_cons {a b : List Char} {c : Char} (ha : ∀ c ∈ a, isBlank c = true)
    (hc : isBlank c = false) : blanksInFront (a ++ c :: b) = a.length := by
  rw [blanksInFront, List.takeWhile_append_of_pos ha,
    List.takeWhile_cons_of_neg (by simp [hc] : ¬ isBlank c = true), List.append_nil]

/-- A line is white space alone, or white space and then something that starts with another
character. -/
theorem eq_append_cons_of_trimChars_ne_nil (h : trimChars cs ≠ []) :
    ∃ c b, isBlank c = false ∧ trimStartChars cs = c :: b
      ∧ cs = cs.takeWhile isBlank ++ c :: b := by
  cases hstart : trimStartChars cs with
  | nil =>
    rw [trimChars, hstart] at h
    exact absurd rfl h
  | cons c b =>
    exact ⟨c, b, head_trimStartChars hstart, rfl, by
      rw [← hstart, trimStartChars, List.takeWhile_append_dropWhile]⟩

theorem isBlank_of_eq_return {c : Char} (h : (c == '\r') = true) : isBlank c = true := by
  rw [beq_iff_eq.1 h]
  decide

/-- Carriage returns at the end of a line do not count. -/
theorem read?_withoutReturns (number : Nat) (cs : List Char) :
    ContentLine.read? number (withoutReturns cs) = ContentLine.read? number cs := by
  have htext : trimChars (withoutReturns cs) = trimChars cs :=
    trimChars_dropEndWhile fun _ => isBlank_of_eq_return
  simp only [ContentLine.read?, htext]
  split
  · rfl
  · next h =>
    have hne : trimChars cs ≠ [] := fun hnil => h (by rw [hnil]; rfl)
    obtain ⟨c, b, hc, -, hcs⟩ := eq_append_cons_of_trimChars_ne_nil hne
    have hreturn : (c == '\r') = false := by
      rw [← Bool.not_eq_true]
      exact fun hr => by simp [isBlank_of_eq_return hr] at hc
    have hblank : ∀ c ∈ cs.takeWhile isBlank, isBlank c = true :=
      fun _ hd => List.mem_takeWhile_imp hd
    have hfront : blanksInFront (withoutReturns cs) = blanksInFront cs := by
      rw [hcs, withoutReturns, dropEndWhile_append_cons (p := (· == '\r')) hreturn,
        blanksInFront_append_cons hblank hc, blanksInFront_append_cons hblank hc]
    rw [hfront]

theorem contentLinesFrom_cons_of_isTrivia (number : Nat) (ls : List (List Char))
    (h : isTrivia (trimChars cs) = true) :
    contentLinesFrom number (withoutReturns cs :: ls) = contentLinesFrom (number + 1) ls := by
  rw [contentLinesFrom, read?_withoutReturns]
  simp only [ContentLine.read?, h, if_true]

theorem contentLinesFrom_cons_of_not_isTrivia (number : Nat) (ls : List (List Char))
    (h : isTrivia (trimChars cs) = false) :
    contentLinesFrom number (withoutReturns cs :: ls)
      = ⟨number, blanksInFront cs, trimChars cs⟩ :: contentLinesFrom (number + 1) ls := by
  rw [contentLinesFrom, read?_withoutReturns]
  simp only [ContentLine.read?, h, Bool.false_eq_true, if_false]

/-- A line with other white space has the same text and seems as deep. -/
theorem Respaced.same {k : List Char} (h : Respaced count cs k) :
    trimChars k = trimChars cs
      ∧ (trimChars cs ≠ [] → count (blanksInFront k) = count (blanksInFront cs)) := by
  obtain ⟨ha, hb, hlength⟩ := h
  refine ⟨?_, fun hne => ?_⟩
  · rw [trimChars_append_right hb, trimChars_append_left ha]
    conv_rhs => rw [← List.takeWhile_append_dropWhile (p := isBlank) (l := cs)]
    rw [trimChars_append_left fun c hc => List.mem_takeWhile_imp hc, trimStartChars]
  · obtain ⟨c, r, hc, hstart, -⟩ := eq_append_cons_of_trimChars_ne_nil hne
    rw [hstart, List.append_assoc, List.cons_append, blanksInFront_append_cons ha hc, hlength]

/-- **Edits are not seen** by what looks at the depths of content lines, as far as they count, and
at their texts. -/
theorem map_contentLines_eq {β : Type} {f : ContentLine → β}
    (hf : ∀ k l : ContentLine, count k.indent = count l.indent → k.text = l.text → f k = f l)
    {s t : String} (h : IsEdited count s t) :
    (contentLines t).map f = (contentLines s).map f := by
  have hall : ∀ {ls ks : List (List Char)}, AreEdited count ls ks → ∀ m n : Nat,
      (contentLinesFrom m (ks.map withoutReturns)).map f
        = (contentLinesFrom n (ls.map withoutReturns)).map f := by
    intro ls ks h
    induction h with
    | nil => exact fun _ _ => rfl
    | insert hk _ ih =>
      intro m n
      rw [List.map_cons, contentLinesFrom_cons_of_isTrivia _ _ (isTrivia_trimChars hk)]
      exact ih _ _
    | keep hlk _ ih =>
      intro m n
      obtain ⟨htext, hdepth⟩ := hlk.same
      rw [List.map_cons, List.map_cons]
      cases hl : isTrivia (trimChars _) with
      | true =>
        rw [contentLinesFrom_cons_of_isTrivia _ _ (htext ▸ hl),
          contentLinesFrom_cons_of_isTrivia _ _ hl]
        exact ih _ _
      | false =>
        have hne : trimChars _ ≠ [] := fun hnil => by rw [hnil] at hl; cases hl
        rw [contentLinesFrom_cons_of_not_isTrivia _ _ (htext ▸ hl),
          contentLinesFrom_cons_of_not_isTrivia _ _ hl]
        exact congrArg₂ List.cons (hf _ _ (hdepth hne) htext) (ih _ _)
  exact hall h 1 1

end Otui.Text

namespace Otui.Sheet

open Otui.Text

/-! ### Style sheets -/

/-- A content line without its number. -/
def unnumbered (l : ContentLine) : ContentLine := { l with number := 0 }

/-- Sections do not depend on the numbers of lines. -/
theorem sections_map_unnumbered (ls : List ContentLine) :
    sections (ls.map unnumbered) = ((sections ls).1.map unnumbered,
      (sections ls).2.map fun s => { s with body := s.body.map unnumbered }) := by
  induction ls with
  | nil => rfl
  | cons l ls ih =>
    have hheader : header? (unnumbered l) = header? l := rfl
    rw [List.map_cons, sections, sections, ih, hheader]
    cases header? l <;> rfl

/-- Styles do not depend on the numbers of lines. -/
theorem style_map_unnumbered (s : Section) :
    Section.style { s with body := s.body.map unnumbered } = s.style := by
  have hread : ∀ (p : Progress) (l : ContentLine), p.read (unnumbered l) = p.read l :=
    fun _ _ => rfl
  simp only [Section.style, List.foldl_map, hread]

/-- Neither do style sheets. -/
theorem read_eq_unnumbered (text : String) :
    read text = ofSections (sections ((contentLines text).map unnumbered)).2 := by
  rw [read, sections_map_unnumbered, ofSections, ofSections, List.map_map]
  simp only [Function.comp_def, style_map_unnumbered]

/-- **A style sheet** is read as the same sheet after an edit that leaves the length of the white
space in front of its lines. -/
theorem read_eq_of_isEdited {s t : String} (h : IsEdited id s t) : read t = read s := by
  have hlines := map_contentLines_eq (f := unnumbered)
    (fun k l hindent htext => by
      rw [unnumbered, unnumbered, show k.indent = l.indent from hindent, htext]) h
  rw [read_eq_unnumbered, read_eq_unnumbered, hlines]

end Otui.Sheet
