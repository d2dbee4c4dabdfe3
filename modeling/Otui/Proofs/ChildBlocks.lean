import Otui.Proofs.JoinedSheets

/-!
# Widgets in styles

A line in a style that opens a widget stands for a block, together with the deeper lines below it.
Blocks say nothing about styles: any of them can be left out (`read_withoutBlocks`). What a block
does to the run is to end a state that is open at its depth or deeper. A run without the block keeps
that state open, but only up to the next line, which is no deeper than the block and ends the state
as well. So the two runs agree about lines up to the depth of the block (`Progress.AgreeUpTo`),
and no other line can come next.
-/

namespace Otui

namespace Sheet

open Otui.Text

/-! ### Blocks -/

/-- The depth of a line that opens a widget in a style: a content line with white space in front
that starts with a capital letter and has the form of a header. -/
def childDepth? (cs : List Char) : Option Nat :=
  match ContentLine.read? 0 cs with
  | some l => if 0 < l.indent && (Document.opening? l.text).isSome then some l.indent else none
  | none => none

/-- Whether a line goes on with a block of some depth: it is deeper, or no content line. -/
def goesOn (depth : Nat) (cs : List Char) : Bool :=
  match ContentLine.read? 0 cs with
  | some l => depth < l.indent
  | none => true

/-- The lines that are left when blocks are left out. A block is chosen by the number of its first
line; what opens a widget inside a block starts none of its own. -/
def linesWithout (chosen : Nat → Bool) (number : Nat) : List (List Char) → List (List Char)
  | [] => []
  | cs :: rest =>
    match childDepth? cs with
    | none => cs :: linesWithout chosen (number + 1) rest
    | some depth =>
      let block := cs :: rest.takeWhile (goesOn depth)
      let left := linesWithout chosen (number + block.length) (rest.dropWhile (goesOn depth))
      if chosen number then left else block ++ left
  termination_by ls => ls.length
  decreasing_by
    · simp
    · have := (List.dropWhile_suffix (goesOn depth) (l := rest)).length_le
      simp only [List.length_cons]
      omega

/-- A text without the blocks whose first lines have the chosen numbers. -/
def withoutBlocks (chosen : Nat → Bool) (text : String) : String :=
  String.ofList (['\n'].intercalate (linesWithout chosen 1 (cutChars '\n' text.toList)))

theorem linesWithout_sublist (chosen : Nat → Bool) (number : Nat) (ls : List (List Char)) :
    (linesWithout chosen number ls).Sublist ls := by
  fun_induction linesWithout chosen number ls with
  | case1 => exact .slnil
  | case2 number cs rest hdepth ih => exact ih.cons_cons cs
  | case3 number cs rest depth hdepth block left hchosen ih =>
    exact (ih.trans (List.dropWhile_suffix _).sublist).cons cs
  | case4 number cs rest depth hdepth block left hchosen ih =>
    have happend := (List.Sublist.refl (rest.takeWhile (goesOn depth))).append ih
    rw [List.takeWhile_append_dropWhile] at happend
    exact happend.cons_cons cs

/-! ### Lines of blocks -/

section Lines

variable {cs : List Char} {depth : Nat} {l : ContentLine}

/-- A line that opens a widget is no header. -/
theorem exists_of_childDepth? (h : childDepth? cs = some depth) :
    ∃ l, ContentLine.read? 0 cs = some l ∧ l.indent = depth ∧ 0 < depth
      ∧ (Document.opening? l.text).isSome = true := by
  rw [childDepth?] at h
  split at h
  · next l hl =>
    split at h
    · next hopens =>
      cases h
      rw [Bool.and_eq_true, decide_eq_true_eq] at hopens
      exact ⟨l, hl, rfl, hopens⟩
    · cases h
  · cases h

theorem header?_of_pos (h : 0 < l.indent) : header? l = none := by
  rw [header?, if_neg]
  rw [beq_iff_eq]
  exact Nat.ne_of_gt h

/-- The content lines of a block below its first line are deeper. -/
theorem lt_indent_of_mem_contents {ls : List (List Char)}
    (hl : l ∈ contents (ls.takeWhile (goesOn depth))) : depth < l.indent := by
  obtain ⟨cs, hcs, hread⟩ := List.mem_filterMap.1 hl
  have hgoes := List.mem_takeWhile_imp hcs
  rw [goesOn, hread] at hgoes
  exact of_decide_eq_true hgoes

/-- The content line after a block is no deeper than the block. -/
theorem indent_le_of_mem_head? {ls : List (List Char)}
    (hl : l ∈ (contents (ls.dropWhile (goesOn depth))).head?) : l.indent ≤ depth := by
  cases hrest : ls.dropWhile (goesOn depth) with
  | nil => rw [hrest] at hl; cases hl
  | cons cs rest =>
    have hends : goesOn depth cs = false := by
      have hhead := List.head?_dropWhile_not (goesOn depth) ls
      rw [hrest] at hhead
      simpa using hhead
    rw [goesOn] at hends
    split at hends
    · next k hk =>
      rw [hrest, contents_cons_of_some hk] at hl
      cases hl
      exact Nat.le_of_not_lt (of_decide_eq_false hends)
    · cases hends

theorem sections_append_of_deeper {ls : List ContentLine} (h : ∀ l ∈ ls, depth < l.indent)
    (ks : List ContentLine) : sections (ls ++ ks) = (ls ++ (sections ks).1, (sections ks).2) := by
  induction ls with
  | nil => rfl
  | cons l ls ih =>
    obtain ⟨hl, hls⟩ := List.forall_mem_cons.1 h
    rw [List.cons_append, sections_cons_of_none (header?_of_pos (Nat.zero_lt_of_lt hl)), ih hls]
    rfl

end Lines

/-! ### Two runs over a section -/

namespace Progress

/-- Two runs read lines alike up to some depth: they have the same style and pass over no such line,
and a state that lasts at the depth is open in both or in neither. -/
structure AgreeUpTo (depth : Nat) (p q : Progress) : Prop where
  /-- The styles so far are the same. -/
  style : p.style = q.style
  /-- So is the state that lasts at the depth. -/
  state : p.stateAt depth = q.stateAt depth
  /-- The first run passes over no line of the depth. -/
  passing : ∀ d ∈ p.passing, depth ≤ d
  /-- Neither does the second. -/
  passing' : ∀ d ∈ q.passing, depth ≤ d

variable {p q : Progress} {depth d : Nat} {l : ContentLine}

theorem agreeUpTo_self (h : ∀ d ∈ p.passing, depth ≤ d) : AgreeUpTo depth p p := ⟨rfl, rfl, h, h⟩

/-- A state that lasts at a depth is one of those that last deeper down. -/
theorem stateAt_of_le (p : Progress) (h : d ≤ depth) :
    p.stateAt d = (p.stateAt depth).filter fun s => s.2 < d := by
  rw [stateAt, stateAt, Option.filter_filter]
  refine congrArg (Option.filter · p.state) (funext fun s => ?_)
  rw [Bool.eq_iff_iff]
  simp only [Bool.and_eq_true, decide_eq_true_eq]
  exact ⟨fun hs => ⟨Nat.lt_of_lt_of_le hs h, hs⟩, And.right⟩

theorem AgreeUpTo.mono (h : AgreeUpTo depth p q) (hd : d ≤ depth) : AgreeUpTo d p q where
  style := h.style
  state := by rw [p.stateAt_of_le hd, q.stateAt_of_le hd, h.state]
  passing := fun e he => hd.trans (h.passing e he)
  passing' := fun e he => hd.trans (h.passing' e he)

theorem passes_eq_false (h : ∀ d ∈ p.passing, l.indent ≤ d) : p.passes l = false := by
  rw [passes]
  split
  · next d hd => exact decide_eq_false (Nat.not_lt.2 (h d hd))
  · rfl

/-- Runs that agree up to the depth of a line read it alike. -/
theorem AgreeUpTo.read_eq (h : AgreeUpTo l.indent p q) : p.read l = q.read l := by
  simp only [read, passes_eq_false h.passing, passes_eq_false h.passing', Bool.false_eq_true,
    if_false, openState, h.style, h.state]

/-- A run passes over what is deeper than a widget. -/
theorem foldl_read_of_deeper {ls : List ContentLine} (hp : p.passing = some depth)
    (h : ∀ l ∈ ls, depth < l.indent) : ls.foldl read p = p := by
  induction ls with
  | nil => rfl
  | cons l ls ih =>
    obtain ⟨hl, hls⟩ := List.forall_mem_cons.1 h
    have hpasses : p.passes l = true := by
      rw [passes, hp]
      exact decide_eq_true hl
    rw [List.foldl_cons, read, if_pos hpasses, ih hls]

theorem stateName?_of_opening {cs : List Char} (h : (Document.opening? cs).isSome = true) :
    stateName? cs = none := by
  cases cs with
  | nil => rfl
  | cons c cs =>
    have hc : c ≠ '$' := by
      rintro rfl
      cases h
    unfold stateName?
    split
    · next heq => exact absurd (List.cons.inj heq).1 hc
    · rfl

/-- At a line that opens a widget a run ends a state that does not last, and starts to pass over
what is deeper. -/
theorem read_of_opening (hpassing : ∀ d ∈ p.passing, l.indent ≤ d) (hpos : 0 < l.indent)
    (hopens : (Document.opening? l.text).isSome = true) :
    p.read l = { p with state := p.stateAt l.indent, passing := some l.indent } := by
  rw [read, passes_eq_false hpassing, if_neg Bool.false_ne_true, stateName?_of_opening hopens]
  simp only [hopens, hpos, decide_true, Bool.and_true, if_true]

/-- A line that opens no widget leaves nothing to pass over. -/
theorem passing_read (hpassing : ∀ d ∈ p.passing, l.indent ≤ d)
    (h : (0 < l.indent && (Document.opening? l.text).isSome) = false) :
    (p.read l).passing = none := by
  rw [read, passes_eq_false hpassing, if_neg Bool.false_ne_true]
  split
  · rfl
  · simp only [h, Bool.false_eq_true, if_false]
    split <;> rfl

/-- A run that read a block agrees with one that did not, up to the depth of the block. -/
theorem AgreeUpTo.read_block (h : AgreeUpTo l.indent p q) (hpos : 0 < l.indent)
    (hopens : (Document.opening? l.text).isSome = true) : AgreeUpTo l.indent (p.read l) q := by
  have hread := read_of_opening h.passing hpos hopens
  refine ⟨?_, ?_, ?_, h.passing'⟩
  · rw [hread]
    exact h.style
  · rw [hread, ← h.state]
    exact (p.stateAt_of_le (Nat.le_refl _)).symm
  · rw [hread]
    intro d hd
    cases hd
    exact Nat.le_refl _

end Progress

/-! ### Two runs over a text -/

/-- Two lists of content lines say the same. -/
structure SayAlike (ls ks : List ContentLine) : Prop where
  /-- Runs over the lines before the first header end with the same style, if they start with the
  same style and agree up to the depth of the first line of the first list. -/
  before : ∀ p q : Progress, p.style = q.style →
    (∀ l ∈ ls.head?, Progress.AgreeUpTo l.indent p q) →
    ((sections ks).1.foldl Progress.read q).style = ((sections ls).1.foldl Progress.read p).style
  /-- The sections are the same styles under the same names. -/
  styles : (sections ks).2.map (fun s => (s.name, s.style))
    = (sections ls).2.map fun s => (s.name, s.style)

section SayAlike

variable {ls ks inner : List ContentLine} {l : ContentLine}

theorem sayAlike_nil : SayAlike [] [] := ⟨fun _ _ h _ => h.symm, rfl⟩

/-- A line that opens no widget stays. -/
theorem SayAlike.cons (h : SayAlike ls ks)
    (hl : (0 < l.indent && (Document.opening? l.text).isSome) = false) :
    SayAlike (l :: ls) (l :: ks) := by
  cases hheader : header? l with
  | none =>
    refine ⟨fun p q _ hagree => ?_, ?_⟩
    · have hp : Progress.AgreeUpTo l.indent p q := hagree l rfl
      have hnone := Progress.passing_read hp.passing hl
      rw [sections_cons_of_none hheader, sections_cons_of_none hheader, List.foldl_cons,
        List.foldl_cons, ← hp.read_eq]
      exact h.before _ _ rfl fun k _ => Progress.agreeUpTo_self (by simp [hnone])
    · rw [sections_cons_of_none hheader, sections_cons_of_none hheader]
      exact h.styles
  | some header =>
    refine ⟨fun p q hstyle _ => ?_, ?_⟩
    · rw [sections_cons_of_header hheader, sections_cons_of_header hheader]
      exact hstyle.symm
    · -- a section starts with nothing to pass over
      have hstyle := h.before { style := { name := header.1, parent := header.2 } } _ rfl
        fun k _ => Progress.agreeUpTo_self (by simp)
      rw [sections_cons_of_header hheader, sections_cons_of_header hheader, List.map_cons,
        List.map_cons, h.styles]
      exact congrArg (fun style => (header.1, style) :: _) hstyle

/-- The lines before the first header, when a block comes first. -/
theorem sections_block_append (hpos : 0 < l.indent) (hinner : ∀ k ∈ inner, l.indent < k.indent) :
    sections (l :: (inner ++ ls)) = (l :: (inner ++ (sections ls).1), (sections ls).2) := by
  rw [sections_cons_of_none (header?_of_pos hpos), sections_append_of_deeper hinner]

/-- A run over a block reads its first line and passes over the others. -/
theorem foldl_read_block {p : Progress} (hpassing : ∀ d ∈ p.passing, l.indent ≤ d)
    (hpos : 0 < l.indent) (hopens : (Document.opening? l.text).isSome = true)
    (hinner : ∀ k ∈ inner, l.indent < k.indent) :
    (l :: (inner ++ ls)).foldl Progress.read p = ls.foldl Progress.read (p.read l) := by
  have hpasses : (p.read l).passing = some l.indent := by
    rw [Progress.read_of_opening hpassing hpos hopens]
  rw [List.foldl_cons, List.foldl_append, Progress.foldl_read_of_deeper hpasses hinner]

/-- A block stays. -/
theorem SayAlike.keepBlock (h : SayAlike ls ks) (hpos : 0 < l.indent)
    (hopens : (Document.opening? l.text).isSome = true) (hinner : ∀ k ∈ inner, l.indent < k.indent)
    (hnext : ∀ k ∈ ls.head?, k.indent ≤ l.indent) :
    SayAlike (l :: (inner ++ ls)) (l :: (inner ++ ks)) := by
  refine ⟨fun p q _ hagree => ?_, ?_⟩
  · have hp : Progress.AgreeUpTo l.indent p q := hagree l rfl
    have hself := (Progress.agreeUpTo_self hp.passing).read_block hpos hopens
    rw [sections_block_append hpos hinner, sections_block_append hpos hinner,
      foldl_read_block hp.passing hpos hopens hinner,
      foldl_read_block hp.passing' hpos hopens hinner, ← hp.read_eq]
    exact h.before _ _ rfl fun k hk => Progress.agreeUpTo_self
      (hself.mono (hnext k hk)).passing
  · rw [sections_block_append hpos hinner, sections_block_append hpos hinner]
    exact h.styles

/-- A block is left out. -/
theorem SayAlike.dropBlock (h : SayAlike ls ks) (hpos : 0 < l.indent)
    (hopens : (Document.opening? l.text).isSome = true) (hinner : ∀ k ∈ inner, l.indent < k.indent)
    (hnext : ∀ k ∈ ls.head?, k.indent ≤ l.indent) : SayAlike (l :: (inner ++ ls)) ks := by
  refine ⟨fun p q _ hagree => ?_, ?_⟩
  · have hp : Progress.AgreeUpTo l.indent p q := hagree l rfl
    have hread := hp.read_block hpos hopens
    rw [sections_block_append hpos hinner, foldl_read_block hp.passing hpos hopens hinner]
    exact h.before _ _ hread.style fun k hk => hread.mono (hnext k hk)
  · rw [sections_block_append hpos hinner]
    exact h.styles

end SayAlike

/-- The content lines of lines that start with a block. -/
theorem contents_cons_eq {cs : List Char} {l : ContentLine}
    (hread : ContentLine.read? 0 cs = some l) (depth : Nat) (rest : List (List Char)) :
    contents (cs :: rest) = l :: (contents (rest.takeWhile (goesOn depth))
      ++ contents (rest.dropWhile (goesOn depth))) := by
  rw [contents_cons_of_some hread, ← contents_append, List.takeWhile_append_dropWhile]

/-- Lines say the same without blocks. -/
theorem sayAlike_linesWithout (chosen : Nat → Bool) (number : Nat) (ls : List (List Char)) :
    SayAlike (contents ls) (contents (linesWithout chosen number ls)) := by
  fun_induction linesWithout chosen number ls with
  | case1 => exact sayAlike_nil
  | case2 number cs rest hdepth ih =>
    -- no widget is opened
    cases hread : ContentLine.read? 0 cs with
    | none => rwa [contents_cons_of_none hread, contents_cons_of_none hread]
    | some l =>
      rw [contents_cons_of_some hread, contents_cons_of_some hread]
      refine ih.cons ?_
      rw [childDepth?, hread] at hdepth
      by_contra hopens
      rw [Bool.not_eq_false] at hopens
      simp [hopens] at hdepth
  | case3 number cs rest depth hdepth block left hchosen ih =>
    -- a block is left out
    obtain ⟨l, hread, rfl, hpos, hopens⟩ := exists_of_childDepth? hdepth
    rw [contents_cons_eq hread l.indent rest]
    exact ih.dropBlock hpos hopens (fun _ => lt_indent_of_mem_contents)
      fun _ => indent_le_of_mem_head?
  | case4 number cs rest depth hdepth block left hchosen ih =>
    -- a block stays
    obtain ⟨l, hread, rfl, hpos, hopens⟩ := exists_of_childDepth? hdepth
    rw [contents_cons_eq hread l.indent rest, List.cons_append, contents_cons_of_some hread,
      contents_append]
    exact ih.keepBlock hpos hopens (fun _ => lt_indent_of_mem_contents)
      fun _ => indent_le_of_mem_head?

/-! ### Texts -/

theorem contents_lines (text : String) :
    contents (lines text) = contents (cutChars '\n' text.toList) := by
  rw [lines, contents, contents, List.filterMap_map]
  exact congrArg (List.filterMap · _) (funext fun cs => read?_withoutReturns 0 cs)

theorem contents_lines_intercalate {ls : List (List Char)} (h : ∀ cs ∈ ls, '\n' ∉ cs) :
    contents (lines (String.ofList (['\n'].intercalate ls))) = contents ls := by
  rw [contents_lines, String.toList_ofList]
  cases ls with
  | nil => rfl
  | cons cs rest => rw [cutChars_intercalate (List.cons_ne_nil _ _) h]

/-- **Widgets in styles do not touch them.** Whichever blocks are left out of a text, each an
indented line that opens a widget with what follows up to the next content line that is no deeper,
the styles are read as they were. -/
theorem read_withoutBlocks (chosen : Nat → Bool) (text : String) :
    read (withoutBlocks chosen text) = read text := by
  have hlines : ∀ cs ∈ linesWithout chosen 1 (cutChars '\n' text.toList), '\n' ∉ cs :=
    fun cs hcs => not_mem_of_mem_cutChars ((linesWithout_sublist _ _ _).subset hcs)
  rw [read_eq, read_eq, withoutBlocks, contents_lines_intercalate hlines, contents_lines]
  exact congrArg Ledger.ofList (sayAlike_linesWithout chosen 1 _).styles

/-- A block ends the state that is open around it, and so does the line after it. -/
example : withoutBlocks (· == 4)
      "Window\n  $on\n    height: 24\n Label\n   id: title\n   Icon\n color: red\n  Icon\n"
    = "Window\n  $on\n    height: 24\n color: red\n  Icon\n" := by
  decide +kernel

end Sheet

end Otui
