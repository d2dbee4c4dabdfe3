import Otui.Proofs.WrittenLines

/-!
# What the lines of a text are like

Whatever the text, its openings have names of types and its properties have keys and trimmed values
on one line (`isSound_of_mem_lines`), and every part of its outline comes from one of its lines
(`comesFrom_outline`).
-/

namespace Otui.Document

open Otui.Text

/-! ### Contents -/

/-- What is always true of what a content line says. -/
def Content.IsSound : Content → Prop
  | .opening name base => IsWidgetName name ∧ ∀ b ∈ base, isTypeName b.toList = true
  | .property key value raw =>
    IsKey key ∧ OnOneLine raw ∧ trim raw = raw ∧ (value = raw ∨ value = stripQuotes raw)
  | .other => True

theorem trim_ofList_trimChars (cs : List Char) :
    trim (String.ofList (trimChars cs)) = String.ofList (trimChars cs) := by
  rw [trim, String.toList_ofList, trimChars_trimChars]

theorem onOneLine_ofList {cs : List Char} (h : '\n' ∉ cs) :
    OnOneLine (String.ofList (trimChars cs)) := by
  unfold OnOneLine
  rw [String.toList_ofList]
  exact fun hm => h (mem_of_mem_trimChars hm)

theorem isColonKeyChar_of_isKeyChar {c : Char} (h : isKeyChar c = true) :
    isColonKeyChar c = true := by
  simp [isColonKeyChar, h]

theorem isKey_ofList {cs : List Char} (hne : cs ≠ []) (h : ∀ c ∈ cs, isColonKeyChar c = true) :
    IsKey (String.ofList cs) :=
  ⟨fun hs => hne (by simpa using congrArg String.toList hs), by rwa [String.toList_ofList]⟩

theorem mem_of_dropWhile_eq_cons {p : Char → Bool} {cs rest : List Char} {c : Char}
    (h : cs.dropWhile p = c :: rest) : ∀ d ∈ rest, d ∈ cs :=
  fun d hd => (List.dropWhile_suffix p).subset (by rw [h]; exact List.mem_cons_of_mem _ hd)

theorem isSound_colonProperty {cs : List Char} (hcs : '\n' ∉ cs) {content : Content}
    (h : colonProperty? cs = some content) : content.IsSound := by
  unfold colonProperty? at h
  simp only at h
  split at h
  · next rest hrest =>
    split at h
    · cases h
    · next hne =>
      cases h
      have hr : '\n' ∉ rest := fun hm => hcs (mem_of_dropWhile_eq_cons hrest _ hm)
      have hkey : IsKey (String.ofList (cs.takeWhile isColonKeyChar)) := isKey_ofList
        (fun hnil => hne (by rw [hnil]; rfl)) (fun c hc => List.mem_takeWhile_imp hc)
      exact ⟨hkey, onOneLine_ofList hr, trim_ofList_trimChars _, .inr rfl⟩
  · cases h

theorem isSound_spaceProperty {cs : List Char} (hcs : '\n' ∉ cs) {content : Content}
    (h : spaceProperty? cs = some content) : content.IsSound := by
  unfold spaceProperty? at h
  simp only at h
  split at h
  · next c rest hrest =>
    split at h
    · cases h
    · next hne =>
      cases h
      simp only [Bool.or_eq_true, not_or] at hne
      have hr : '\n' ∉ rest := fun hm => hcs (mem_of_dropWhile_eq_cons hrest _ hm)
      have hkey : IsKey (String.ofList (cs.takeWhile isKeyChar)) := isKey_ofList
        (fun hnil => hne.1.1 (by rw [hnil]; rfl))
        (fun d hd => isColonKeyChar_of_isKeyChar (List.mem_takeWhile_imp hd))
      exact ⟨hkey, onOneLine_ofList hr, trim_ofList_trimChars _, .inl rfl⟩
  · cases h

theorem isSound_bareProperty {indent : Nat} {cs : List Char} {content : Content}
    (h : bareProperty? indent cs = some content) : content.IsSound := by
  unfold bareProperty? at h
  split at h
  · next hb =>
    cases h
    simp only [Bool.and_eq_true, List.all_eq_true] at hb
    obtain ⟨⟨hne, hall⟩, -⟩ := hb
    refine ⟨isKey_ofList (by simpa using hne) fun c hc => ?_, ?_, ?_, .inl rfl⟩
    · have hb := hall c hc
      simp only [isBareKeyChar, Bool.or_eq_true, beq_iff_eq] at hb
      rcases hb with hb | rfl
      · simp [isColonKeyChar, isKeyChar, isAlpha_iff.2 (.inr hb)]
      · decide
    · simp [OnOneLine]
    · decide
  · cases h

theorem isSound_typeLine {cs : List Char} {name : String} {base : Option String}
    (h : typeLine? cs = some (name, base)) :
    name.toList = cs.takeWhile isNameChar ∧ isTypeName name.toList = true
      ∧ ∀ b ∈ base, isTypeName b.toList = true := by
  unfold typeLine? at h
  simp only at h
  split at h
  · next ht =>
    obtain ⟨b, hb, he⟩ := Option.map_eq_some_iff.1 h
    obtain ⟨rfl, rfl⟩ := Prod.mk.inj he
    refine ⟨String.toList_ofList, by rwa [String.toList_ofList], fun s hs => ?_⟩
    unfold baseAfter? at hb
    split at hb
    · cases hb; cases hs
    · split at hb
      · simp only at hb
        split at hb
        · next hbase =>
          cases hb
          cases hs
          rwa [String.toList_ofList]
        · cases hb
      · cases hb
  · cases h

theorem isSound_opening {cs : List Char} {name : String} {base : Option String}
    (h : opening? cs = some (name, base)) :
    IsWidgetName name ∧ ∀ b ∈ base, isTypeName b.toList = true := by
  cases cs with
  | nil => cases h
  | cons c cs =>
    by_cases hc : c.isUpper = true
    · rw [opening?, if_pos hc] at h
      obtain ⟨hn, ht, hb⟩ := isSound_typeLine h
      have halpha : isNameChar c = true := isNameChar_of_isUpper hc
      rw [List.takeWhile_cons_of_pos halpha] at hn
      exact ⟨⟨c, _, hn, hc, List.all_takeWhile⟩, hb⟩
    · rw [opening?, if_neg hc] at h
      cases h

theorem isSound_contentOf (indent : Nat) {cs : List Char} (h : '\n' ∉ cs) :
    (contentOf indent cs).IsSound := by
  unfold contentOf
  split
  · next ho => exact isSound_opening ho
  · cases hc : colonProperty? cs with
    | some content => exact isSound_colonProperty h hc
    | none =>
      cases hs : spaceProperty? cs with
      | some content => simpa using isSound_spaceProperty h hs
      | none =>
        cases hb : bareProperty? indent cs with
        | some content => simpa using isSound_bareProperty hb
        | none => simp [Content.IsSound]

/-! ### Lines -/

theorem mem_contentLinesFrom {number : Nat} {ls : List (List Char)} {l : ContentLine}
    (h : l ∈ contentLinesFrom number ls) : ∃ cs ∈ ls, l.text = trimChars cs := by
  induction ls generalizing number with
  | nil => cases h
  | cons cs ls ih =>
    rw [contentLinesFrom] at h
    have hrest : l ∈ contentLinesFrom (number + 1) ls → ∃ ds ∈ cs :: ls, l.text = trimChars ds :=
      fun hl => by
        obtain ⟨ds, hds, ht⟩ := ih hl
        exact ⟨ds, List.mem_cons_of_mem _ hds, ht⟩
    split at h
    · next k hk =>
      rcases List.mem_cons.1 h with rfl | h
      · simp only [ContentLine.read?] at hk
        split at hk
        · cases hk
        · cases hk
          exact ⟨cs, by simp, rfl⟩
      · exact hrest h
    · exact hrest h

/-- Openings have names, properties have keys and trimmed values on one line, in any text. -/
theorem isSound_of_mem_lines {text : String} {l : Line} (h : l ∈ lines text) :
    l.content.IsSound := by
  obtain ⟨k, hk, rfl⟩ := List.mem_map.1 h
  obtain ⟨cs, hcs, ht⟩ := mem_contentLinesFrom hk
  obtain ⟨p, hp, rfl⟩ := List.mem_map.1 hcs
  refine isSound_contentOf _ ?_
  rw [ht]
  intro hm
  exact not_mem_of_mem_cutChars hp ((List.rdropWhile_prefix _ p).subset (mem_of_mem_trimChars hm))

/-! ### Outlines -/

mutual

/-- Every opening and every property of a part of an outline comes from one of some lines. -/
def Outline.ComesFrom (ls : List Line) : Outline → Prop
  | .block name base number body =>
    (∃ l ∈ ls, l.number = number ∧ l.content = .opening name base) ∧ Outline.AllComeFrom ls body
  | .property key value raw number =>
    ∃ l ∈ ls, l.number = number ∧ l.content = .property key value raw

/-- The same of all parts of an outline. -/
def Outline.AllComeFrom (ls : List Line) : List Outline → Prop
  | [] => True
  | o :: os => Outline.ComesFrom ls o ∧ Outline.AllComeFrom ls os

end

/-- An outline comes from its lines, and from any lines that they are among. -/
theorem comesFrom_outline {all : List Line} (ls : List Line) (h : ls ⊆ all) :
    Outline.AllComeFrom all (outline ls) := by
  fun_induction outline ls with
  | case1 => exact trivial
  | case2 l rest name base hl ih1 ih2 =>
    have hrest : rest ⊆ all := fun x hx => h (List.mem_cons_of_mem _ hx)
    exact ⟨⟨⟨l, h List.mem_cons_self, rfl, hl⟩, ih1 (List.Subset.trans (List.takeWhile_subset _) hrest)⟩,
      ih2 (List.Subset.trans (List.dropWhile_subset _) hrest)⟩
  | case3 l rest key value raw hl ih =>
    exact ⟨⟨l, h List.mem_cons_self, rfl, hl⟩, ih fun x hx => h (List.mem_cons_of_mem _ hx)⟩
  | case4 l rest hl ih => exact ih fun x hx => h (List.mem_cons_of_mem _ hx)

/-- The properties of a body come from lines when the body does. -/
theorem mem_ownProperties {ls : List Line} {body : List Outline}
    (h : Outline.AllComeFrom ls body) {key value raw : String} {number : Nat}
    (hm : (key, value, raw, number) ∈ ownProperties body) :
    ∃ l ∈ ls, l.number = number ∧ l.content = .property key value raw := by
  induction body with
  | nil => cases hm
  | cons o os ih =>
    cases o with
    | block => exact ih h.2 hm
    | property k v r n =>
      rcases List.mem_cons.1 hm with he | hm
      · cases he
        exact h.1
      · exact ih h.2 hm

end Otui.Document
