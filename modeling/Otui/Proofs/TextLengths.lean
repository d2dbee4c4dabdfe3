import Mathlib.Algebra.GroupWithZero.Nat
import Mathlib.Algebra.Order.BigOperators.Group.List
import Mathlib.Algebra.Order.Group.Nat
import Otui.Proofs.ReadBack

/-!
# Lengths of texts

The length of a text that is written from scripts is a sum over all blocks of the scripts
(`weigh_scriptLinesAmong`), so the text gets longer when lines are put into a block. Two texts whose
scripts have the same shape, with the lines of each block of one among those of the other, are equal
only if all blocks are: `eq_of_scriptText_eq`.
-/

namespace Otui

open Otui.Text

/-! ### Joined texts -/

/-- The length of joined parts, with a separator counted for each part. -/
theorem Text.length_join (sep : String) (parts : List String) (h : parts ≠ []) :
    (join sep parts).length + sep.length = (parts.map fun p => p.length + sep.length).sum := by
  induction parts with
  | nil => exact absurd rfl h
  | cons p parts ih =>
    cases parts with
    | nil => simp [join]
    | cons q parts =>
      have hrest := ih (List.cons_ne_nil q parts)
      rw [join] at hrest ⊢
      rw [String.intercalate_cons_cons, String.length_append, String.length_append, List.map_cons,
        List.sum_cons, ← hrest]
      omega

/-- A part of a list that weighs as much as the list is the list. -/
theorem eq_of_sublist_of_sum_eq {β : Type} {weight : β → Nat} (hpos : ∀ x, 0 < weight x)
    {l m : List β} (h : l.Sublist m) (hsum : (l.map weight).sum = (m.map weight).sum) : l = m := by
  induction h with
  | slnil => rfl
  | @cons l m x h _ =>
    have hle : (l.map weight).sum ≤ (m.map weight).sum :=
      (h.map weight).sum_le_sum fun _ _ => Nat.zero_le _
    have hx := hpos x
    rw [List.map_cons, List.sum_cons] at hsum
    omega
  | cons_cons x _ ih =>
    rw [List.map_cons, List.map_cons, List.sum_cons, List.sum_cons, Nat.add_left_cancel_iff] at hsum
    rw [ih hsum]

namespace Document

/-! ### Lines -/

/-- The length of the text of lines, with a line feed after each. -/
def weigh (ls : List WrittenLine) : Nat := (ls.map fun l => l.text.length + 1).sum

@[simp] theorem weigh_append (ks ls : List WrittenLine) : weigh (ks ++ ls) = weigh ks + weigh ls := by
  simp [weigh]

theorem length_text (l : WrittenLine) : l.text.length = 2 * l.level + l.said.text.length := by
  rw [WrittenLine.text, String.length_append, String.length_ofList, List.length_replicate]

/-- Each line of a block weighs as much as one below the header, the header less for its level. -/
theorem weigh_saidLines (level : Nat) {b : List Said} (h : b ≠ []) :
    weigh (saidLines level b) + 2 = (b.map fun s => s.text.length + (2 * level + 3)).sum := by
  cases b with
  | nil => exact absurd rfl h
  | cons s b =>
    have hbelow : ∀ s : Said, (⟨level + 1, s⟩ : WrittenLine).text.length + 1
        = s.text.length + (2 * level + 3) := by
      intro s
      rw [length_text]
      dsimp only
      omega
    simp only [saidLines, blockLines, weigh, List.map_cons, List.sum_cons, List.map_map,
      Function.comp_def, hbelow]
    rw [length_text]
    dsimp only
    omega

/-- A block gets heavier with more lines. -/
theorem weigh_le_of_sublist (level : Nat) {b c : List Said} (hne : b ≠ []) (h : b.Sublist c) :
    weigh (saidLines level b) ≤ weigh (saidLines level c) := by
  have hc : c ≠ [] := fun hc => hne (List.sublist_nil.1 (hc ▸ h))
  have hle : (b.map fun s => s.text.length + (2 * level + 3)).sum
      ≤ (c.map fun s => s.text.length + (2 * level + 3)).sum :=
    (h.map _).sum_le_sum fun _ _ => Nat.zero_le _
  have hb := weigh_saidLines level hne
  have hc := weigh_saidLines level hc
  omega

/-- A block with as much weight and more lines is the same. -/
theorem eq_of_weigh_eq (level : Nat) {b c : List Said} (hne : b ≠ []) (h : b.Sublist c)
    (hw : weigh (saidLines level b) = weigh (saidLines level c)) : b = c := by
  have hc : c ≠ [] := fun hc => hne (List.sublist_nil.1 (hc ▸ h))
  have hpos : ∀ s : Said, 0 < s.text.length + (2 * level + 3) := fun s => by omega
  refine eq_of_sublist_of_sum_eq hpos h ?_
  rw [← weigh_saidLines level hne, ← weigh_saidLines level hc, hw]

/-! ### Scripts -/

/-- The weight of scripts is that of their blocks. -/
theorem weigh_scriptLinesAmong {β : Type} (f : List β → β → List Said) (up : List β)
    (ts : List (Tree β)) :
    weigh (scriptLinesAmong up.length (Tree.forestMapBelow f up ts))
      = ((Tree.forestPaths up ts).map fun p =>
          weigh (saidLines p.1.length (f p.1 p.2.label))).sum := by
  induction ts using Tree.forest_induction generalizing up with
  | nil => rfl
  | cons b bs ts ihb iht =>
    have hbelow := ihb (b :: up)
    rw [List.length_cons] at hbelow
    rw [Tree.forestMapBelow_nodeCons, scriptLinesAmong, scriptLines, weigh_append, weigh_append,
      hbelow, iht, Tree.forestPaths, Tree.paths, List.cons_append, List.map_cons, List.map_append,
      List.sum_cons, List.sum_append, Tree.label_node, Nat.add_assoc]

/-- The length of the text of a block. -/
def blockLength (ls : List WrittenLine) : Nat := (join "\n" (ls.map WrittenLine.text)).length

theorem blockLength_add_one {ls : List WrittenLine} (h : ls ≠ []) :
    blockLength ls + 1 = weigh ls := by
  have hjoin := length_join "\n" (ls.map WrittenLine.text) (by simpa using h)
  rw [List.map_map] at hjoin
  exact hjoin

/-- The length of the text of scripts. -/
theorem length_scriptText {ts : List (Tree (List Said))} (h : ts ≠ []) :
    (scriptText ts).length + 1 = (ts.map fun t => blockLength (scriptLines 0 t) + 2).sum := by
  have hjoin := length_join "\n\n"
    (((ts.map (scriptLines 0))).map fun ls => join "\n" (ls.map WrittenLine.text)) (by simpa using h)
  rw [List.map_map, List.map_map] at hjoin
  rw [scriptText, textOf, String.length_append, List.map_map]
  exact hjoin

theorem sum_blockLength {ts : List (Tree (List Said))} (h : ∀ b ∈ Tree.forestLabels ts, b ≠ []) :
    (ts.map fun t => blockLength (scriptLines 0 t) + 2).sum
      = weigh (scriptLinesAmong 0 ts) + ts.length := by
  induction ts with
  | nil => rfl
  | cons t ts ih =>
    cases t with
    | node b bs =>
      simp only [Tree.forestLabels_cons, List.mem_cons, List.mem_append] at h
      obtain ⟨s, b, rfl⟩ := List.exists_cons_of_ne_nil (h b (.inl rfl))
      have hne : scriptLines 0 (.node (s :: b) bs) ≠ [] := by
        rw [scriptLines]
        exact List.cons_ne_nil _ _
      have hblock := blockLength_add_one hne
      rw [List.map_cons, List.sum_cons, ih fun b hb => h b (.inr (.inr hb)), scriptLinesAmong,
        weigh_append, List.length_cons]
      omega

/-- **Texts tell blocks apart**: of two lists of scripts, one with more lines in its blocks, the
texts are equal only if the blocks are. -/
theorem eq_of_scriptText_eq {β : Type} {f g : List β → β → List Said}
    {ts : List (Tree (List Said))} {us : List (Tree β)}
    (hne : ∀ p ∈ Tree.forestPaths [] us, f p.1 p.2.label ≠ [])
    (hsub : ∀ p ∈ Tree.forestPaths [] us, (f p.1 p.2.label).Sublist (g p.1 p.2.label))
    (h : scriptText (ts ++ Tree.forestMapBelow f [] us)
      = scriptText (ts ++ Tree.forestMapBelow g [] us)) :
    ∀ p ∈ Tree.forestPaths [] us, f p.1 p.2.label = g p.1 p.2.label := by
  cases us with
  | nil => intro p hp; cases hp
  | cons u us =>
    have hlength : ∀ k : List β → β → List Said,
        (∀ p ∈ Tree.forestPaths [] (u :: us), k p.1 p.2.label ≠ []) →
        (scriptText (ts ++ Tree.forestMapBelow k [] (u :: us))).length + 1
          = (ts.map fun t => blockLength (scriptLines 0 t) + 2).sum
            + (((Tree.forestPaths [] (u :: us)).map fun p =>
                weigh (saidLines p.1.length (k p.1 p.2.label))).sum + (us.length + 1)) := by
      intro k hk
      have hblocks : ∀ b ∈ Tree.forestLabels (Tree.forestMapBelow k [] (u :: us)), b ≠ [] := by
        rw [Tree.forestLabels_forestMapBelow]
        intro b hb
        obtain ⟨p, hp, rfl⟩ := List.mem_map.1 hb
        exact hk p hp
      have hsome : ts ++ Tree.forestMapBelow k [] (u :: us) ≠ [] := by
        rw [Tree.forestMapBelow]
        simp
      have hweight := weigh_scriptLinesAmong k [] (u :: us)
      rw [List.length_nil] at hweight
      rw [length_scriptText hsome, List.map_append, List.sum_append, sum_blockLength hblocks,
        hweight, Tree.length_forestMapBelow, List.length_cons]
    have hmore : ∀ p ∈ Tree.forestPaths [] (u :: us), g p.1 p.2.label ≠ [] := fun p hp hg =>
      hne p hp (List.sublist_nil.1 (hg ▸ hsub p hp))
    have hle : ∀ p ∈ Tree.forestPaths [] (u :: us),
        weigh (saidLines p.1.length (f p.1 p.2.label))
          ≤ weigh (saidLines p.1.length (g p.1 p.2.label)) := fun p hp =>
      weigh_le_of_sublist _ (hne p hp) (hsub p hp)
    have hf := hlength f hne
    have hg := hlength g hmore
    rw [h] at hf
    intro p hp
    refine eq_of_weigh_eq p.1.length (hne p hp) (hsub p hp) (le_antisymm (hle p hp) ?_)
    by_contra hlt
    have hsum := List.sum_lt_sum _ _ hle ⟨p, hp, Nat.lt_of_not_le hlt⟩
    omega

end Document

end Otui
