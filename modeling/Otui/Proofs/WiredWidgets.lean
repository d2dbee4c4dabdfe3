import Otui.Proofs.LookedUpIds

/-!
# Widgets that are wired

A script should keep each widget with events in a variable of its own and connect its handlers. The
variable is made from the id, and different ids can make the same one. `isWired_iff` says for which
widgets the script does what it should when all ids differ: for those whose variable is that of no
widget before. Another one is not even looked up.
-/

namespace Otui

namespace Script

variable {α : Type} {registry : Registry} {fallback name title : String} {ws : List (Widget α)}

/-! ### Widgets for variables -/

/-- The widgets that a script should keep, of all in order: the first and those with events. Each
stands with whether it is the first. -/
def scripted (registry : Registry) : List (Widget α) → List (Bool × Widget α)
  | [] => []
  | root :: rest =>
    (true, root) ::
      (rest.filter fun w => !(eventsOf registry w.label).isEmpty).map fun w => (false, w)

/-- The variable for a widget. -/
def varOf (w : Widget α) : String := variableFor (textOrEmpty w.label.id)

theorem candidates_eq_map (registry : Registry) (nodes : List (Widget α)) :
    candidates registry nodes
      = (scripted registry nodes).map fun p => referenceTo registry p.1 p.2.label := by
  cases nodes with
  | nil => rfl
  | cons root rest =>
    rw [candidates, scripted, List.map_cons, List.map_map, List.filter_map]
    rfl

theorem mem_of_mem_scripted {nodes : List (Widget α)} {p : Bool × Widget α}
    (h : p ∈ scripted registry nodes) : p.2 ∈ nodes := by
  cases nodes with
  | nil => cases h
  | cons root rest =>
    rcases List.mem_cons.1 h with rfl | h
    · exact List.mem_cons_self
    · obtain ⟨w, hw, rfl⟩ := List.mem_map.1 h
      exact List.mem_cons_of_mem _ (List.mem_filter.1 hw).1

theorem map_snd_scripted_sublist (registry : Registry) (nodes : List (Widget α)) :
    ((scripted registry nodes).map Prod.snd).Sublist nodes := by
  cases nodes with
  | nil => exact .slnil
  | cons root rest =>
    rw [scripted, List.map_cons, List.map_map]
    refine List.Sublist.cons_cons root ?_
    rw [show (Prod.snd ∘ fun w : Widget α => (false, w)) = id from rfl, List.map_id]
    exact List.filter_sublist

/-- The script does for a widget what it should, with a variable. -/
structure IsWired (registry : Registry) (ls : List Line) (v : String) (isFirst : Bool)
    (w : Widget α) : Prop where
  /-- The variable is declared once. -/
  declared : (ls.filterMap Line.declared?).count v = 1
  /-- It is the widget's own: one line gives it a widget. This line loads the first widget and looks
  another up by its id. -/
  given : ((ls.filterMap Line.given?).filter fun g => g.1 = v)
    = [(v, if isFirst then none else some (textOrEmpty w.label.id))]
  /-- If the widget has events, these are connected in one place, each to a handler for the
  variable. -/
  connected : ((connections ls).filter fun c => c.1 = v)
    = if (eventsOf registry w.label).isEmpty then []
      else [(v, (eventsOf registry w.label).keys.map fun event => (event, v))]

/-- The references to a variable: that to the first widget for it. -/
theorem filter_references_eq (v : String) :
    ((references registry ws).filter fun r => r.var = v)
      = (((scripted registry (Tree.forestNodes ws)).find? fun p => varOf p.2 = v).map
        fun p => referenceTo registry p.1 p.2.label).toList := by
  rw [filter_references, candidates_eq_map, List.find?_map]
  rfl

section Scripted

variable {before after : List (Bool × Widget α)} {isFirst : Bool} {w : Widget α}

/-- A widget whose variable is that of no widget before is wired. -/
theorem isWired_of_new (fallback name title : String) (hid : textOrEmpty w.label.id ≠ "")
    (h : scripted registry (Tree.forestNodes ws) = before ++ (isFirst, w) :: after)
    (hnew : ∀ u ∈ before, varOf u.2 ≠ varOf w) :
    IsWired registry (lines registry fallback name title ws) (varOf w) isFirst w := by
  have hnone : (before.find? fun u => varOf u.2 = varOf w) = none := by simpa using hnew
  have hrefs : ((references registry ws).filter fun r => r.var = varOf w)
      = [referenceTo registry isFirst w.label] := by
    rw [filter_references_eq, h, List.find?_append, hnone, Option.none_or,
      List.find?_cons_of_pos (by simp)]
    rfl
  cases ws with
  | nil => cases before <;> cases h
  | cons root rest =>
    refine ⟨?_, ?_, ?_⟩
    · rw [filterMap_declared?_lines_cons, List.count_eq_length_filter, List.filter_map,
        List.length_map]
      exact congrArg List.length hrefs
    · rw [filterMap_given?_lines_cons, List.filter_map]
      refine (congrArg (List.map Reference.given) hrefs).trans ?_
      simp [Reference.given, referenceTo, hid, varOf]
    · rw [connections_lines, List.filter_map, List.filter_comm]
      change List.map _ (((references registry (root :: rest)).filter
        fun r => r.var = varOf w).filter fun r => !r.events.isEmpty) = _
      rw [hrefs]
      cases hevents : (eventsOf registry w.label).isEmpty <;> simp [referenceTo, hevents, varOf]

/-- Only the first widget is the first. -/
theorem isFirst_eq_false {nodes : List (Widget α)} {u : Bool × Widget α} (hu : u ∈ before)
    (h : scripted registry nodes = before ++ (isFirst, w) :: after) : isFirst = false := by
  cases nodes with
  | nil => cases before <;> cases h
  | cons root rest =>
    cases before with
    | nil => cases hu
    | cons v before =>
      rw [scripted, List.cons_append] at h
      have hw : (isFirst, w) ∈ before ++ (isFirst, w) :: after :=
        List.mem_append_right _ List.mem_cons_self
      rw [← (List.cons.inj h).2] at hw
      obtain ⟨_, -, hw⟩ := List.mem_map.1 hw
      exact (Prod.mk.inj hw).1.symm

/-- A wired widget below the first is looked up. -/
theorem IsWired.mem_lookUps {v : String}
    (h : IsWired registry (lines registry fallback name title ws) v false w) :
    textOrEmpty w.label.id ∈ lookUps registry fallback name title ws := by
  have hgiven : (v, some (textOrEmpty w.label.id))
      ∈ (lines registry fallback name title ws).filterMap Line.given? := by
    have hmem := List.mem_singleton_self (v, some (textOrEmpty w.label.id))
    rw [← show _ = [(v, some (textOrEmpty w.label.id))] from h.given] at hmem
    exact (List.mem_filter.1 hmem).1
  rw [filterMap_given?_lines] at hgiven
  rcases List.mem_cons.1 hgiven with hroot | hother
  · cases (Prod.mk.inj hroot).2
  · obtain ⟨r, hr, heq⟩ := List.mem_map.1 hother
    rw [lookUps_eq]
    exact List.mem_map.2 ⟨r, hr, Option.some.inj (Prod.mk.inj heq).2⟩

theorem nodup_ids_scripted (registry : Registry) {nodes : List (Widget α)}
    (hids : (nodes.map fun w => textOrEmpty w.label.id).Nodup) :
    ((scripted registry nodes).map fun p => textOrEmpty p.2.label.id).Nodup := by
  have hsub := (map_snd_scripted_sublist registry nodes).map fun w => textOrEmpty w.label.id
  rw [List.map_map] at hsub
  exact hsub.nodup hids

theorem id_ne_of_mem_before {nodes : List (Widget α)} {u : Bool × Widget α}
    (hids : (nodes.map fun w => textOrEmpty w.label.id).Nodup)
    (h : scripted registry nodes = before ++ (isFirst, w) :: after) (hu : u ∈ before) :
    textOrEmpty u.2.label.id ≠ textOrEmpty w.label.id := by
  have hnodup := nodup_ids_scripted registry hids
  rw [h, List.map_append, List.map_cons, List.nodup_append] at hnodup
  exact hnodup.2.2 _ (List.mem_map_of_mem hu) _ List.mem_cons_self

/-- A widget whose variable is that of a widget before is not looked up. -/
theorem not_mem_lookUps_of_taken
    (hids : ((Tree.forestNodes ws).map fun w => textOrEmpty w.label.id).Nodup)
    (hne : ∀ w ∈ Tree.forestNodes ws, textOrEmpty w.label.id ≠ "")
    (h : scripted registry (Tree.forestNodes ws) = before ++ (isFirst, w) :: after)
    (htaken : ∃ u ∈ before, varOf u.2 = varOf w) :
    textOrEmpty w.label.id ∉ lookUps registry fallback name title ws := by
  have hid : ∀ p ∈ scripted registry (Tree.forestNodes ws),
      (referenceTo registry p.1 p.2.label).id = textOrEmpty p.2.label.id := by
    intro p hp
    simp [referenceTo, hne p.2 (mem_of_mem_scripted hp)]
  have hw : (isFirst, w) ∈ scripted registry (Tree.forestNodes ws) :=
    h ▸ List.mem_append_right _ List.mem_cons_self
  -- the one reference to the variable is to a widget before
  obtain ⟨u, hu⟩ : ∃ u, (before.find? fun u => varOf u.2 = varOf w) = some u := by
    rw [← Option.isSome_iff_exists, List.find?_isSome]
    simpa using htaken
  have hrefs : ((references registry ws).filter fun r => r.var = varOf w)
      = [referenceTo registry u.1 u.2.label] := by
    rw [filter_references_eq, h, List.find?_append, hu]
    rfl
  have hbefore : u ∈ before := List.mem_of_find?_eq_some hu
  intro hmem
  rw [lookUps_eq] at hmem
  obtain ⟨r, hr, hrid⟩ := List.mem_map.1 hmem
  have hr := (List.mem_filter.1 hr).1
  have hcandidate := mem_candidates_of_mem_references hr
  rw [candidates_eq_map] at hcandidate
  obtain ⟨p, hp, rfl⟩ := List.mem_map.1 hcandidate
  obtain rfl : p = (isFirst, w) :=
    List.inj_on_of_nodup_map (nodup_ids_scripted registry hids) hp hw ((hid p hp).symm.trans hrid)
  have hsame : referenceTo registry isFirst w.label = referenceTo registry u.1 u.2.label := by
    rw [← List.mem_singleton, ← hrefs]
    exact List.mem_filter.2 ⟨hr, decide_eq_true rfl⟩
  refine id_ne_of_mem_before hids h hbefore ?_
  rw [← hid u (h ▸ List.mem_append_left _ hbefore), ← hsame]
  exact hid _ hw

/-- **Wired widgets**: when no id is empty and all differ, a script does what it should for exactly
those widgets whose variable is that of no widget before, and any other is not looked up. -/
theorem isWired_iff (registry : Registry) (fallback name title : String) {ws : List (Widget α)}
    (hids : ((Tree.forestNodes ws).map fun w => textOrEmpty w.label.id).Nodup)
    (hne : ∀ w ∈ Tree.forestNodes ws, textOrEmpty w.label.id ≠ "")
    {before after : List (Bool × Widget α)} {isFirst : Bool} {w : Widget α}
    (h : scripted registry (Tree.forestNodes ws) = before ++ (isFirst, w) :: after) :
    ((∃ v, IsWired registry (lines registry fallback name title ws) v isFirst w)
        ↔ ∀ u ∈ before, varOf u.2 ≠ varOf w)
      ∧ ((∃ u ∈ before, varOf u.2 = varOf w) →
        textOrEmpty w.label.id ∉ lookUps registry fallback name title ws) := by
  have hw : w ∈ Tree.forestNodes ws :=
    mem_of_mem_scripted (h ▸ List.mem_append_right _ List.mem_cons_self)
  refine ⟨⟨fun ⟨v, hwired⟩ u hu heq => ?_, fun hnew => ?_⟩, not_mem_lookUps_of_taken hids hne h⟩
  · obtain rfl := isFirst_eq_false hu h
    exact not_mem_lookUps_of_taken hids hne h ⟨u, hu, heq⟩ hwired.mem_lookUps
  · exact ⟨varOf w, isWired_of_new fallback name title (hne w hw) h hnew⟩

end Scripted

/-- The widgets of a panel with two buttons whose ids differ in a character that no variable has. -/
def twoButtons : List (Widget ℚ) :=
  (Document.parsed "Panel\n  id: p\n  Button\n    id: a-b\n  Button\n    id: a_b\n").widgets

theorem ids_twoButtons :
    (Tree.forestNodes twoButtons).map (fun w => textOrEmpty w.label.id) = ["p", "a-b", "a_b"] := by
  decide +kernel

theorem nodup_ids_twoButtons :
    ((Tree.forestNodes twoButtons).map fun w => textOrEmpty w.label.id).Nodup := by
  rw [ids_twoButtons]
  decide

theorem id_ne_empty_twoButtons :
    ∀ w ∈ Tree.forestNodes twoButtons, textOrEmpty w.label.id ≠ "" := by
  intro w hw hid
  have hmem := List.mem_map_of_mem hw (f := fun w : Widget ℚ => textOrEmpty w.label.id)
  rw [ids_twoButtons, hid] at hmem
  exact absurd hmem (by decide)

theorem map_scripted_twoButtons :
    (scripted Registry.packaged (Tree.forestNodes twoButtons)).map
        (fun p => (p.1, textOrEmpty p.2.label.id))
      = [(true, "p"), (false, "a-b")] ++ [(false, "a_b")] := by
  decide +kernel

/-- The last of the widgets that should be kept is the second button. -/
theorem exists_scripted_twoButtons :
    ∃ before w, scripted Registry.packaged (Tree.forestNodes twoButtons) = before ++ [(false, w)]
      ∧ textOrEmpty w.label.id = "a_b" := by
  obtain ⟨before, last, hs, -, hlast⟩ := List.map_eq_append_iff.1 map_scripted_twoButtons
  obtain ⟨⟨isFirst, w⟩, rfl, hw⟩ := List.map_eq_singleton_iff.1 hlast
  obtain ⟨rfl, hid⟩ := Prod.mk.inj hw
  exact ⟨before, w, hs, hid⟩

/-- For the second button the script does what it should if no widget before has its variable. -/
theorem isWired_iff_twoButtons :
    ((Tree.forestNodes twoButtons).map fun w => textOrEmpty w.label.id).Nodup
      ∧ (∀ w ∈ Tree.forestNodes twoButtons, textOrEmpty w.label.id ≠ "")
      ∧ ∃ before w, scripted Registry.packaged (Tree.forestNodes twoButtons)
          = before ++ [(false, w)]
        ∧ ((∃ v, IsWired Registry.packaged (lines Registry.packaged "m" "m" "M" twoButtons) v
            false w)
          ↔ ∀ u ∈ before, varOf u.2 ≠ varOf w)
        ∧ ((∃ u ∈ before, varOf u.2 = varOf w) →
          textOrEmpty w.label.id ∉ lookUps Registry.packaged "m" "m" "M" twoButtons) := by
  obtain ⟨before, w, hs, -⟩ := exists_scripted_twoButtons
  exact ⟨nodup_ids_twoButtons, id_ne_empty_twoButtons, before, w, hs,
    isWired_iff Registry.packaged "m" "m" "M" nodup_ids_twoButtons id_ne_empty_twoButtons hs⟩

/-- That all ids differ and none is empty is not enough: the second button is not wired. -/
theorem not_forall_isWired :
    ¬ ∀ (registry : Registry) (fallback name title : String) (ws : List (Widget ℚ)),
      ((Tree.forestNodes ws).map fun w => textOrEmpty w.label.id).Nodup →
      (∀ w ∈ Tree.forestNodes ws, textOrEmpty w.label.id ≠ "") →
      ∀ before isFirst w after,
        scripted registry (Tree.forestNodes ws) = before ++ (isFirst, w) :: after →
        ∃ v, IsWired registry (lines registry fallback name title ws) v isFirst w := by
  intro hall
  obtain ⟨before, w, hs, hid⟩ := exists_scripted_twoButtons
  obtain ⟨v, hwired⟩ := hall Registry.packaged "m" "m" "M" twoButtons nodup_ids_twoButtons
    id_ne_empty_twoButtons before false w [] hs
  have hlooked : "a_b" ∉ lookUps Registry.packaged "m" "m" "M" twoButtons := by decide +kernel
  exact hlooked (hid ▸ hwired.mem_lookUps)

/-! ### Ids that are names -/

/-- An id that can be the name of a variable as it stands. -/
structure IsName (id : String) : Prop where
  /-- There is something. -/
  ne_empty : id ≠ ""
  /-- All characters can stand in a name. -/
  chars : ∀ c ∈ id.toList, isVariableChar c = true
  /-- A digit does not come first. -/
  head : (id.toList.head?.map Char.isDigit).getD false = false

theorem IsName.variableFor_eq {id : String} (h : IsName id) : variableFor id = id := by
  have hchars : (id.toList.map fun c => if isVariableChar c then c else '_') = id.toList := by
    conv_rhs => rw [← List.map_id id.toList]
    exact List.map_congr_left fun c hc => if_pos (h.chars c hc)
  rw [variableFor, if_neg (by simpa using h.ne_empty)]
  simp only [hchars, h.head, Bool.false_eq_true, if_false, String.ofList_toList]

/-- **Wired by name**: when all ids differ and are names, a script does what it should for every
widget that it should keep, with its id as the variable. -/
theorem isWired_of_isName (fallback name title : String)
    (hids : ((Tree.forestNodes ws).map fun w => textOrEmpty w.label.id).Nodup)
    (hnames : ∀ w ∈ Tree.forestNodes ws, IsName (textOrEmpty w.label.id))
    {isFirst : Bool} {w : Widget α} (h : (isFirst, w) ∈ scripted registry (Tree.forestNodes ws)) :
    IsWired registry (lines registry fallback name title ws) (textOrEmpty w.label.id) isFirst
      w := by
  have hvar : ∀ p ∈ scripted registry (Tree.forestNodes ws),
      varOf p.2 = textOrEmpty p.2.label.id :=
    fun p hp => (hnames p.2 (mem_of_mem_scripted hp)).variableFor_eq
  obtain ⟨before, after, hs⟩ := List.append_of_mem h
  have hnew : ∀ u ∈ before, varOf u.2 ≠ varOf w := by
    intro u hu
    rw [hvar u (hs ▸ List.mem_append_left _ hu), hvar (isFirst, w) h]
    exact id_ne_of_mem_before hids hs hu
  have hne := (hnames w (mem_of_mem_scripted h)).ne_empty
  rw [← hvar (isFirst, w) h]
  exact isWired_of_new fallback name title hne hs hnew

end Script

end Otui
