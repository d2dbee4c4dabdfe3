import Otui.Proofs.PlacedFamilies

/-!
# Forests that are placed alike

Placing reads a few properties of a widget: the sizes, the paddings, the margins and the anchors.
When two forests of the same shape have the same of them, and the hooks in each family name the same
members in both, all widgets of them get the same placements (`placements_layout`).
-/

namespace Otui

variable {α : Type}

/-! ### What placing reads -/

namespace Key

/-- The keys of sizes, paddings and margins. -/
def measures : List String :=
  ["width", "height", "padding", "padding-left", "padding-top", "padding-right", "padding-bottom",
    "margin-left", "margin-top", "margin-right", "margin-bottom"]

/-- Whether placing reads a stored key. -/
def isPlacing (key : String) : Bool := isAnchor key || measures.contains key

end Key

theorem Ledger.lookIn_filter {ν : Type} (p : String → Bool) (es : List (String × ν)) {key : String}
    (hk : p key = true) : lookIn (es.filter fun a => p a.1) key = lookIn es key := by
  induction es with
  | nil => rfl
  | cons a es ih =>
    obtain ⟨k, v⟩ := a
    rw [List.filter_cons, lookIn]
    split
    · rw [lookIn, ih]
    · next hp =>
      have hne : k ≠ key := by
        rintro rfl
        exact hp hk
      rw [if_neg hne, ih]

namespace Properties

/-- The stored properties that placing reads. -/
def placing (p : Properties) : List (String × String) :=
  p.values.entries.filter fun a => Key.isPlacing a.1

variable {p q : Properties}

theorem get?_of_placing (h : p.placing = q.placing) {key : String}
    (hk : Key.isPlacing key = true) : p.values.get? key = q.values.get? key := by
  calc p.values.get? key = Ledger.lookIn p.placing key := (Ledger.lookIn_filter _ _ hk).symm
    _ = Ledger.lookIn q.placing key := by rw [h]
    _ = q.values.get? key := Ledger.lookIn_filter _ _ hk

theorem anchorsOf_eq (p : Properties) :
    Box.anchorsOf p.values = p.placing.filterMap fun a =>
      if Key.isAnchor a.1 then some (Key.anchorEdge a.1, a.2) else none := by
  rw [Box.anchorsOf, placing, List.filterMap_filter]
  refine List.filterMap_congr fun a _ => ?_
  cases ha : Key.isAnchor a.1 <;> simp [Key.isPlacing, ha]

variable [Scalar α]

theorem margins_of_placing (h : p.placing = q.placing) :
    (margins p.values : Sides α) = margins q.values := by
  unfold margins
  simp only [get?_of_placing h (show Key.isPlacing (Key.marginFront ++ "left") = true by decide),
    get?_of_placing h (show Key.isPlacing (Key.marginFront ++ "top") = true by decide),
    get?_of_placing h (show Key.isPlacing (Key.marginFront ++ "right") = true by decide),
    get?_of_placing h (show Key.isPlacing (Key.marginFront ++ "bottom") = true by decide)]

theorem padding_of_placing (h : p.placing = q.placing) :
    (padding p.values : Sides α) = padding q.values := by
  unfold padding
  simp only [get?_of_placing h (show Key.isPlacing "padding" = true by decide),
    get?_of_placing h (show Key.isPlacing ("padding-" ++ "left") = true by decide),
    get?_of_placing h (show Key.isPlacing ("padding-" ++ "top") = true by decide),
    get?_of_placing h (show Key.isPlacing ("padding-" ++ "right") = true by decide),
    get?_of_placing h (show Key.isPlacing ("padding-" ++ "bottom") = true by decide)]

end Properties

section

variable [Scalar α]

theorem Box.same_of_placing {e e' : Element α} (h : e.properties.placing = e'.properties.placing) :
    (Box.ofElement e).Same (Box.ofElement e') where
  width := by
    simp only [Box.ofElement, Properties.get?_of_placing h (show Key.isPlacing "width" = true by decide)]
  height := by
    simp only [Box.ofElement,
      Properties.get?_of_placing h (show Key.isPlacing "height" = true by decide)]
  margins := Properties.margins_of_placing h
  anchors := by
    simp only [Box.ofElement, Properties.anchorsOf_eq, h]

theorem Config.rootPlacement_of_placing (config : Config α) (origin : α × α) {e e' : Element α}
    (h : e.properties.placing = e'.properties.placing) :
    config.rootPlacement origin e = config.rootPlacement origin e' := by
  simp only [Config.rootPlacement,
    Properties.get?_of_placing h (show Key.isPlacing "width" = true by decide),
    Properties.get?_of_placing h (show Key.isPlacing "height" = true by decide)]

/-! ### The children of one widget -/

/-- Widgets with the same measures and anchors; of some hooks, those that name one name the other. -/
structure Element.IsPlacedLike (K : Element α → String → Prop) (e e' : Element α) : Prop where
  /-- Placing reads the same properties. -/
  placing : e.properties.placing = e'.properties.placing
  /-- The hooks name both or neither. -/
  named : ∀ hook, K e hook → (Box.ofElement e).isNamed hook = (Box.ofElement e').isNamed hook

theorem Family.box_ofChildren (p : Placement α) (padding : Sides α) (cs : List (Widget α))
    (i : Fin cs.length) :
    (Family.ofChildren p padding cs).box i = Box.ofElement (cs.get i).label := by
  simp [Family.ofChildren]

/-- Families that are alike, though their sizes are only equal, are placed alike. -/
theorem Family.map_rect_eq {β : Type} {n m : Nat} (hnm : n = m) {f : Family α n} {g : Family α m}
    (hcontent : f.content = g.content) (hbox : ∀ i, (f.box i).Same (g.box (i.cast hnm)))
    (hnamed : ∀ i, ∀ hook ∈ (f.box i).namedHooks, ∀ j,
      (f.box j).isNamed hook = (g.box (j.cast hnm)).isNamed hook) (place : Rect α → β) :
    (List.finRange n).map (fun i => place (f.rect f.settle i))
      = (List.finRange m).map fun i => place (g.rect g.settle i) := by
  subst hnm
  have h : f.Like g := ⟨hcontent, hbox, hnamed⟩
  exact List.map_congr_left fun i _ => congrArg place (h.rect_eq h.settle_placed i)

variable {K : Element α → String → Prop}

theorem childPlacements_eq (p : Placement α) {e e' : Element α}
    (he : e.properties.placing = e'.properties.placing) {cs ds : List (Widget α)}
    (h : List.Forall₂ (fun c d => c.label.IsPlacedLike K d.label) cs ds)
    (hooks : ∀ c ∈ cs, ∀ hook ∈ (Box.ofElement c.label).namedHooks, ∀ d ∈ cs, K d.label hook) :
    (childPlacements p e.properties.values cs).value
      = (childPlacements p e'.properties.values ds).value := by
  have hpadding : (padding e.properties.values : Sides α) = padding e'.properties.values :=
    Properties.padding_of_placing he
  have hlike : ∀ i : Fin cs.length,
      (cs.get i).label.IsPlacedLike K (ds.get (i.cast h.length_eq)).label :=
    fun i => h.get i.isLt (i.cast h.length_eq).isLt
  simp only [childPlacements, hpadding]
  refine Family.map_rect_eq h.length_eq rfl (fun i => ?_) (fun i hook hhook j => ?_) _
  · simp only [Family.box_ofChildren]
    exact Box.same_of_placing (hlike i).placing
  · simp only [Family.box_ofChildren] at hhook ⊢
    exact (hlike j).named hook
      (hooks _ (List.get_mem cs i) hook hhook _ (List.get_mem cs j))

theorem length_childPlacements (p : Placement α) (values : Ledger String)
    (cs : List (Widget α)) : (childPlacements p values cs).value.length = cs.length := by
  simp [childPlacements]

/-! ### Forests -/

theorem Tree.Alike.labels {β γ : Type} {R : β → γ → Prop} {ts : List (Tree β)} {us : List (Tree γ)}
    (h : Tree.Alike R ts us) : List.Forall₂ (fun t u => R t.label u.label) ts us := by
  induction h with
  | nil => exact .nil
  | cons hr _ _ _ ih => exact .cons hr ih

/-- Among the children of every widget, each hook has a property at each sibling. -/
def HooksHave (K : Element α → String → Prop) (ts : List (Widget α)) : Prop :=
  ∀ t ∈ Tree.forestNodes ts, ∀ c ∈ t.children,
    ∀ hook ∈ (Box.ofElement c.label).namedHooks, ∀ d ∈ t.children, K d.label hook

instance [∀ e hook, Decidable (K e hook)] (ts : List (Widget α)) : Decidable (HooksHave K ts) :=
  inferInstanceAs (Decidable (∀ t ∈ Tree.forestNodes ts, ∀ c ∈ t.children,
    ∀ hook ∈ (Box.ofElement c.label).namedHooks, ∀ d ∈ t.children, K d.label hook))

theorem HooksHave.cons {e : Element α} {cs ts : List (Widget α)}
    (h : HooksHave K (.node e cs :: ts)) :
    (∀ c ∈ cs, ∀ hook ∈ (Box.ofElement c.label).namedHooks, ∀ d ∈ cs, K d.label hook)
      ∧ HooksHave K cs ∧ HooksHave K ts := by
  simp only [HooksHave, Tree.forestNodes, Tree.nodes, List.cons_append, List.mem_cons,
    List.mem_append] at h
  exact ⟨h _ (.inl rfl), fun t ht => h t (.inr (.inl ht)), fun t ht => h t (.inr (.inr ht))⟩

theorem Widget.value_settledAll_cons (p : Placement α) (ps : List (Placement α)) (e : Element α)
    (cs ts : List (Widget α)) :
    (Widget.settledAll (p :: ps) (.node e cs :: ts)).value
      = .node { e with placement := some p }
          (Widget.settledAll (childPlacements p e.properties.values cs).value cs).value
        :: (Widget.settledAll ps ts).value := by
  simp [Widget.settledAll, Widget.settled]

/-- Alike forests whose roots stand at the same places stand at the same places altogether. -/
theorem placements_settledAll {ts us : List (Widget α)}
    (h : Tree.Alike (Element.IsPlacedLike K) ts us) (hooks : HooksHave K ts)
    {ps : List (Placement α)} (hps : ps.length = ts.length) :
    Tree.forestMap Element.placement (Widget.settledAll ps us).value
      = Tree.forestMap Element.placement (Widget.settledAll ps ts).value := by
  induction h generalizing ps with
  | nil => rfl
  | @cons e e' cs ts ds us hr hcs _ ihc iht =>
    obtain ⟨hfamily, hbelow, hothers⟩ := hooks.cons
    cases ps with
    | nil => cases hps
    | cons p ps =>
      rw [Widget.value_settledAll_cons, Widget.value_settledAll_cons, Tree.forestMap_nodeCons,
        Tree.forestMap_nodeCons, ← childPlacements_eq p hr.placing hcs.labels hfamily,
        ihc hbelow (length_childPlacements p _ cs), iht hothers (Nat.succ.inj hps)]

/-- Roots are placed one after the other, up to the first whose size is too large. -/
theorem result_layout_cons (config : Config α) (origin : α × α) (e : Element α)
    (cs ts : List (Widget α)) :
    (layout config origin (.node e cs :: ts)).result
      = (config.rootPlacement origin e).bind fun p =>
        (layout config origin ts).result.map
          ((Widget.settledAll [p] [.node e cs]).value ++ ·) := by
  simp only [layout, Outcome.result_bind]
  rfl

theorem Tree.map_forestMap_append {β γ ε : Type} (f : β → γ) (ts : List (Tree β))
    (x : Except ε (List (Tree β))) :
    (x.map (ts ++ ·)).map (forestMap f) = (x.map (forestMap f)).map (forestMap f ts ++ ·) := by
  cases x with
  | error fault => rfl
  | ok us => simp only [Except.map, forestMap_eq_map, List.map_append]

/-- **Alike forests are placed alike**: when two forests have the same measures and anchors, and the
hooks in each family name the same members, all widgets get the same placements. -/
theorem placements_layout (config : Config α) (origin : α × α) {ts us : List (Widget α)}
    (h : Tree.Alike (Element.IsPlacedLike K) ts us) (hooks : HooksHave K ts) :
    (layout config origin us).toExcept.map (fun r => Tree.forestMap Element.placement r.value)
      = (layout config origin ts).toExcept.map
        fun r => Tree.forestMap Element.placement r.value := by
  rw [Outcome.map_toExcept, Outcome.map_toExcept]
  induction h with
  | nil => rfl
  | @cons e e' cs ts ds us hr hcs _ _ iht =>
    have hroot : HooksHave K [.node e cs] := by
      intro t ht
      refine hooks t ?_
      rw [Tree.forestNodes, Tree.forestNodes, List.append_nil] at ht
      exact List.mem_append_left _ ht
    have hothers : HooksHave K ts := fun t ht => hooks t (List.mem_append_right _ ht)
    rw [result_layout_cons, result_layout_cons, config.rootPlacement_of_placing origin hr.placing]
    cases config.rootPlacement origin e' with
    | error fault => rfl
    | ok p =>
      simp only [Except.bind]
      rw [Tree.map_forestMap_append, Tree.map_forestMap_append, iht hothers,
        placements_settledAll (.cons hr hcs .nil) hroot rfl]

end

end Otui
