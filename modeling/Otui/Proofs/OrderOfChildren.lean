import Mathlib.Data.List.Nodup
import Otui.Proofs.HonouredAnchors

/-!
# Placing does not depend on the order of declaration

Children name each other by their ids, or as the one before and the one after. When the ids are
distinct and no child goes by its neighbours, a hook names the same child in any order of the children
(`target?_map`), so the members of a family let each other stand at the same places in any order
(`stand_comp`). When moreover no child hangs on itself there is only one choice of such places
(`Family.IsAcyclic.unique`), and placing finds it in any order (`rect_settle`).

So placing a tree in which the children of one widget stand in another order gives the placed tree
with these children in that order: every widget of the tree stands where it stood
(`layout_reordered`).
-/

namespace Otui

variable {α : Type} {m n : Nat}

/-! ### Another order -/

/-- The items of a list in another order, which says for each place where the item stood before. -/
def picked {β : Type} (order : List Nat) (xs : List β) : List β := order.filterMap fun k => xs[k]?

/-- The tree with the children of the node at a path in another order. -/
def Tree.reordered {β : Type} (order : List Nat) : List Nat → Tree β → Tree β
  | [], .node b cs => .node b (picked order cs)
  | k :: path, .node b cs => .node b (cs.modify k (Tree.reordered order path))

@[simp] theorem Tree.label_reordered {β : Type} (order path : List Nat) (t : Tree β) :
    (t.reordered order path).label = t.label := by
  cases t
  cases path <;> rfl

theorem picked_cons {β : Type} {order : List Nat} {xs : List β} {k : Nat} {x : β}
    (h : xs[k]? = some x) : picked (k :: order) xs = x :: picked order xs :=
  List.filterMap_cons_some h

theorem picked_cons_none {β : Type} {order : List Nat} {xs : List β} {k : Nat}
    (h : xs[k]? = none) : picked (k :: order) xs = picked order xs :=
  List.filterMap_cons_none h

theorem getElem?_picked {β : Type} {order : List Nat} {xs : List β}
    (h : ∀ k ∈ order, k < xs.length) (i : Nat) :
    (picked order xs)[i]? = order[i]?.bind fun k => xs[k]? := by
  induction order generalizing i with
  | nil => rfl
  | cons k order ih =>
    have hk := List.getElem?_eq_getElem (h k List.mem_cons_self)
    rw [picked_cons hk]
    cases i with
    | zero => simp [hk]
    | succ i => exact ih (fun k hk => h k (List.mem_cons_of_mem _ hk)) i

theorem length_picked {β : Type} {order : List Nat} {xs : List β} (h : ∀ k ∈ order, k < xs.length) :
    (picked order xs).length = order.length := by
  induction order with
  | nil => rfl
  | cons k order ih =>
    rw [picked_cons (List.getElem?_eq_getElem (h k List.mem_cons_self)), List.length_cons,
      ih fun k hk => h k (List.mem_cons_of_mem _ hk), List.length_cons]

theorem zipWith_picked {β γ δ : Type} (f : β → γ → δ) (order : List Nat) {xs : List β} {ys : List γ}
    (h : xs.length = ys.length) :
    List.zipWith f (picked order xs) (picked order ys) = picked order (List.zipWith f xs ys) := by
  induction order with
  | nil => rfl
  | cons k order ih =>
    by_cases hk : k < xs.length
    · have hx := List.getElem?_eq_getElem hk
      have hk' : k < ys.length := h ▸ hk
      have hy := List.getElem?_eq_getElem hk'
      have hxy : (List.zipWith f xs ys)[k]? = some (f xs[k] ys[k]) := by
        rw [List.getElem?_zipWith, hx, hy]
      rw [picked_cons hx, picked_cons hy, picked_cons hxy, List.zipWith_cons_cons, ih]
    · have hx := List.getElem?_eq_none (not_lt.1 hk)
      have hy := List.getElem?_eq_none (h ▸ not_lt.1 hk)
      have hxy : (List.zipWith f xs ys)[k]? = none := by
        rw [List.getElem?_zipWith, hx]
      rw [picked_cons_none hx, picked_cons_none hy, picked_cons_none hxy, ih]

theorem zipWith_modify {β γ δ : Type} {f : β → γ → δ} {g : γ → γ} {g' : δ → δ} {k : Nat} {y : γ}
    {ys : List γ} (hk : ys[k]? = some y) (h : ∀ x, f x (g y) = g' (f x y)) (xs : List β) :
    List.zipWith f xs (ys.modify k g) = (List.zipWith f xs ys).modify k g' := by
  refine List.ext_getElem? fun i => ?_
  rw [List.getElem?_zipWith, List.getElem?_modify, List.getElem?_modify, List.getElem?_zipWith]
  by_cases hi : k = i
  · subst hi
    cases xs[k]? <;> simp [hk, h]
  · cases xs[i]? <;> cases ys[i]? <;> simp [hi]

/-! ### Families in another order -/

/-- The target that a target of a reordered family is in the family. -/
def Target.map (s : Fin m → Fin n) : Target m → Target n
  | .parent => .parent
  | .sibling j => .sibling (s j)

namespace Family

/-- A family has the members of another in another order. -/
structure Reorders (f : Family α n) (s : Fin m → Fin n) (g : Family α m) : Prop where
  /-- The content boxes are the same. -/
  content : g.content = f.content
  /-- The boxes are the same, in the other order. -/
  box : ∀ i, g.box i = f.box (s i)
  /-- No member is lost or doubled. -/
  bijective : Function.Bijective s

/-- What the members of a family hang on does not depend on their order: ids that there are are
distinct, and no anchor goes by the neighbours. -/
structure IsOrderFree (f : Family α n) : Prop where
  /-- The ids are distinct. -/
  ids : ∀ i j id, (f.box i).id = some id → (f.box j).id = some id → i = j
  /-- No hook stands for a neighbour. -/
  hooks : ∀ i, ∀ h ∈ (f.box i).holds, Text.lower h.2 ≠ "prev" ∧ Text.lower h.2 ≠ "next"

variable {f : Family α n} {g : Family α m} {s : Fin m → Fin n}

theorem IsOrderFree.siblingNamed?_eq_some (h : f.IsOrderFree) {i j : Fin n} {id : String} :
    f.siblingNamed? i id = some j ↔ j ≠ i ∧ (f.box j).id = some id := by
  have hfound : ∀ k, f.siblingNamed? i id = some k → k ≠ i ∧ (f.box k).id = some id := by
    intro k hk
    simpa using List.find?_some (p := fun j => j != i && (f.box j).id == some id) hk
  refine ⟨hfound j, fun hj => ?_⟩
  have hsome : (f.siblingNamed? i id).isSome = true :=
    List.find?_isSome.2 ⟨j, List.mem_finRange j, by simpa using hj⟩
  obtain ⟨k, hk⟩ := Option.isSome_iff_exists.1 hsome
  rw [hk, h.ids k j id (hfound k hk).2 hj.2]

namespace Reorders

/-- A hook names the same member in another order. -/
theorem target?_map (h : f.Reorders s g) (hf : f.IsOrderFree) {i : Fin m} {hook : String}
    (hprev : Text.lower hook ≠ "prev") (hnext : Text.lower hook ≠ "next") :
    (g.target? i hook).map (Target.map s) = f.target? (s i) hook := by
  have hg : g.IsOrderFree :=
    ⟨fun j k id hj hk => h.bijective.1 (hf.ids _ _ id (h.box j ▸ hj) (h.box k ▸ hk)),
      fun j => h.box j ▸ hf.hooks (s j)⟩
  have hsibling : ∀ id, (g.siblingNamed? i id).map s = f.siblingNamed? (s i) id := by
    intro id
    ext k
    rw [Option.map_eq_some_iff, hf.siblingNamed?_eq_some]
    constructor
    · rintro ⟨j, hj, rfl⟩
      obtain ⟨hne, hid⟩ := hg.siblingNamed?_eq_some.1 hj
      exact ⟨fun hji => hne (h.bijective.1 hji), h.box j ▸ hid⟩
    · rintro ⟨hne, hid⟩
      obtain ⟨j, rfl⟩ := h.bijective.2 k
      exact ⟨j, hg.siblingNamed?_eq_some.2 ⟨fun hji => hne (congrArg s hji), h.box j ▸ hid⟩, rfl⟩
  by_cases hparent : Text.lower hook = "parent"
  · simp [target?, hparent, Target.map]
  · simp only [target?, beq_iff_eq, hparent, hprev, hnext, if_false, ← hsibling, Option.map_map]
    rfl

/-- A member hangs on the same in another order. -/
theorem held_map (h : f.Reorders s g) (hf : f.IsOrderFree) (i : Fin m) :
    (g.held i).map (fun a => (a.1, a.2.map s)) = f.held (s i) := by
  rw [held, held, List.map_filterMap, h.box]
  refine List.filterMap_congr fun a ha => ?_
  obtain ⟨hprev, hnext⟩ := hf.hooks (s i) a ha
  rw [← h.target?_map hf hprev hnext, Option.map_map, Option.map_map]
  rfl

theorem hooks (h : f.Reorders s g) (hf : f.IsOrderFree) {i j : Fin m} (hij : g.Hooks i j) :
    f.Hooks (s i) (s j) := by
  obtain ⟨hold, hhold⟩ := hij
  refine ⟨hold, mem_held_iff.1 ?_⟩
  rw [← h.held_map hf]
  exact List.mem_map.2 ⟨_, mem_held_iff.2 hhold, rfl⟩

theorem acyclic (h : f.Reorders s g) (hf : f.IsOrderFree) (hacyclic : f.IsAcyclic) :
    g.IsAcyclic :=
  fun i hi => hacyclic (s i) (hi.lift s fun _ _ hij => h.hooks hf hij)

variable [Scalar α]

/-- Members that stand at the same places let each other stand at the same places. -/
theorem stand_comp (h : f.Reorders s g) (hf : f.IsOrderFree) (r : Fin n → Rect α) (i : Fin m) :
    g.stand (r ∘ s) i = f.stand r (s i) := by
  have htarget : ∀ target, g.targetRect (r ∘ s) target = f.targetRect r (target.map s) := by
    rintro (_ | j)
    · exact h.content
    · rfl
  rw [stand, stand, frameOn, frameOn, ← h.held_map hf, List.foldl_map, h.box]
  simp only [htarget]

/-- Placing gives the members the same places in another order. -/
theorem rect_settle (h : f.Reorders s g) (hf : f.IsOrderFree) (hacyclic : f.IsAcyclic) (i : Fin m) :
    g.rect g.settle i = f.rect f.settle (s i) := by
  have hg := h.acyclic hf hacyclic
  refine congrFun (hg.unique (settle_stand hg) (s := f.rect f.settle ∘ s) fun i => ?_) i
  rw [h.stand_comp hf]
  exact settle_stand hacyclic (s i)

end Reorders

end Family

/-! ### Children in another order -/

section

variable [Scalar α]

/-- The places of children do not depend on their order: the ids that there are are distinct but for
case, no anchor goes by the neighbours, and no child hangs on itself. -/
structure AreOrderFree (cs : List (Widget α)) : Prop where
  /-- The ids are distinct, in lower case. -/
  ids : (cs.filterMap fun c => c.label.id.map Text.lower).Nodup
  /-- No hook stands for a neighbour. -/
  hooks : ∀ c ∈ cs, ∀ h ∈ (Box.ofElement c.label).holds,
    Text.lower h.2 ≠ "prev" ∧ Text.lower h.2 ≠ "next"
  /-- No child hangs on itself. -/
  acyclic : (Family.among cs).IsAcyclic

theorem AreOrderFree.family {cs : List (Widget α)} (h : AreOrderFree cs) (p : Placement α)
    (padding : Sides α) : (Family.ofChildren p padding cs).IsOrderFree where
  ids i j id hi hj := by
    rw [Family.box_ofChildren] at hi hj
    have hids := List.pairwise_iff_getElem.1 (List.pairwise_filterMap.1 h.ids)
    by_contra hne
    rcases Nat.lt_or_gt_of_ne (Fin.val_ne_of_ne hne) with hlt | hlt
    · exact hids i j i.isLt j.isLt hlt id hi id hj rfl
    · exact hids j i j.isLt i.isLt hlt id hj id hi rfl
  hooks i := by
    rw [Family.box_ofChildren]
    exact h.hooks _ (List.get_mem cs i)

/-- An order of places as a map of places. -/
theorem exists_bijective_of_perm {β : Type} {xs : List β} {order : List Nat}
    (h : order.Perm (List.range xs.length)) :
    ∃ s : Fin (picked order xs).length → Fin xs.length, Function.Bijective s
      ∧ ∀ i, order[i.val]? = some (s i).val := by
  have hlt : ∀ k ∈ order, k < xs.length := fun k hk => List.mem_range.1 (h.subset hk)
  have hsome : ∀ i : Fin (picked order xs).length, ∃ k : Fin xs.length, order[i.val]? = some k.val := by
    intro i
    have hi := List.getElem?_eq_getElem i.isLt
    rw [getElem?_picked hlt] at hi
    obtain ⟨k, hk, -⟩ := Option.bind_eq_some_iff.1 hi
    exact ⟨⟨k, hlt k (List.mem_of_getElem? hk)⟩, hk⟩
  choose s hs using hsome
  refine ⟨s, ⟨fun i j hij => ?_, fun k => ?_⟩, hs⟩
  · have hi : i.val < order.length := (List.getElem?_eq_some_iff.1 (hs i)).1
    refine Fin.ext ((List.getElem?_inj hi (h.nodup_iff.2 List.nodup_range)).1 ?_)
    rw [hs, hs, hij]
  · obtain ⟨i, hi⟩ := List.getElem?_of_mem (h.symm.subset (List.mem_range.2 k.isLt))
    have hpicked : (picked order xs)[i]? = order[i]?.bind fun k => xs[k]? :=
      getElem?_picked hlt i
    rw [hi, Option.bind_some, List.getElem?_eq_getElem k.isLt] at hpicked
    have hlt' := (List.getElem?_eq_some_iff.1 hpicked).1
    exact ⟨⟨i, hlt'⟩, Fin.ext (Option.some.inj ((hs _).symm.trans hi))⟩

theorem getElem?_childPlacements (p : Placement α) (values : Ledger String) {cs : List (Widget α)}
    (i : Fin cs.length) :
    (childPlacements p values cs).value[i.val]?
      = some (.ofRect p (padding values) ((Family.ofChildren p (padding values) cs).rect
          (Family.ofChildren p (padding values) cs).settle i)) := by
  simp [childPlacements]

/-- Children in another order have their places in that order. -/
theorem childPlacements_picked (p : Placement α) (values : Ledger String) {cs : List (Widget α)}
    {order : List Nat} (h : AreOrderFree cs) (horder : order.Perm (List.range cs.length)) :
    (childPlacements p values (picked order cs)).value
      = picked order (childPlacements p values cs).value := by
  obtain ⟨s, hs, hval⟩ := exists_bijective_of_perm horder
  have hlt : ∀ k ∈ order, k < cs.length := fun k hk => List.mem_range.1 (horder.subset hk)
  have hlt' : ∀ k ∈ order, k < (childPlacements p values cs).value.length := by
    rwa [length_childPlacements]
  have hreorders : (Family.ofChildren p (padding values) cs).Reorders s
      (Family.ofChildren p (padding values) (picked order cs)) := by
    refine ⟨rfl, fun i => ?_, hs⟩
    have hi := List.getElem?_eq_getElem i.isLt
    rw [getElem?_picked hlt, hval, Option.bind_some, List.getElem?_eq_getElem (s i).isLt] at hi
    rw [Family.box_ofChildren, Family.box_ofChildren]
    exact congrArg (fun c => Box.ofElement c.label) (Option.some.inj hi).symm
  have hacyclic : (Family.ofChildren p (padding values) cs).IsAcyclic := by
    rw [Family.IsAcyclic, Family.hooks_ofChildren]
    exact h.acyclic
  have hlength : (childPlacements p values (picked order cs)).value.length
      = (picked order (childPlacements p values cs).value).length := by
    rw [length_childPlacements, length_picked hlt, length_picked hlt']
  refine List.ext_getElem hlength fun k hk hk' => Option.some.inj ?_
  rw [← List.getElem?_eq_getElem hk, ← List.getElem?_eq_getElem hk', getElem?_picked hlt']
  rw [length_childPlacements] at hk
  have hi := getElem?_childPlacements p values (⟨k, hk⟩ : Fin (picked order cs).length)
  rw [hreorders.rect_settle (h.family p (padding values)) hacyclic] at hi
  have hk := hval ⟨k, hk⟩
  rw [hi, hk, Option.bind_some, getElem?_childPlacements]

/-! ### Trees in another order -/

/-- The places of children depend on their labels alone. -/
theorem childPlacements_of_labels (p : Placement α) (e : Element α) {cs ds : List (Widget α)}
    (h : cs.map Tree.label = ds.map Tree.label) :
    (childPlacements p e.properties.values cs).value
      = (childPlacements p e.properties.values ds).value := by
  have hlike : List.Forall₂ (fun c d : Widget α => c.label.IsPlacedLike (fun _ _ => True) d.label)
      cs ds := by
    have heq : List.Forall₂ Eq (cs.map Tree.label) (ds.map Tree.label) := by
      rwa [List.forall₂_eq_eq_eq]
    rw [List.forall₂_map_left_iff, List.forall₂_map_right_iff] at heq
    exact heq.imp fun c d hcd => hcd ▸ ⟨rfl, fun _ _ => rfl⟩
  exact childPlacements_eq p rfl hlike fun _ _ _ _ _ _ => trivial

omit [Scalar α] in
theorem map_label_modify_reordered (order : List Nat) (k : Nat) (path : List Nat)
    (ws : List (Widget α)) :
    (ws.modify k (Tree.reordered order path)).map Tree.label = ws.map Tree.label := by
  refine List.ext_getElem? fun i => ?_
  rw [List.getElem?_map, List.getElem?_map, List.getElem?_modify]
  cases ws[i]? with
  | none => rfl
  | some w => by_cases hi : k = i <;> simp [hi]

/-- A tree with children in another order, placed, is the placed tree with them in that order. -/
theorem value_settled_reordered {order path : List Nat} {t parent : Widget α}
    (hparent : t.at? path = some parent) (h : AreOrderFree parent.children)
    (horder : order.Perm (List.range parent.children.length)) (p : Placement α) :
    (Widget.settled p (t.reordered order path)).value
      = (Widget.settled p t).value.reordered order path := by
  induction path generalizing t p with
  | nil =>
    obtain rfl := Option.some.inj hparent
    obtain ⟨e, cs⟩ := t
    rw [Tree.children_node] at h horder
    rw [Tree.reordered, Widget.value_settled, Widget.value_settled, Tree.reordered,
      childPlacements_picked p _ h horder, zipWith_picked _ _ (length_childPlacements p _ cs)]
  | cons k path ih =>
    obtain ⟨e, cs⟩ := t
    obtain ⟨c, hc, hcparent⟩ := Option.bind_eq_some_iff.1 hparent
    rw [Tree.children_node] at hc
    rw [Tree.reordered, Widget.value_settled, Widget.value_settled, Tree.reordered,
      childPlacements_of_labels p e (map_label_modify_reordered order k path cs)]
    exact congrArg (Tree.node _) (zipWith_modify hc (fun p => ih hcparent p) _)

/-- **Placing does not depend on the order of declaration**: when the places of the children of one
widget of a forest do not depend on their order (`AreOrderFree`), the forest with these children in
another order, placed, is the placed forest with them in that order, and every widget stands where it
stood. -/
theorem layout_reordered (config : Config α) (origin : α × α) {ws : List (Widget α)} {k : Nat}
    {path order : List Nat} {parent : Widget α}
    (hparent : ws[k]?.bind (Tree.at? path) = some parent) (h : AreOrderFree parent.children)
    (horder : order.Perm (List.range parent.children.length)) :
    (layout config origin (ws.modify k (Tree.reordered order path))).toExcept.map (fun r => r.value)
      = (layout config origin ws).toExcept.map
        fun r => r.value.modify k (Tree.reordered order path) := by
  obtain ⟨w, hw, hwparent⟩ := Option.bind_eq_some_iff.1 hparent
  refine ((Outcome.map_toExcept _ id).trans ?_).trans
    (Outcome.map_toExcept _ fun ws => List.modify ws k (Tree.reordered order path)).symm
  rw [result_layout, result_layout, map_label_modify_reordered]
  cases (ws.map Tree.label).mapM (config.rootPlacement origin) with
  | error fault => rfl
  | ok ps =>
    exact congrArg Except.ok
      (zipWith_modify hw (fun p => value_settled_reordered hwparent h horder p) ps)

end

theorem areOrderFree_threeButtons : AreOrderFree threeButtons where
  ids := by decide +kernel
  hooks := by decide +kernel
  acyclic := isAcyclic_threeButtons

theorem layout_reordered_threeButtons :
    AreOrderFree threeButtons
      ∧ (layout .standard (0, 0)
            ([buttonWindow].modify 0 (Tree.reordered [1, 2, 0] [0]))).toExcept.map (fun r => r.value)
        = (layout .standard (0, 0) [buttonWindow]).toExcept.map
          fun r => r.value.modify 0 (Tree.reordered [1, 2, 0] [0]) :=
  ⟨areOrderFree_threeButtons,
    layout_reordered .standard (0, 0) rfl areOrderFree_threeButtons (by decide)⟩

end Otui
