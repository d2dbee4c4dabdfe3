import Otui.Config.Loading
import Otui.Proofs.BinaryNumbers
import Otui.Proofs.Faults
import Otui.Proofs.HonouredAnchors

/-!
# Every layout is well formed

A widget may say sizes, margins and paddings that are infinite or undefined, its anchors may go round,
and what is reckoned with such numbers may be undefined: one infinity less another is. None of this
gets into the place of a child. Whatever anchors pull at, they leave the extents of a box as they are
or take a difference that was raised to nought (`hasExtents_apply`); and a member is written where it
starts at nought or above nought (`isProper_place`). So no undefined number comes from any hook, along
any chain of hooks, and every forest that is placed is well formed (`layout_isWellPlaced`).

Up to the placing of forests this needs no law of the order: of each number it says that it is nought
or above nought (`Scalar.IsMeasure`). Only in the end the coordinates are binary numbers.
-/

namespace Otui

open Scalar

variable {α : Type} [Scalar α]

/-! ### Rectangles -/

/-- An element is nought or above nought. An undefined one is neither. -/
def Scalar.IsMeasure (x : α) : Prop := x = 0 ∨ 0 < x

theorem isMeasure_atLeastZero (x : α) : IsMeasure (atLeastZero x) := by
  rw [atLeastZero]
  split
  · next h => exact .inr h
  · exact .inl rfl

namespace Rect

/-- The extents of a rectangle are measures. -/
def HasExtents (r : Rect α) : Prop := ∀ axis, IsMeasure (r.extent axis)

/-- The extents of a rectangle are measures, and so are the distances at which it starts. -/
structure IsProper (r : Rect α) : Prop where
  /-- The distances. -/
  start : ∀ axis, IsMeasure (r.start axis)
  /-- The extents. -/
  extents : r.HasExtents

end Rect

/-- A hold on anything keeps the extents measures. -/
theorem Hold.hasExtents_apply (b : Box α) (target : Rect α) {frame : Rect α}
    (h : frame.HasExtents) (hold : Hold) : (hold.apply b target frame).HasExtents := by
  intro axis
  cases hold with
  | centre =>
    rw [Hold.apply, pull, pull, Family.extent_startingAt, Family.extent_startingAt]
    exact h axis
  | fill => cases axis <;> exact isMeasure_atLeastZero _
  | edge own hooked =>
    rw [Hold.apply, pull, Family.extent_startingAt]
    exact h axis

theorem zero_lt_extent {text : Option String} {x : α} (h : extent? text = some x) : 0 < x :=
  of_decide_eq_true (Option.filter_eq_some_iff.1 h).2

/-- A box that says no extents above nought has the standard ones. -/
theorem Box.hasExtents_frame (hchild : 0 < (childExtent : α)) (e : Element α) :
    (Box.ofElement e).frame.HasExtents := by
  have hextent : ∀ text : Option String, 0 < (extent? text).getD (childExtent : α) := by
    intro text
    cases hx : (extent? text : Option α) with
    | none => exact hchild
    | some x => exact zero_lt_extent hx
  intro axis
  cases axis <;> exact .inr (hextent _)

/-! ### Members -/

/-- All members that are placed have proper rectangles. -/
def Board.IsProper {n : Nat} (b : Board α n) : Prop := ∀ a ∈ b.placed, a.2.IsProper

namespace Family

variable {n : Nat} {f : Family α n} {b : Board α n}

theorem isProper_clamp {r : Rect α} (h : r.HasExtents) : (clamp r).IsProper where
  start axis := by
    rw [start_clamp]
    exact isMeasure_atLeastZero _
  extents axis := by
    rw [extent_clamp]
    exact h axis

/-- Taking steps keeps the extents measures, wherever the siblings are. -/
theorem hasExtents_follow (f : Family α n) (box : Box α) (next : Fin n → Board α n → Board α n)
    (steps : List (Step n)) {frame : Rect α} (h : frame.HasExtents) (b : Board α n) :
    (f.follow box next steps frame b).1.HasExtents := by
  induction steps generalizing frame b with
  | nil => exact h
  | cons s steps ih =>
    match s with
    | .remark notice => exact ih h _
    | .hang hold .parent => exact ih (hold.hasExtents_apply box _ h) b
    | .hang hold (.sibling j) => exact ih (hold.hasExtents_apply box _ h) (next j b)

/-- Placing a member, and all that it hangs on, keeps the board proper. -/
theorem isProper_place (hf : ∀ i, (f.box i).frame.HasExtents) (free : List (Fin n)) (i : Fin n)
    (b : Board α n) (hb : b.IsProper) : (f.place free i b).IsProper := by
  induction free, i, b using place.induct f with
  | case1 free i b hi => rwa [place_of_mem (Board.has_iff.1 hi)]
  | case2 free i b hi hfree last c hfollow ih =>
    rw [place_of_free (mt Board.has_iff.2 hi) hfree hfollow]
    have hc : c.IsProper := follow_keeps (P := Board.IsProper) hfollow (fun _ _ _ hb => hb)
      (fun _ j _ b hb => ih j b hb) hb
    have hlast : last.HasExtents := by
      have hframe := f.hasExtents_follow (f.box i) (fun j b => f.place (free.erase i) j b) (f.steps i)
        (hf i) b
      rwa [hfollow] at hframe
    intro a ha
    rcases List.mem_append.1 ha with ha | ha
    · exact hc a ha
    · obtain rfl := List.mem_singleton.1 ha
      exact isProper_clamp hlast
  | case3 free i b hi hfree =>
    rw [place_of_not_free (mt Board.has_iff.2 hi) hfree]
    exact hb

/-- All members have proper rectangles in the end, and those that hang on themselves too. -/
theorem isProper_rect (hf : ∀ i, (f.box i).frame.HasExtents) (i : Fin n) :
    (f.rect f.settle i).IsProper := by
  have hsettle : f.settle.IsProper :=
    settle_keeps (P := Board.IsProper) (fun _ h => nomatch h) fun i b hb => isProper_place hf _ i b hb
  obtain ⟨r, hr⟩ := Option.isSome_iff_exists.1 (Board.has_iff.2 (f.mem_members_settle i))
  obtain ⟨before, after, hplaced, -⟩ := List.lookup_eq_some_iff.1 hr
  rw [rect, hr, Option.getD_some]
  exact hsettle (i, r) (hplaced ▸ List.mem_append_right _ List.mem_cons_self)

end Family

/-! ### Children -/

/-- A widget with a placement and properties is above one with another placement: where that one stands
and how large it is are numbers of a kind, and it has the size and the padding of the parent. -/
structure Placement.IsAbove (P : α → Prop) (p : Placement α) (values : Ledger String)
    (q : Placement α) : Prop where
  /-- The distance from the left. -/
  left : P q.left
  /-- The distance from the top. -/
  top : P q.top
  /-- The width. -/
  width : P q.width
  /-- The height. -/
  height : P q.height
  /-- The width of the parent. -/
  parentWidth : q.parentWidth = p.width
  /-- The height of the parent. -/
  parentHeight : q.parentHeight = p.height
  /-- The padding of the parent. -/
  parentPadding :
    (⟨q.paddingLeft, q.paddingTop, q.paddingRight, q.paddingBottom⟩ : Sides α) = padding values

theorem Placement.IsAbove.imp {P Q : α → Prop} (h : ∀ x, P x → Q x)
    {p q : Placement α} {values : Ledger String} (hq : p.IsAbove P values q) :
    p.IsAbove Q values q :=
  { hq with left := h _ hq.left, top := h _ hq.top, width := h _ hq.width, height := h _ hq.height }

theorem isAbove_childPlacements (hchild : 0 < (childExtent : α)) (p : Placement α)
    (values : Ledger String) (cs : List (Widget α)) :
    ∀ q ∈ (childPlacements p values cs).value, p.IsAbove IsMeasure values q := by
  intro q hq
  obtain ⟨i, -, rfl⟩ := List.mem_map.1 hq
  have hrect := Family.isProper_rect (f := .ofChildren p (padding values) cs)
    (fun i => Family.box_ofChildren p _ cs i ▸ Box.hasExtents_frame hchild _) i
  exact
    { left := hrect.start .horizontal
      top := hrect.start .vertical
      width := hrect.extents .horizontal
      height := hrect.extents .vertical
      parentWidth := rfl
      parentHeight := rfl
      parentPadding := rfl }

/-! ### Forests -/

/-- A widget that was placed is the widget with a placement. -/
def Element.IsPlaced (e e' : Element α) : Prop := ∃ p, e' = { e with placement := some p }

/-- Every widget with children has a placement, and its children have placements below it. -/
def AreBelow (P : α → Prop) (ts : List (Widget α)) : Prop :=
  ∀ t ∈ Tree.forestNodes ts, ∀ c ∈ t.children,
    ∃ p q, t.label.placement = some p ∧ c.label.placement = some q
      ∧ p.IsAbove P t.label.properties.values q

/-- A widget on top of a forest that is placed has one of the places that were given. -/
theorem Widget.exists_placement_of_mem {ps : List (Placement α)} {ws : List (Widget α)}
    (h : ps.length = ws.length) {t : Widget α} (ht : t ∈ (Widget.settledAll ps ws).value) :
    ∃ p ∈ ps, t.label.placement = some p := by
  have hplacement := List.mem_map_of_mem (f := fun t : Widget α => t.label.placement) ht
  rw [Widget.value_settledAll h, Widget.placements_zipWith h] at hplacement
  obtain ⟨p, hp, htp⟩ := List.mem_map.1 hplacement
  exact ⟨p, hp, htp.symm⟩

theorem alike_settledAll {ws : List (Widget α)} {ps : List (Placement α)}
    (h : ps.length = ws.length) :
    Tree.Alike Element.IsPlaced ws (Widget.settledAll ps ws).value := by
  induction ws using Tree.forest_induction generalizing ps with
  | nil =>
    obtain rfl := List.length_eq_zero_iff.1 h
    exact .nil
  | cons e cs ts ihc iht =>
    cases ps with
    | nil => cases h
    | cons p ps =>
      rw [Widget.value_settledAll_cons]
      exact .cons ⟨p, rfl⟩ (ihc (length_childPlacements p _ cs)) (iht (Nat.succ.inj h))

theorem areBelow_settledAll (hchild : 0 < (childExtent : α)) {ws : List (Widget α)}
    {ps : List (Placement α)} (h : ps.length = ws.length) :
    AreBelow IsMeasure (Widget.settledAll ps ws).value := by
  induction ws using Tree.forest_induction generalizing ps with
  | nil =>
    obtain rfl := List.length_eq_zero_iff.1 h
    exact fun t ht => nomatch ht
  | cons e cs ts ihc iht =>
    cases ps with
    | nil => cases h
    | cons p ps =>
      rw [Widget.value_settledAll_cons]
      have hlength := length_childPlacements p e.properties.values cs
      intro t ht
      rcases Tree.mem_forestNodes_cons.1 ht with rfl | ht | ht
      · intro c hc
        obtain ⟨q, hq, hcq⟩ := Widget.exists_placement_of_mem hlength hc
        exact ⟨p, q, rfl, hcq, isAbove_childPlacements hchild p _ cs q hq⟩
      · exact ihc hlength t ht
      · exact iht (Nat.succ.inj h) t ht

/-- When every widget can be a root, a forest is placed. -/
theorem exists_layout {config : Config α} {origin : α × α} {P : Placement α → Prop}
    (h : ∀ e, ∃ p, config.rootPlacement origin e = .ok p ∧ P p) (ws : List (Widget α)) :
    ∃ r ps, (layout config origin ws).toExcept = .ok r ∧ ps.length = ws.length ∧ (∀ p ∈ ps, P p)
      ∧ r.value = (Widget.settledAll ps ws).value := by
  obtain ⟨ps, hps, hP⟩ := exists_mapM h (ws.map Tree.label)
  have hlength : ps.length = ws.length := (length_of_mapM hps).trans (List.length_map _)
  have hresult := result_layout config origin ws
  rw [hps, Outcome.result] at hresult
  refine ⟨⟨_, (ExceptT.run (layout config origin ws)).notices⟩, ps, ?_, hlength, hP,
    (Widget.value_settledAll hlength).symm⟩
  rw [Outcome.toExcept, hresult]
  rfl

/-! ### Roots -/

/-- Default sizes are above nought. -/
def Config.HasSizes (config : Config α) : Prop := 0 < config.defaultWidth ∧ 0 < config.defaultHeight

/-- Default sizes are not beyond all coordinates. -/
def Config.SizesFit (config : Config α) : Prop :=
  (ofInt? config.defaultWidth : Option α).isSome ∧ (ofInt? config.defaultHeight : Option α).isSome

theorem Config.hasSizes_standard : (Config.standard : Config α).HasSizes := by
  simp [HasSizes, standard]

/-- A configuration whose entries are read keeps the bounds of its numbers. -/
theorem Config.bounds_of_ofEntries {d : Data} {config : Config Float}
    (h : Config.ofEntries d = .ok config) : ¬ config.threshold < 0 ∧ config.HasSizes := by
  rw [Config.ofEntries] at h
  -- The path of the registry is read in one of three ways.
  split at h
  all_goals
    obtain ⟨_, -, h⟩ := exists_of_bind_eq_ok h
    obtain ⟨_, -, h⟩ := exists_of_bind_eq_ok h
    obtain ⟨_, -, h⟩ := exists_of_bind_eq_ok h
    obtain ⟨threshold, -, h⟩ := exists_of_bind_eq_ok h
    obtain ⟨width, -, h⟩ := exists_of_bind_eq_ok h
    obtain ⟨height, -, h⟩ := exists_of_bind_eq_ok h
    obtain ⟨hthreshold, h⟩ := not_and_of_ite_error_eq_ok h
    obtain ⟨hsizes, h⟩ := not_and_of_ite_error_eq_ok h
    obtain rfl := Except.ok.inj h
    exact ⟨hthreshold, by simpa [Config.HasSizes] using hsizes⟩

/-- A configuration that is read has default sizes above nought. -/
theorem Config.hasSizes_ofData {d : Data} {config : Config Float} (h : Config.ofData d = .ok config) :
    config.HasSizes := by
  unfold Config.ofData at h
  split at h
  · obtain rfl := Except.ok.inj h
    exact hasSizes_standard
  · split at h
    · exact (bounds_of_ofEntries h).2
    · cases h
  · cases h

theorem exists_rootExtent {default : Int} (h : ∃ x : α, ofInt? default = some x ∧ 0 < x)
    (text : Option String) : ∃ x : α, rootExtent text default = .ok x ∧ 0 < x := by
  obtain ⟨x, hx, hpos⟩ := h
  rw [rootExtent]
  cases hy : (extent? text : Option α) with
  | none => exact ⟨x, by rw [hx], hpos⟩
  | some y => exact ⟨y, rfl, zero_lt_extent hy⟩

/-- When the default sizes become coordinates above nought, every widget can be a root. -/
theorem Config.exists_rootPlacement {config : Config α}
    (hwidth : ∃ x : α, ofInt? config.defaultWidth = some x ∧ 0 < x)
    (hheight : ∃ x : α, ofInt? config.defaultHeight = some x ∧ 0 < x) (origin : α × α)
    (e : Element α) :
    ∃ p, config.rootPlacement origin e = .ok p ∧ 0 < p.width ∧ 0 < p.height := by
  obtain ⟨x, hx, hxpos⟩ := exists_rootExtent hwidth (e.properties.values.get? "width")
  obtain ⟨y, hy, hypos⟩ := exists_rootExtent hheight (e.properties.values.get? "height")
  refine ⟨⟨origin.1, origin.2, x, y, 0, 0, 0, 0, 0, 0⟩, ?_, hxpos, hypos⟩
  rw [Config.rootPlacement, hx, hy]
  rfl

theorem Config.origin_of_rootPlacement {config : Config α} {origin : α × α} {e : Element α}
    {p : Placement α} (h : config.rootPlacement origin e = .ok p) :
    p.left = origin.1 ∧ p.top = origin.2 := by
  rw [Config.rootPlacement] at h
  obtain ⟨_, -, h⟩ := exists_of_bind_eq_ok h
  obtain ⟨_, -, h⟩ := exists_of_bind_eq_ok h
  obtain rfl := Except.ok.inj h
  exact ⟨rfl, rfl⟩

/-! ### Binary numbers -/

/-- A positive integer that is not too large is a binary number above nought. -/
theorem exists_ofInt? {n : Int} (hn : 0 < n) (hfits : (ofInt? n : Option Float).isSome) :
    ∃ x : Float, ofInt? n = some x ∧ 0 < x := by
  obtain ⟨x, hx⟩ := Option.isSome_iff_exists.1 hfits
  refine ⟨x, hx, ?_⟩
  obtain ⟨-, hx⟩ := Option.ite_none_right_eq_some.1 hx
  exact Option.some.inj hx ▸ Number.zero_lt_ofInt hn

theorem isMeasure_float {x : Float} (h : IsMeasure x) : 0 ≤ x ∧ x.isNaN = false := by
  have hle : 0 ≤ x := by
    rcases h with rfl | h
    · decide
    · exact Number.le_of_lt h
  exact ⟨hle, Number.isNaN_eq_false hle⟩

/-- A forest, placed: all widgets have placements, the roots have sizes above nought, and all children
stand at defined places, not below nought, with the size and the padding of the widget above. -/
structure IsWellPlaced (ws placed : List (Widget Float)) : Prop where
  /-- The widgets are those that were there, with placements. -/
  alike : Tree.Alike Element.IsPlaced ws placed
  /-- The roots have sizes above nought. -/
  roots : ∀ t ∈ placed, ∃ p, t.label.placement = some p
    ∧ (0 < p.width ∧ p.width.isNaN = false) ∧ (0 < p.height ∧ p.height.isNaN = false)
  /-- The children stand where they may. -/
  children : AreBelow (fun x => 0 ≤ x ∧ x.isNaN = false) placed

/-- **Every layout is well formed**: for every forest, whatever its properties say, every origin and
every configuration with default sizes above nought that are not beyond all numbers, placing succeeds
and all widgets are well placed. -/
theorem layout_isWellPlaced {config : Config Float} (hsizes : config.HasSizes)
    (hfit : config.SizesFit) (origin : Float × Float) (ws : List (Widget Float)) :
    ∃ r, (layout config origin ws).toExcept = .ok r ∧ IsWellPlaced ws r.value := by
  have hroot := Config.exists_rootPlacement (exists_ofInt? hsizes.1 hfit.1)
    (exists_ofInt? hsizes.2 hfit.2) origin
  obtain ⟨r, ps, hr, hlength, hP, hvalue⟩ := exists_layout hroot ws
  refine ⟨r, hr, hvalue ▸ alike_settledAll hlength, fun t ht => ?_, fun t ht c hc => ?_⟩
  · obtain ⟨p, hp, htp⟩ := Widget.exists_placement_of_mem hlength (hvalue ▸ ht)
    obtain ⟨hwidth, hheight⟩ := hP p hp
    exact ⟨p, htp, ⟨hwidth, Number.isNaN_eq_false (Number.le_of_lt hwidth)⟩, hheight,
      Number.isNaN_eq_false (Number.le_of_lt hheight)⟩
  · rw [hvalue] at ht
    obtain ⟨p, q, hp, hq, habove⟩ := areBelow_settledAll (by decide) hlength t ht c hc
    exact ⟨p, q, hp, hq, habove.imp fun x => isMeasure_float⟩

/-- A widget of some properties and children. -/
def strangeWidget (id : String) (properties : List (String × String)) (cs : List (Widget Float)) :
    Widget Float :=
  .node { type := "UIWidget", id := some id, properties := { values := .ofList properties } } cs

/-- A root of no size, with an endless padding, and three children: one that fills it but for an
endless margin, and two that hang on each other. -/
def strangeForest : List (Widget Float) :=
  [strangeWidget "root" [("width", "nan"), ("height", "inf"), ("padding", "inf -1")]
    [strangeWidget "cover" [("anchors.fill", "parent"), ("margin-left", "inf")] [],
     strangeWidget "first" [("width", "inf"), ("anchors.right", "second.left")] [],
     strangeWidget "second" [("height", "-5"), ("anchors.left", "first.right")] []]]

theorem layout_isWellPlaced_strangeForest :
    (Config.standard : Config Float).HasSizes ∧ (Config.standard : Config Float).SizesFit
      ∧ ∃ r, (layout .standard (0, 0) strangeForest).toExcept = .ok r
        ∧ IsWellPlaced strangeForest r.value :=
  have hfit : (Config.standard : Config Float).SizesFit := by constructor <;> decide
  ⟨Config.hasSizes_standard, hfit,
    layout_isWellPlaced Config.hasSizes_standard hfit (0, 0) strangeForest⟩

end Otui
