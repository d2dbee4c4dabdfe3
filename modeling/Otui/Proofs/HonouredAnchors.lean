import Otui.Proofs.ExactScalar
import Otui.Proofs.PlacedMembers
import Otui.Proofs.PlacedTrees

/-!
# Placed widgets honour their anchors

What the anchors of a child ask of its rectangle, given the content box of the parent and the
rectangles of the siblings, is `Family.Honours`: the last anchor of the middle that there is, else the
last one of all sides, else on each axis the last valid anchor of a single edge says where the
rectangle starts; without any it starts at nought.

A child that stands where its siblings let it stand honours its anchors (`honours_of_stand`): of the
edges that are pulled one after the other only the last on each axis counts (`start_frameOn`). When
no child hangs on itself all children stand like that in the end, so in every placed tree the children
of every such parent honour their anchors, by the rectangles that they have in the end
(`anchors_honoured`).
-/

namespace Otui

open Scalar

variable {α : Type} [Scalar α]

/-! ### What anchors ask for -/

/-- A rectangle starts where an edge of a box that is anchored at `x` puts it: the margin on the
side of the edge keeps it off, and nothing starts before nought. -/
def Box.StartsBy (b : Box α) (r : Rect α) (x : α) : Edge → Prop
  | ⟨.horizontal, .near⟩ => r.left = atLeastZero (x + b.margins.left)
  | ⟨.horizontal, .middle⟩ =>
    r.left = atLeastZero (x - half * b.width + b.margins.left - b.margins.right)
  | ⟨.horizontal, .far⟩ => r.left = atLeastZero (x - b.width - b.margins.right)
  | ⟨.vertical, .near⟩ => r.top = atLeastZero (x + b.margins.top)
  | ⟨.vertical, .middle⟩ =>
    r.top = atLeastZero (x - half * b.height + b.margins.top - b.margins.bottom)
  | ⟨.vertical, .far⟩ => r.top = atLeastZero (x - b.height - b.margins.bottom)

/-- A rectangle of the size of a box is in the middle of another, but for the margins. -/
def Box.IsCentredIn (b : Box α) (r target : Rect α) : Prop :=
  b.StartsBy r (target.point ⟨.horizontal, .middle⟩) ⟨.horizontal, .middle⟩
    ∧ b.StartsBy r (target.point ⟨.vertical, .middle⟩) ⟨.vertical, .middle⟩
    ∧ r.width = b.width ∧ r.height = b.height

/-- A rectangle fills another, but for the margins of a box. -/
def Box.Fills (b : Box α) (r target : Rect α) : Prop :=
  r.left = atLeastZero (target.point .left + b.margins.left)
    ∧ r.top = atLeastZero (target.point .top + b.margins.top)
    ∧ r.width = atLeastZero (target.width - b.margins.left - b.margins.right)
    ∧ r.height = atLeastZero (target.height - b.margins.top - b.margins.bottom)

/-- The own and the hooked edge of a hold on an axis. -/
def Hold.onAxis? (axis : Axis) : Hold → Option (Edge × Edge)
  | .edge own hooked => if own.axis = axis then some (own, hooked) else none
  | .centre | .fill => none

namespace Family

variable {n : Nat}

/-- The last hold on an axis among some: the own edge, the hooked edge, and what the hook names. -/
def lastOn? (axis : Axis) (held : List (Hold × Target n)) : Option (Edge × Edge × Target n) :=
  (held.filterMap fun h => (h.1.onAxis? axis).map fun e => (e.1, e.2, h.2)).getLast?

/-- The rectangle of a member meets what its anchors ask for, when the members have given places. -/
def Honours (f : Family α n) (r : Fin n → Rect α) (i : Fin n) : Prop :=
  match (f.box i).lastAnchor? Box.isCentre with
  | some value =>
    match f.target? i (Text.trim value) with
    | some target => (f.box i).IsCentredIn (r i) (f.targetRect r target)
    | none => r i = (f.box i).frame
  | none =>
    match (f.box i).lastAnchor? Box.isFill with
    | some value =>
      match f.target? i (Text.trim value) with
      | some target => (f.box i).Fills (r i) (f.targetRect r target)
      | none => r i = (f.box i).frame
    | none =>
      (r i).width = (f.box i).width ∧ (r i).height = (f.box i).height ∧ ∀ axis,
        match lastOn? axis (f.held i) with
        | some (own, hooked, target) =>
          (f.box i).StartsBy (r i) ((f.targetRect r target).point hooked) own
        | none => (r i).start axis = 0

/-! ### A member that stands where it should honours its anchors -/

theorem start_clamp (r : Rect α) (axis : Axis) :
    (clamp r).start axis = atLeastZero (r.start axis) := by
  cases axis <;> rfl

theorem extent_clamp (r : Rect α) (axis : Axis) : (clamp r).extent axis = r.extent axis := by
  cases axis <;> rfl

theorem atLeastZero_zero : (atLeastZero 0 : α) = 0 := ite_self 0

theorem clamp_frame (b : Box α) : clamp b.frame = b.frame := by
  simp [clamp, Box.frame, atLeastZero_zero]

omit [Scalar α] in
theorem start_startingAt (r : Rect α) (x : α) (axis axis' : Axis) :
    (r.startingAt x axis').start axis = if axis' = axis then x else r.start axis := by
  cases axis <;> cases axis' <;> rfl

omit [Scalar α] in
theorem extent_startingAt (r : Rect α) (x : α) (axis axis' : Axis) :
    (r.startingAt x axis').extent axis = r.extent axis := by
  cases axis <;> cases axis' <;> rfl

theorem startsBy_iff (b : Box α) (r : Rect α) (x : α) (own : Edge) :
    b.StartsBy r x own ↔ r.start own.axis = atLeastZero (Hold.start b own x) := by
  obtain ⟨axis, spot⟩ := own
  cases axis <;> cases spot <;> rfl

/-- Of the edges that are pulled, the last one on an axis says where the frame starts. -/
theorem start_frameOn (f : Family α n) (b : Box α) (r : Fin n → Rect α) (frame : Rect α)
    (axis : Axis) {held : List (Hold × Target n)}
    (hedges : ∀ h ∈ held, ∃ own hooked, h.1 = .edge own hooked) :
    (f.frameOn b r held frame).extent axis = frame.extent axis
      ∧ (f.frameOn b r held frame).start axis
        = match lastOn? axis held with
          | some (own, hooked, target) => Hold.start b own ((f.targetRect r target).point hooked)
          | none => frame.start axis := by
  induction held using List.reverseRecOn with
  | nil => exact ⟨rfl, rfl⟩
  | append_singleton held h ih =>
    obtain ⟨hextent, hstart⟩ := ih fun h hh => hedges h (List.mem_append_left _ hh)
    obtain ⟨own, hooked, hedge⟩ := hedges h (List.mem_append_right _ (List.mem_singleton_self h))
    obtain ⟨_, target⟩ := h
    obtain rfl : _ = Hold.edge own hooked := hedge
    have hlast : f.frameOn b r (held ++ [(.edge own hooked, target)]) frame
        = Hold.pull b own hooked (f.targetRect r target) (f.frameOn b r held frame) := by
      simp [frameOn, Hold.apply]
    rw [hlast, Hold.pull, extent_startingAt, start_startingAt, hextent, hstart]
    refine ⟨rfl, ?_⟩
    by_cases haxis : own.axis = axis
    · simp [lastOn?, Hold.onAxis?, haxis]
    · simp [lastOn?, Hold.onAxis?, haxis]

theorem axis_of_lastOn? {axis : Axis} {held : List (Hold × Target n)} {own hooked : Edge}
    {target : Target n} (h : lastOn? axis held = some (own, hooked, target)) : own.axis = axis := by
  obtain ⟨⟨hold, _⟩, -, hmap⟩ := List.mem_filterMap.1 (List.mem_of_getLast? h)
  obtain ⟨e, he, hlast⟩ := Option.map_eq_some_iff.1 hmap
  obtain ⟨rfl, -⟩ := Prod.mk.inj hlast
  cases hold with
  | edge own' hooked' =>
    obtain ⟨haxis, hown⟩ := Option.ite_none_right_eq_some.1 he
    rw [← Option.some.inj hown]
    exact haxis
  | centre => cases he
  | fill => cases he

omit [Scalar α] in
/-- A member without anchors of the middle and of all sides hangs on by edges. -/
theorem edges_of_held {f : Family α n} {i : Fin n}
    (hcentre : (f.box i).lastAnchor? Box.isCentre = none)
    (hfill : (f.box i).lastAnchor? Box.isFill = none) :
    ∀ h ∈ f.held i, ∃ own hooked, h.1 = .edge own hooked := by
  intro h hh
  obtain ⟨h', hh', hmap⟩ := List.mem_filterMap.1 hh
  obtain ⟨target, -, rfl⟩ := Option.map_eq_some_iff.1 hmap
  simp only [Box.holds, hcentre, hfill] at hh'
  obtain ⟨a, -, ha⟩ := List.mem_filterMap.1 hh'
  unfold edgeHold? at ha
  split at ha
  · obtain ⟨hooked, -, rfl⟩ := Option.map_eq_some_iff.1 ha
    exact ⟨a.1, hooked, rfl⟩
  · cases ha

theorem stand_of_held_nil {f : Family α n} {i : Fin n} (h : f.held i = []) (r : Fin n → Rect α) :
    f.stand r i = (f.box i).frame := by
  rw [stand, h]
  exact clamp_frame (f.box i)

theorem stand_of_held_single {f : Family α n} {i : Fin n} {hold : Hold} {target : Target n}
    (h : f.held i = [(hold, target)]) (r : Fin n → Rect α) :
    f.stand r i = clamp (hold.apply (f.box i) (f.targetRect r target) (f.box i).frame) := by
  rw [stand, h]
  rfl

/-- A member that stands where its siblings let it stand honours its anchors. -/
theorem honours_of_stand {f : Family α n} {r : Fin n → Rect α} {i : Fin n}
    (h : r i = f.stand r i) : f.Honours r i := by
  unfold Honours
  cases hcentre : (f.box i).lastAnchor? Box.isCentre with
  | some value =>
    dsimp only
    cases htarget : f.target? i (Text.trim value) with
    | some target =>
      have hheld : f.held i = [(.centre, target)] := by simp [held, Box.holds, hcentre, htarget]
      simp only [h, stand_of_held_single hheld]
      exact ⟨rfl, rfl, rfl, rfl⟩
    | none => exact h.trans (stand_of_held_nil (by simp [held, Box.holds, hcentre, htarget]) r)
  | none =>
    cases hfill : (f.box i).lastAnchor? Box.isFill with
    | some value =>
      dsimp only
      cases htarget : f.target? i (Text.trim value) with
      | some target =>
        have hheld : f.held i = [(.fill, target)] := by
          simp [held, Box.holds, hcentre, hfill, htarget]
        simp only [h, stand_of_held_single hheld]
        exact ⟨rfl, rfl, rfl, rfl⟩
      | none =>
        exact h.trans (stand_of_held_nil (by simp [held, Box.holds, hcentre, hfill, htarget]) r)
    | none =>
      have hframe := fun axis =>
        f.start_frameOn (f.box i) r (f.box i).frame axis (edges_of_held hcentre hfill)
      have hextent : ∀ axis, (r i).extent axis = (f.box i).frame.extent axis := fun axis => by
        rw [h, stand, extent_clamp, (hframe axis).1]
      have hstart : ∀ axis, (r i).start axis = atLeastZero
          ((f.frameOn (f.box i) r (f.held i) (f.box i).frame).start axis) := fun axis => by
        rw [h, stand, start_clamp]
      refine ⟨hextent .horizontal, hextent .vertical, fun axis => ?_⟩
      have hlast := (hframe axis).2
      split
      · next own hooked target hlastOn =>
        obtain rfl := axis_of_lastOn? hlastOn
        rw [hlastOn] at hlast
        rw [startsBy_iff, hstart, hlast]
      · next hlastOn =>
        rw [hlastOn] at hlast
        rw [hstart, hlast]
        cases axis <;> exact atLeastZero_zero

/-- When no member hangs on itself, all members honour their anchors in the end. -/
theorem honours_settle {f : Family α n} (hf : f.IsAcyclic) (i : Fin n) :
    f.Honours (f.rect f.settle) i :=
  honours_of_stand (settle_stand hf i)

/-- Widgets as a family, wherever their parent stands: what they hang on does not depend on it. -/
def among (cs : List (Widget α)) : Family α cs.length :=
  .ofChildren ⟨0, 0, 0, 0, 0, 0, 0, 0, 0, 0⟩ ⟨0, 0, 0, 0⟩ cs

theorem hooks_ofChildren (p : Placement α) (padding : Sides α) (cs : List (Widget α)) :
    (Family.ofChildren p padding cs).Hooks = (among cs).Hooks :=
  hooks_of_box rfl

end Family

/-! ### Placed trees -/

/-- **Placed widgets honour their anchors**: in every placed forest, when none of the children of some
widget hangs on itself, all of them honour their anchors by the content box of the widget and by the
rectangles that they have in the end. -/
theorem anchors_honoured (config : Config α) (origin : α × α) {ws : List (Widget α)}
    {r : Noted (List (Widget α))} (hr : (layout config origin ws).toExcept = .ok r) {k : Nat}
    {path : List Nat} {e : Element α} {cs : List (Widget α)}
    (hparent : ws[k]?.bind (Tree.at? path) = some (.node e cs))
    (hacyclic : (Family.among cs).IsAcyclic) :
    ∃ p ds, r.value[k]?.bind (Tree.at? path) = some (.node { e with placement := some p } ds)
      ∧ ∃ rects : Fin cs.length → Rect α,
        ds.map (fun d => d.label.placement)
          = (List.finRange cs.length).map (fun i =>
            some (.ofRect p (padding e.properties.values) (rects i)))
        ∧ ∀ i, (Family.ofChildren p (padding e.properties.values) cs).Honours rects i := by
  obtain ⟨p, hp⟩ := exists_at?_layout hr hparent
  refine ⟨p, _, by rw [hp, Widget.value_settled], ?_⟩
  have hf : (Family.ofChildren p (padding e.properties.values) cs).IsAcyclic := by
    rw [Family.IsAcyclic, Family.hooks_ofChildren]
    exact hacyclic
  refine ⟨_, ?_, Family.honours_settle hf⟩
  rw [Widget.placements_zipWith (length_childPlacements p _ cs), childPlacements, List.map_map]
  rfl

/-- A widget of an id with properties and children. -/
def widgetOf (id : String) (properties : List (String × String)) (cs : List (Widget ℚ)) :
    Widget ℚ :=
  .node { type := "UIWidget", id := some id, properties := { values := .ofList properties } } cs

/-- Three buttons: one that covers the next one, which stands beside the last one, which is in the
middle of its parent. -/
def threeButtons : List (Widget ℚ) :=
  [widgetOf "cover" [("anchors.fill", "ok")] [],
   widgetOf "ok" [("width", "40"), ("anchors.left", "cancel.right"),
     ("anchors.top", "parent.top"), ("margin-left", "8")] [],
   widgetOf "cancel" [("anchors.centerIn", "parent")] []]

/-- A window with a panel that has the buttons. -/
def buttonWindow : Widget ℚ :=
  widgetOf "window" [("padding", "4")]
    [widgetOf "panel" [("anchors.fill", "parent")] threeButtons]

theorem isAcyclic_threeButtons : (Family.among threeButtons).IsAcyclic := by
  -- hooks go to later buttons
  refine Family.isAcyclic_of_rank (fun i => 2 - i.val) ?_
  simp only [Family.hooks_iff]
  decide +kernel

theorem anchors_honoured_threeButtons :
    ∃ r, (layout .standard (0, 0) [buttonWindow]).toExcept = .ok r
      ∧ (Family.among threeButtons).IsAcyclic
      ∧ ∃ (e : Element ℚ) (p : Placement ℚ) (ds : List (Widget ℚ)),
        r.value[0]?.bind (Tree.at? [0]) = some (.node { e with placement := some p } ds)
        ∧ ∃ rects : Fin threeButtons.length → Rect ℚ,
          ds.map (fun d => d.label.placement)
            = (List.finRange threeButtons.length).map (fun i =>
              some (.ofRect p (padding e.properties.values) (rects i)))
          ∧ ∀ i, (Family.ofChildren p (padding e.properties.values) threeButtons).Honours
              rects i := by
  obtain ⟨r, hr⟩ : ∃ r, (layout .standard (0, 0) [buttonWindow]).toExcept = .ok r := ⟨_, rfl⟩
  exact ⟨r, hr, isAcyclic_threeButtons, _,
    anchors_honoured .standard (0, 0) hr rfl isAcyclic_threeButtons⟩

end Otui
