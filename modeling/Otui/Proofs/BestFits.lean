import Otui.Proofs.InferredPlaces

/-!
# Inferred anchors are the best fit

The rectangle of a widget and the content box of its parent have the same six edges. The anchor that
is inferred on an axis ties two edges of one name together: the middles when they are closer than the
threshold, and otherwise the sides that are closer, where a side that lies outside of the content box
counts as not being away at all (`Placement.IsBest`). The margin is the distance that is left, in
whole pixels (`IsRounded`). In exact coordinates `fit?_best` says that this is all there is to it,
axis by axis, for all placements and thresholds, and that it only matters where the widget is in the
content box and not where the content box is.
-/

namespace Otui

/-- A positive whole number of pixels for a distance: the nearest one, the greater one of two. -/
structure IsRounded (distance : ℚ) (n : Int) : Prop where
  /-- There is something left. -/
  pos : 0 < n
  /-- The number is less than half a pixel below the distance. -/
  lower : distance - 1 / 2 < n
  /-- The number is at most half a pixel above the distance. -/
  upper : n ≤ distance + 1 / 2

theorem isRounded_floor {distance : ℚ} (h : 1 / 2 ≤ distance) :
    IsRounded distance ⌊distance + 1 / 2⌋ where
  pos := by
    have hone : (1 : Int) ≤ ⌊distance + 1 / 2⌋ := by
      rw [Int.le_floor]
      push_cast
      linarith
    omega
  lower := by
    have habove := Int.lt_floor_add_one (distance + 1 / 2)
    linarith
  upper := Int.floor_le _

theorem floor_eq_zero_iff {distance : ℚ} (h : 0 ≤ distance) :
    ⌊distance + 1 / 2⌋ = 0 ↔ distance < 1 / 2 := by
  rw [Int.floor_eq_iff]
  push_cast
  constructor
  · rintro ⟨-, hlt⟩
    linarith
  · intro hlt
    constructor <;> linarith

namespace Placement

variable {p : Placement ℚ} {t : ℚ}

/-! ### Distances -/

/-- How far an edge of a widget is from that edge of the content box. A side is only away when it is
inside. -/
def distance (p : Placement ℚ) (e : Edge) : ℚ :=
  match e.spot with
  | .near => max 0 (p.rect.point e - p.content.point e)
  | .middle => |p.offset e.axis|
  | .far => max 0 (p.content.point e - p.rect.point e)

/-- Where the margin of an anchor is: at the edge itself, and for the middle at the side that the
widget is off to. -/
def marginSide (p : Placement ℚ) (e : Edge) : Spot :=
  match e.spot with
  | .middle => if 0 < p.offset e.axis then .far else .near
  | side => side

/-- An edge that is so close to that of the content box that no margin is needed. -/
def IsClose (p : Placement ℚ) (e : Edge) : Prop :=
  if e.spot = .middle then p.distance e ≤ 1 / 2 else p.distance e < 1 / 2

/-- The edge to anchor a widget by on the axis of the edge. -/
structure IsBest (p : Placement ℚ) (t : ℚ) (e : Edge) : Prop where
  /-- It is the middle just when the middles are closer than the threshold. -/
  middle : e.spot = .middle ↔ |p.offset e.axis| < t
  /-- A side is no further away than the other. -/
  closest : e.spot ≠ .middle → ∀ s, s ≠ .middle → p.distance e ≤ p.distance ⟨e.axis, s⟩
  /-- The side on the right or at the bottom is closer than the other. -/
  ties : e.spot = .far → p.distance e < p.distance ⟨e.axis, .near⟩

/-- What an anchor at an edge has for a margin. -/
structure HasMargin (p : Placement ℚ) (e : Edge) (margin : Option (Spot × Int)) : Prop where
  /-- A margin is on its side and is the rounded distance. -/
  rounded : ∀ m ∈ margin, m.1 = p.marginSide e ∧ IsRounded (p.distance e) m.2
  /-- There is none just when the edges are close. -/
  missing : margin = none ↔ p.IsClose e

theorem offset_eq (p : Placement ℚ) (a : Axis) :
    p.offset a = p.rect.start a - p.content.start a + 1 / 2 * p.rect.extent a
      - 1 / 2 * p.content.extent a := by
  change p.rect.start a + 1 / 2 * p.rect.extent a
    - (p.content.start a + 1 / 2 * p.content.extent a) = _
  ring

theorem distance_near (p : Placement ℚ) (a : Axis) :
    p.distance ⟨a, .near⟩ = max 0 (p.rect.start a - p.content.start a) := by
  change max 0 (p.rect.start a + 0 * p.rect.extent a
    - (p.content.start a + 0 * p.content.extent a)) = _
  simp only [zero_mul, add_zero]

theorem distance_far (p : Placement ℚ) (a : Axis) :
    p.distance ⟨a, .far⟩ = max 0 (p.content.extent a - (p.rect.start a - p.content.start a)
      - p.rect.extent a) := by
  change max 0 (p.content.start a + 1 * p.content.extent a
    - (p.rect.start a + 1 * p.rect.extent a)) = _
  congr 1
  ring

theorem distance_nonneg (p : Placement ℚ) (e : Edge) : 0 ≤ p.distance e := by
  unfold distance
  split
  · exact le_max_left _ _
  · exact abs_nonneg _
  · exact le_max_left _ _

/-! ### One axis -/

/-- A side that is anchored has the rounded distance for its margin, unless that is nought. -/
theorem hasMargin_side {a : Axis} {side : Spot} (h : side ≠ .middle) :
    p.HasMargin ⟨a, side⟩ (marginOf side ⌊p.distance ⟨a, side⟩ + 1 / 2⌋) := by
  have hside : p.marginSide ⟨a, side⟩ = side := by
    cases side with
    | near => rfl
    | middle => exact absurd rfl h
    | far => rfl
  have hzero := floor_eq_zero_iff (p.distance_nonneg ⟨a, side⟩)
  unfold marginOf
  by_cases hfloor : ⌊p.distance ⟨a, side⟩ + 1 / 2⌋ = 0
  · have hclose := hzero.1 hfloor
    rw [if_pos (by simpa using hfloor)]
    exact ⟨by simp, by simpa [IsClose, h] using hclose⟩
  · have hfar : 1 / 2 ≤ p.distance ⟨a, side⟩ := not_lt.1 fun hlt => hfloor (hzero.2 hlt)
    rw [if_neg (by simpa using hfloor)]
    refine ⟨fun m hm => ?_, by simpa [IsClose, h] using hfar⟩
    cases hm
    exact ⟨hside.symm, isRounded_floor hfar⟩

/-- The anchor of a widget that is centred. -/
theorem exists_centredFit (p : Placement ℚ) (a : Axis) :
    ∃ margin, centredFit (p.offset a) = .ok ⟨.middle, margin⟩
      ∧ p.HasMargin ⟨a, .middle⟩ margin := by
  rw [centredFit_eq, Scalar.abs_rat]
  by_cases hhalf : 1 / 2 < |p.offset a|
  · have hround := Scalar.roundAway_eq |p.offset a| (abs_nonneg _)
    rw [if_pos hhalf, hround]
    refine ⟨some (if 0 < p.offset a then .far else .near, ⌊|p.offset a| + 1 / 2⌋), rfl,
      fun m hm => ?_, ?_⟩
    · cases hm
      exact ⟨rfl, isRounded_floor hhalf.le⟩
    · simpa [IsClose, distance] using hhalf
  · rw [if_neg hhalf]
    refine ⟨none, rfl, by simp, ?_⟩
    simpa [IsClose, distance] using hhalf

/-- The anchor of a widget that hangs on a side. -/
theorem exists_edgeFit (p : Placement ℚ) {a : Axis} {side : Spot} (h : side ≠ .middle) :
    ∃ margin, edgeFit side (p.distance ⟨a, side⟩) = .ok ⟨side, margin⟩
      ∧ p.HasMargin ⟨a, side⟩ margin := by
  have hround := Scalar.roundAway_eq _ (p.distance_nonneg ⟨a, side⟩)
  refine ⟨marginOf side ⌊p.distance ⟨a, side⟩ + 1 / 2⌋, ?_, hasMargin_side h⟩
  rw [edgeFit, hround]
  rfl

/-- **One axis**: the anchor is at the best edge and has the margin that is left. -/
theorem exists_axisFit (p : Placement ℚ) (t : ℚ) (a : Axis) :
    ∃ f, axisFit t (p.rect.start a - p.content.start a) (p.rect.extent a) (p.content.extent a)
        = .ok f
      ∧ p.IsBest t ⟨a, f.spot⟩ ∧ p.HasMargin ⟨a, f.spot⟩ f.margin := by
  rw [axisFit_eq, ← offset_eq, Scalar.abs_rat, Scalar.positivePart_rat, Scalar.positivePart_rat,
    ← distance_near, ← distance_far]
  by_cases hmiddle : |p.offset a| < t
  · obtain ⟨margin, hfit, hmargin⟩ := p.exists_centredFit a
    rw [if_pos hmiddle]
    exact ⟨_, hfit, ⟨by simpa using hmiddle, by simp, by simp⟩, hmargin⟩
  · rw [if_neg hmiddle]
    by_cases hnear : p.distance ⟨a, .near⟩ ≤ p.distance ⟨a, .far⟩
    · obtain ⟨margin, hfit, hmargin⟩ := p.exists_edgeFit (a := a) (show Spot.near ≠ .middle by decide)
      rw [if_pos hnear]
      refine ⟨_, hfit, ⟨by simpa using hmiddle, fun _ s hs => ?_, by simp⟩, hmargin⟩
      cases s with
      | near => exact le_refl _
      | middle => exact absurd rfl hs
      | far => exact hnear
    · obtain ⟨margin, hfit, hmargin⟩ := p.exists_edgeFit (a := a) (show Spot.far ≠ .middle by decide)
      have hfar := not_le.1 hnear
      rw [if_neg hnear]
      refine ⟨_, hfit, ⟨by simpa using hmiddle, fun _ s hs => ?_, fun _ => hfar⟩, hmargin⟩
      cases s with
      | near => exact hfar.le
      | middle => exact absurd rfl hs
      | far => exact le_refl _

/-! ### Both axes -/

/-- A parent that gives no anchors: it has no extent, or nothing is left of it inside its padding. -/
def HasNoContent (p : Placement ℚ) : Prop :=
  p.parentWidth ≤ 0 ∨ p.parentHeight ≤ 0 ∨ p.contentWidth = 0 ∨ p.contentHeight = 0

theorem fit?_of_hasNoContent (h : p.HasNoContent) (t : ℚ) : p.fit? t = .ok none := by
  rw [fit?_eq]
  exact if_pos h

/-- The anchors of a widget in a parent with content are those of both axes. -/
theorem fit?_of_axes (h : ¬ p.HasNoContent) {fit : Axis → AxisFit}
    (hfit : ∀ a, axisFit t (p.rect.start a - p.content.start a) (p.rect.extent a)
      (p.content.extent a) = .ok (fit a)) :
    p.fit? t = .ok (some ⟨fit .horizontal, fit .vertical⟩) := by
  have hhorizontal : axisFit t (p.left - p.paddingLeft) p.width p.contentWidth
      = .ok (fit .horizontal) := hfit .horizontal
  have hvertical : axisFit t (p.top - p.paddingTop) p.height p.contentHeight
      = .ok (fit .vertical) := hfit .vertical
  rw [fit?_eq, hhorizontal, hvertical]
  exact if_neg h

/-- A widget with anchors has on each axis the anchor of that axis. -/
theorem axisFit_of_fit? {f : Fit} (h : p.fit? t = .ok (some f)) (a : Axis) :
    axisFit t (p.rect.start a - p.content.start a) (p.rect.extent a) (p.content.extent a)
      = .ok (f.axis a) := by
  by_cases hno : p.HasNoContent
  · rw [fit?_of_hasNoContent hno] at h
    cases h
  · have haxes := fun a => p.exists_axisFit t a
    choose fit hfit _ using haxes
    rw [fit?_of_axes hno hfit] at h
    cases h
    rw [hfit]
    cases a <;> rfl

/-- The anchored edges and the margins that fit a widget best. -/
structure IsBestFit (p : Placement ℚ) (t : ℚ) (edges : List Edge) (margins : List (Edge × Int)) :
    Prop where
  /-- There are two edges: one from left to right, and then one from top to bottom. -/
  axes : edges.map Edge.axis = [.horizontal, .vertical]
  /-- Each is the best of its axis. -/
  best : ∀ e ∈ edges, p.IsBest t e
  /-- There is at most one margin for each axis. -/
  once : (margins.map fun m => m.1.axis).Sublist [.horizontal, .vertical]
  /-- A margin is on the side of an anchored edge and is the rounded distance of that edge. -/
  margin : ∀ m ∈ margins, ∃ e ∈ edges, m.1 = ⟨e.axis, p.marginSide e⟩
    ∧ IsRounded (p.distance e) m.2
  /-- There is no margin for an edge just when it is close. -/
  missing : ∀ e ∈ edges, (∀ m ∈ margins, m.1.axis ≠ e.axis) ↔ p.IsClose e

/-- What is best on each axis is best. -/
theorem isBestFit_of_axes {f : Fit} (hbest : ∀ a, p.IsBest t ⟨a, (f.axis a).spot⟩)
    (hmargin : ∀ a, p.HasMargin ⟨a, (f.axis a).spot⟩ (f.axis a).margin) :
    p.IsBestFit t f.edges f.margins where
  axes := rfl
  best e he := by
    simp only [Fit.edges, List.mem_cons, List.not_mem_nil, or_false] at he
    rcases he with rfl | rfl
    · exact hbest .horizontal
    · exact hbest .vertical
  once := by
    rw [Fit.margins]
    cases hh : f.horizontal.margin <;> cases hv : f.vertical.margin <;>
      simp [Fit.axisMargin, hh, hv]
  margin m hm := by
    obtain ⟨⟨a, side⟩, n⟩ := m
    obtain ⟨hside, hrounded⟩ := (hmargin a).rounded _ (f.mem_margins.1 hm)
    refine ⟨⟨a, (f.axis a).spot⟩, ?_, by rw [← hside], hrounded⟩
    cases a <;> simp [Fit.edges, Fit.axis]
  missing e he := by
    have haxis : (∀ m ∈ f.margins, m.1.axis ≠ e.axis) ↔ (f.axis e.axis).margin = none := by
      constructor
      · intro hno
        rw [Option.eq_none_iff_forall_ne_some]
        rintro ⟨side, n⟩ hm
        exact hno (⟨e.axis, side⟩, n) (f.mem_margins.2 hm) rfl
      · rintro hnone ⟨d, n⟩ hm hd
        have hsome := f.mem_margins.1 hm
        rw [hd, hnone] at hsome
        cases hsome
    have hspot : e = ⟨e.axis, (f.axis e.axis).spot⟩ := by
      simp only [Fit.edges, List.mem_cons, List.not_mem_nil, or_false] at he
      rcases he with rfl | rfl <;> rfl
    rw [haxis, (hmargin e.axis).missing, ← hspot]

/-- Two placements that are the same on an axis, inside the content boxes of their parents. -/
structure AgreesOn (a : Axis) (p q : Placement ℚ) : Prop where
  /-- The widgets start at the same distance from the content boxes. -/
  start : p.rect.start a - p.content.start a = q.rect.start a - q.content.start a
  /-- The widgets have the same extent. -/
  extent : p.rect.extent a = q.rect.extent a
  /-- The content boxes have the same extent. -/
  content : p.content.extent a = q.content.extent a

/-- The placement in a parent that has more padding on the left and at the top, and that is larger
by as much. -/
def movedBy (dx dy : ℚ) (p : Placement ℚ) : Placement ℚ :=
  { p with
    left := p.left + dx
    paddingLeft := p.paddingLeft + dx
    parentWidth := p.parentWidth + dx
    top := p.top + dy
    paddingTop := p.paddingTop + dy
    parentHeight := p.parentHeight + dy }

/-- The content box that is moved keeps its extent. -/
theorem content_movedBy (p : Placement ℚ) (dx dy : ℚ) :
    (p.movedBy dx dy).contentWidth = p.contentWidth
      ∧ (p.movedBy dx dy).contentHeight = p.contentHeight := by
  have hwidth : p.parentWidth + dx - (p.paddingLeft + dx) - p.paddingRight
      = p.parentWidth - p.paddingLeft - p.paddingRight := by ring
  have hheight : p.parentHeight + dy - (p.paddingTop + dy) - p.paddingBottom
      = p.parentHeight - p.paddingTop - p.paddingBottom := by ring
  exact ⟨congrArg Scalar.atLeastZero hwidth, congrArg Scalar.atLeastZero hheight⟩

/-- A parent with an extent may be moved. -/
theorem fit?_movedBy {dx dy : ℚ} (hwidth : 0 < p.parentWidth) (hheight : 0 < p.parentHeight)
    (hwidth' : 0 < p.parentWidth + dx) (hheight' : 0 < p.parentHeight + dy) :
    (p.movedBy dx dy).fit? t = p.fit? t := by
  obtain ⟨hcontentWidth, hcontentHeight⟩ := p.content_movedBy dx dy
  have hleft : (p.movedBy dx dy).left - (p.movedBy dx dy).paddingLeft = p.left - p.paddingLeft :=
    add_sub_add_right_eq_sub _ _ _
  have htop : (p.movedBy dx dy).top - (p.movedBy dx dy).paddingTop = p.top - p.paddingTop :=
    add_sub_add_right_eq_sub _ _ _
  have hextent : ((p.movedBy dx dy).parentWidth ≤ 0 ↔ p.parentWidth ≤ 0)
      ∧ ((p.movedBy dx dy).parentHeight ≤ 0 ↔ p.parentHeight ≤ 0) :=
    ⟨iff_of_false (not_le.2 hwidth') (not_le.2 hwidth),
      iff_of_false (not_le.2 hheight') (not_le.2 hheight)⟩
  rw [fit?_eq, fit?_eq, hcontentWidth, hcontentHeight, hleft, htop]
  simp only [hextent.1, hextent.2]
  rfl

/-- What inferring the anchors of a placement gives. -/
structure FitsBest (p : Placement ℚ) (t : ℚ) : Prop where
  /-- There are no anchors just when the parent has no extent or no content. -/
  none_iff : p.fit? t = .ok none
    ↔ p.parentWidth ≤ 0 ∨ p.parentHeight ≤ 0 ∨ p.contentWidth = 0 ∨ p.contentHeight = 0
  /-- Otherwise there are the best ones. -/
  best : p.fit? t ≠ .ok none → ∃ f, p.fit? t = .ok (some f) ∧ p.IsBestFit t f.edges f.margins
  /-- The anchor on an axis is that of any placement that is the same on this axis. -/
  independent : ∀ (q : Placement ℚ) (f g : Fit) (a : Axis), p.fit? t = .ok (some f) →
    q.fit? t = .ok (some g) → p.AgreesOn a q → f.axis a = g.axis a
  /-- Nothing changes when the content box is moved and the parent has an extent before and after. -/
  moved : ∀ dx dy, 0 < p.parentWidth → 0 < p.parentHeight → 0 < p.parentWidth + dx →
    0 < p.parentHeight + dy → (p.movedBy dx dy).fit? t = p.fit? t

/-- **Best fit**: whatever the placement and the threshold, there are no anchors just when the parent
has no extent or no content; otherwise there is one for each axis, the best one with the margin that
is left, for which only this axis of the widget inside the content box matters. -/
theorem fit?_best (p : Placement ℚ) (t : ℚ) : p.FitsBest t := by
  have haxes := fun a => p.exists_axisFit t a
  choose fit hfit hbest hmargin using haxes
  have hsome : ¬ p.HasNoContent → p.fit? t = .ok (some ⟨fit .horizontal, fit .vertical⟩) :=
    fun h => fit?_of_axes h hfit
  have hnone : p.HasNoContent → p.fit? t = .ok none := fun h => fit?_of_hasNoContent h t
  refine ⟨⟨fun h => ?_, hnone⟩, fun h => ?_, fun q f g a hf hg hagree => ?_,
    fun dx dy hw hh hw' hh' => fit?_movedBy hw hh hw' hh'⟩
  · by_contra hcontent
    rw [hsome hcontent] at h
    cases h
  · have hcontent : ¬ p.HasNoContent := fun hno => h (hnone hno)
    have haxis : ∀ a, (Fit.mk (fit .horizontal) (fit .vertical)).axis a = fit a := by
      intro a
      cases a <;> rfl
    refine ⟨_, hsome hcontent, isBestFit_of_axes (fun a => ?_) fun a => ?_⟩
    · rw [haxis]
      exact hbest a
    · rw [haxis]
      exact hmargin a
  · have hp := axisFit_of_fit? hf a
    have hq := axisFit_of_fit? hg a
    rw [hagree.start, hagree.extent, hagree.content, hq] at hp
    exact (Except.ok.inj hp).symm

end Placement

end Otui
