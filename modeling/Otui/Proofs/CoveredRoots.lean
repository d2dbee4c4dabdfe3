import Otui.Proofs.DrawnForests
import Otui.Proofs.ExactScalar
import Otui.Proofs.FinishedDocuments
import Otui.Proofs.WellFormedPlaces

/-!
# Roots on their canvas

The canvas of a preview has room for the roots side by side, and each root is painted in a rectangle
of its own (`rootBoxes`, `exists_boxes_of_draw`). The width of the canvas comes from the widths of
the roots, each brought to whole columns by itself; the last column of a root comes from where the
root starts and its width together. Halves go to even numbers, so that the two need not agree: a
width that is half way above an even number reaches one column further when it starts at an odd
column (`Overhangs`).

The gap between two roots hides this. Of exact sizes, in the standard configuration, it follows that
roots never touch and that all of them are on the canvas, except that the last one may stick out by
one column (`exists_rootBoxes`), as it does for two panels (`rootBoxes_twoPanels`).
-/

namespace Otui

/-! ### Halves -/

/-- A number is half way between two integers. -/
def IsHalf (x : ℚ) : Prop := x = ⌊x⌋ + 1 / 2

instance (x : ℚ) : Decidable (IsHalf x) := inferInstanceAs (Decidable (_ = _))

/-- An extent reaches one column further at some column than by itself: it is half way above an even
number, and the column is odd. -/
def Overhangs (column : Int) (x : ℚ) : Prop := IsHalf x ∧ ⌊x⌋ % 2 = 0 ∧ column % 2 = 1

instance (column : Int) (x : ℚ) : Decidable (Overhangs column x) :=
  inferInstanceAs (Decidable (_ ∧ _ ∧ _))

/-- Halves go to the even neighbour, all else to the nearest. -/
theorem nearestEven_eq (x : ℚ) :
    nearestEven x = if IsHalf x then ⌊x⌋ + ⌊x⌋ % 2 else ⌊x + 1 / 2⌋ := by
  have hdef : nearestEven x = if (⌊x + 1 / 2⌋ : ℚ) = x + 1 / 2 ∧ ⌊x + 1 / 2⌋ % 2 = 1
      then ⌊x + 1 / 2⌋ - 1 else ⌊x + 1 / 2⌋ := rfl
  rw [hdef]
  by_cases hx : IsHalf x
  · have hnext : x + 1 / 2 = ((⌊x⌋ + 1 : Int) : ℚ) := by
      rw [IsHalf] at hx
      push_cast
      linarith
    rw [if_pos hx, hnext, Int.floor_intCast]
    simp only [true_and]
    split <;> omega
  · have hne : (⌊x + 1 / 2⌋ : ℚ) ≠ x + 1 / 2 := by
      intro h
      have hfloor : ⌊x⌋ = ⌊x + 1 / 2⌋ - 1 := by
        rw [Int.floor_eq_iff]
        push_cast
        constructor <;> linarith
      rw [IsHalf, hfloor] at hx
      push_cast at hx
      exact hx (by linarith)
    rw [if_neg hx, if_neg fun h => hne h.1]

theorem isHalf_intCast_add (m : Int) (x : ℚ) : IsHalf (m + x) ↔ IsHalf x := by
  rw [IsHalf, IsHalf, Int.floor_intCast_add]
  push_cast
  constructor <;> intro h <;> linarith

/-- Only a half may be rounded otherwise when it is put at a column. -/
theorem nearestEven_intCast_add (m : Int) (x : ℚ) :
    nearestEven (m + x)
      = m + nearestEven x + if IsHalf x then (m + ⌊x⌋) % 2 - ⌊x⌋ % 2 else 0 := by
  rw [nearestEven_eq, nearestEven_eq, Int.floor_intCast_add, add_assoc (m : ℚ),
    Int.floor_intCast_add]
  simp only [isHalf_intCast_add]
  split <;> omega

theorem nearestEven_intCast (m : Int) : nearestEven m = m := by
  have hhalf : ¬ IsHalf (m : ℚ) := by
    rw [IsHalf, Int.floor_intCast]
    intro h
    linarith
  rw [nearestEven_eq, if_neg hhalf, Int.floor_eq_iff]
  constructor <;> linarith

/-- What is not below nought ends at its column or further on. -/
theorem le_nearestEven_intCast_add (m : Int) {x : ℚ} (h : 0 ≤ x) : m ≤ nearestEven (m + x) := by
  have hfloor : 0 ≤ ⌊x⌋ := Int.floor_nonneg.2 h
  have hnext : 0 ≤ ⌊x + 1 / 2⌋ := Int.floor_nonneg.2 (by linarith)
  rw [nearestEven_eq, Int.floor_intCast_add, add_assoc (m : ℚ), Int.floor_intCast_add]
  split <;> omega

theorem zero_le_nearestEven {x : ℚ} (h : 0 ≤ x) : 0 ≤ nearestEven x := by
  simpa using le_nearestEven_intCast_add 0 h

theorem nearestEven_of_overhangs {m : Int} {x : ℚ} (h : Overhangs m x) :
    nearestEven (m + x) = m + nearestEven x + 1 := by
  obtain ⟨hhalf, heven, hodd⟩ := h
  rw [nearestEven_intCast_add, if_pos hhalf]
  omega

theorem nearestEven_le_of_not_overhangs {m : Int} {x : ℚ} (h : ¬ Overhangs m x) :
    nearestEven (m + x) ≤ m + nearestEven x := by
  rw [nearestEven_intCast_add]
  split
  · next hhalf =>
    simp only [Overhangs, hhalf, true_and, not_and] at h
    omega
  · omega

theorem nearestEven_le (m : Int) (x : ℚ) : nearestEven (m + x) ≤ m + nearestEven x + 1 := by
  by_cases h : Overhangs m x
  · exact (nearestEven_of_overhangs h).le
  · have := nearestEven_le_of_not_overhangs h
    omega

namespace Preview

/-! ### The rectangles of roots -/

section

variable {α : Type} [Scalar α]

/-- The pixels of a root widget that has been placed and starts at an offset. -/
def rootBox (offset : Int) (p : Placement α) : Except Fault PixelBox := do
  let left ← coordinate offset
  pixelBox (left + p.left) (0 + p.top) p

/-- The canvas of a preview of widgets, and the pixels of the roots on it. -/
def rootBoxes (config : Config α) (ws : List (Widget α)) :
    Except Fault (Canvas × List PixelBox) := do
  let roots ← (layout config (0, 0) ws).result
  let c ← canvas roots
  let boxes ← (roots.zip c.offsets).mapM fun p => rootBox p.2 (placementOf p.1.label)
  return (c, boxes)

theorem rootBoxes_eq_ok {config : Config α} {ws roots : List (Widget α)} {c : Canvas}
    {boxes : List PixelBox} (hroots : (layout config (0, 0) ws).result = .ok roots)
    (hc : canvas roots = .ok c)
    (hboxes : (roots.zip c.offsets).mapM (fun p => rootBox p.2 (placementOf p.1.label))
      = .ok boxes) : rootBoxes config ws = .ok (c, boxes) := by
  simp only [rootBoxes, hroots, bind, Except.bind, hc, hboxes]
  rfl

theorem exists_box_of_paint {palette : Palette α} {offset : Int} {left : α} {w : Widget α}
    {commands : List (Drawing α)} (hleft : coordinate offset = .ok left)
    (h : (paint palette left 0 w).result = .ok commands) :
    ∃ box own, rootBox offset (placementOf w.label) = .ok box
      ∧ (paintBox palette w.label box).result = .ok own ∧ own <:+: commands := by
  obtain ⟨e, cs⟩ := w
  simp only [paint, Outcome.result_bind, Outcome.result_ofExcept] at h
  obtain ⟨box, hbox, h⟩ := exists_of_bind_eq_ok h
  obtain ⟨own, hown, h⟩ := exists_of_bind_eq_ok h
  obtain ⟨below, -, h⟩ := exists_of_bind_eq_ok h
  obtain rfl := Except.ok.inj h
  refine ⟨box, own, ?_, hown, (List.prefix_append own below).isInfix⟩
  rw [rootBox, hleft]
  exact hbox

/-- Roots that have been drawn were each painted in their rectangle. -/
theorem exists_boxes_of_paintRoots {palette : Palette α} {roots : List (Widget α)}
    {offsets : List Int} {commands : List (Drawing α)}
    (h : (paintRoots palette roots offsets).result = .ok commands) :
    ∃ boxes, (roots.zip offsets).mapM (fun p => rootBox p.2 (placementOf p.1.label)) = .ok boxes
      ∧ ∀ p ∈ roots.zip boxes, ∃ own, (paintBox palette p.1.label p.2).result = .ok own
        ∧ own <:+: commands := by
  induction roots generalizing offsets commands with
  | nil => exact ⟨[], rfl, List.forall_mem_nil _⟩
  | cons w ws ih =>
    cases offsets with
    | nil => exact ⟨[], rfl, List.forall_mem_nil _⟩
    | cons offset offsets =>
      simp only [paintRoots, Outcome.result_bind, Outcome.result_ofExcept] at h
      obtain ⟨left, hleft, h⟩ := exists_of_bind_eq_ok h
      obtain ⟨first, hfirst, h⟩ := exists_of_bind_eq_ok h
      obtain ⟨rest, hrest, h⟩ := exists_of_bind_eq_ok h
      obtain rfl := Except.ok.inj h
      obtain ⟨box, own, hbox, hown, hinfix⟩ := exists_box_of_paint hleft hfirst
      obtain ⟨boxes, hboxes, hpainted⟩ := ih hrest
      refine ⟨box :: boxes, ?_, List.forall_mem_cons.2 ⟨?_, fun p hp => ?_⟩⟩
      · rw [List.zip_cons_cons, List.mapM_cons, hbox, hboxes]
        rfl
      · exact ⟨own, hown, hinfix.trans (List.prefix_append first rest).isInfix⟩
      · obtain ⟨own, hown, hinfix⟩ := hpainted p hp
        exact ⟨own, hown, hinfix.trans (List.suffix_append first rest).isInfix⟩

/-- A preview is on a canvas, and its roots are painted in rectangles. -/
structure ArePaintedIn (palette : Palette α) (ws : List (Widget α)) (c : Canvas)
    (boxes : List PixelBox) (drawn : Canvas × List (Drawing α)) : Prop where
  /-- It is on the canvas. -/
  canvas : drawn.1 = c
  /-- The canvas comes first. -/
  first : drawn.2.head? = some (.canvas c.width c.height canvasColor)
  /-- The commands for each root alone are those for its rectangle. -/
  roots : ∃ roots, (layout palette.config (0, 0) ws).result = .ok roots
    ∧ ∀ p ∈ roots.zip boxes, ∃ own, (paintBox palette p.1.label p.2).result = .ok own
      ∧ own <:+: drawn.2

/-- The rectangles are those that a preview is drawn with. -/
theorem exists_boxes_of_draw {palette : Palette α} {ws : List (Widget α)}
    {drawn : Canvas × List (Drawing α)} (h : (draw palette ws).result = .ok drawn) :
    ∃ c boxes, rootBoxes palette.config ws = .ok (c, boxes)
      ∧ ArePaintedIn palette ws c boxes drawn := by
  simp only [draw, Painter.issue, Outcome.result_bind, Outcome.result_ofExcept] at h
  obtain ⟨roots, hroots, h⟩ := exists_of_bind_eq_ok h
  obtain ⟨c, hc, h⟩ := exists_of_bind_eq_ok h
  obtain ⟨empty, hempty, h⟩ := exists_of_bind_eq_ok h
  obtain ⟨painted, hpainted, h⟩ := exists_of_bind_eq_ok h
  obtain ⟨-, -, hempty⟩ := exists_of_bind_eq_ok hempty
  obtain rfl := Except.ok.inj hempty
  obtain rfl := Except.ok.inj h
  obtain ⟨boxes, hboxes, hown⟩ := exists_boxes_of_paintRoots hpainted
  refine ⟨c, boxes, rootBoxes_eq_ok hroots hc hboxes, rfl, rfl, roots, hroots, fun p hp => ?_⟩
  obtain ⟨own, hown, hinfix⟩ := hown p hp
  exact ⟨own, hown, hinfix.trans (List.suffix_cons _ painted).isInfix⟩

end

/-! ### Exact sizes -/

/-- The pixels of a root of an exact size that starts at an offset. -/
def exactBox (offset : Int) (p : Placement ℚ) : PixelBox :=
  ⟨offset, 0, nearestEven (offset + p.width), nearestEven p.height⟩

/-- Root widgets of exact sizes from some column on. -/
def exactBoxes (start : Int) : List (Placement ℚ) → List PixelBox
  | [] => []
  | p :: ps => exactBox start p :: exactBoxes (start + nearestEven p.width + gap) ps

/-- Where root widgets of exact sizes start from some column on. -/
def exactOffsets (start : Int) (ps : List (Placement ℚ)) : List Int :=
  (rootOffsets start (ps.map fun p => nearestEven p.width)).1

/-- The column after root widgets of exact sizes. -/
def exactEnd (start : Int) (ps : List (Placement ℚ)) : Int :=
  (rootOffsets start (ps.map fun p => nearestEven p.width)).2 - gap

/-- A root widget stands at the corner and has a size. -/
structure IsRoot (p : Placement ℚ) : Prop where
  /-- It stands at the left. -/
  left : p.left = 0
  /-- It stands at the top. -/
  top : p.top = 0
  /-- Its width is above nought. -/
  width : 0 < p.width
  /-- Its height is above nought. -/
  height : 0 < p.height

theorem rootBox_eq (offset : Int) {p : Placement ℚ} (hp : IsRoot p) :
    rootBox offset p = .ok (exactBox offset p) := by
  have hbox : rootBox offset p = .ok ⟨nearestEven (offset + p.left), nearestEven (0 + p.top),
      nearestEven (offset + p.left + p.width), nearestEven (0 + p.top + p.height)⟩ := rfl
  rw [hbox, hp.left, hp.top, add_zero, add_zero, zero_add, nearestEven_intCast, exactBox]
  simpa using nearestEven_intCast 0

theorem exactOffsets_cons (start : Int) (p : Placement ℚ) (ps : List (Placement ℚ)) :
    exactOffsets start (p :: ps) = start :: exactOffsets (start + nearestEven p.width + gap) ps :=
  rfl

theorem mapM_rootBox_eq {roots : List (Widget ℚ)}
    (h : ∀ w ∈ roots, IsRoot (placementOf w.label)) (start : Int) :
    (roots.zip (exactOffsets start (roots.map fun w => placementOf w.label))).mapM
        (fun p => rootBox p.2 (placementOf p.1.label))
      = .ok (exactBoxes start (roots.map fun w => placementOf w.label)) := by
  induction roots generalizing start with
  | nil => rfl
  | cons w ws ih =>
    obtain ⟨hw, hws⟩ := List.forall_mem_cons.1 h
    rw [List.map_cons, exactOffsets_cons, List.zip_cons_cons, List.mapM_cons, rootBox_eq start hw,
      ih hws]
    rfl

theorem exactEnd_cons (start : Int) (p : Placement ℚ) (ps : List (Placement ℚ)) :
    exactEnd start (p :: ps) = exactEnd (start + nearestEven p.width + gap) ps := rfl

theorem exactEnd_nil (start : Int) : exactEnd start [] = start - gap := rfl

theorem le_exactEnd (start : Int) {ps : List (Placement ℚ)} (hps : ∀ p ∈ ps, IsRoot p) :
    start - gap ≤ exactEnd start ps := by
  induction ps generalizing start with
  | nil => exact (exactEnd_nil start).ge
  | cons p ps ih =>
    obtain ⟨hp, hps⟩ := List.forall_mem_cons.1 hps
    have hwidth := zero_le_nearestEven hp.width.le
    have hgap : gap = 10 := rfl
    have hend := ih (start + nearestEven p.width + gap) hps
    rw [exactEnd_cons]
    omega

/-- Every root starts before the end. -/
theorem left_le_exactEnd {start : Int} {ps : List (Placement ℚ)} (hps : ∀ p ∈ ps, IsRoot p) :
    ∀ b ∈ exactBoxes start ps, b.left ≤ exactEnd start ps := by
  induction ps generalizing start with
  | nil => exact List.forall_mem_nil _
  | cons p ps ih =>
    obtain ⟨hp, hps⟩ := List.forall_mem_cons.1 hps
    have hwidth := zero_le_nearestEven hp.width.le
    have hend := le_exactEnd (start + nearestEven p.width + gap) hps
    have hleft : (exactBox start p).left = start := rfl
    rw [exactEnd_cons]
    exact List.forall_mem_cons.2 ⟨by omega, ih hps⟩

theorem exists_of_mem_exactBoxes {start : Int} {ps : List (Placement ℚ)}
    (hps : ∀ p ∈ ps, IsRoot p) :
    ∀ b ∈ exactBoxes start ps, ∃ p ∈ ps, ∃ offset, start ≤ offset ∧ b = exactBox offset p := by
  induction ps generalizing start with
  | nil => exact List.forall_mem_nil _
  | cons p ps ih =>
    obtain ⟨hp, hps⟩ := List.forall_mem_cons.1 hps
    have hwidth := zero_le_nearestEven hp.width.le
    have hgap : gap = 10 := rfl
    refine List.forall_mem_cons.2 ⟨⟨p, List.mem_cons_self, start, le_rfl, rfl⟩, fun b hb => ?_⟩
    obtain ⟨q, hq, offset, hoffset, rfl⟩ := ih hps b hb
    exact ⟨q, List.mem_cons_of_mem p hq, offset, by omega, rfl⟩

/-- The gap is wider than the one column that a root may reach further. -/
theorem pairwise_exactBoxes {start : Int} {ps : List (Placement ℚ)} (hps : ∀ p ∈ ps, IsRoot p) :
    (exactBoxes start ps).Pairwise fun a b => a.right < b.left := by
  induction ps generalizing start with
  | nil => exact .nil
  | cons p ps ih =>
    obtain ⟨-, hps⟩ := List.forall_mem_cons.1 hps
    refine .cons (fun b hb => ?_) (ih hps)
    obtain ⟨q, -, offset, hoffset, rfl⟩ := exists_of_mem_exactBoxes hps b hb
    have hleft : start + nearestEven p.width + gap ≤ (exactBox offset q).left := hoffset
    have hright : (exactBox start p).right ≤ start + nearestEven p.width + 1 :=
      nearestEven_le start p.width
    have hgap : gap = 10 := rfl
    omega

theorem length_exactBoxes (start : Int) (ps : List (Placement ℚ)) :
    (exactBoxes start ps).length = ps.length := by
  induction ps generalizing start with
  | nil => rfl
  | cons p ps ih => rw [exactBoxes, List.length_cons, List.length_cons, ih]

/-- No root reaches beyond the end, except that the last one may do so by one column. -/
theorem right_of_getElem?_exactBoxes {start : Int} {ps : List (Placement ℚ)}
    (hps : ∀ p ∈ ps, IsRoot p) {k : Nat} {p : Placement ℚ} {b : PixelBox} (hp : ps[k]? = some p)
    (hb : (exactBoxes start ps)[k]? = some b) :
    if k + 1 = ps.length ∧ Overhangs b.left p.width
    then b.right = exactEnd start ps + 1 else b.right ≤ exactEnd start ps := by
  induction ps generalizing start k with
  | nil => cases hp
  | cons q qs ih =>
    obtain ⟨-, hqs⟩ := List.forall_mem_cons.1 hps
    rw [exactEnd_cons]
    cases k with
    | succ k =>
      have hrest := ih hqs hp hb
      simpa only [List.length_cons, Nat.succ_inj] using hrest
    | zero =>
      obtain rfl := Option.some.inj hp
      obtain rfl := Option.some.inj hb
      have hend := le_exactEnd (start + nearestEven q.width + gap) hqs
      have hgap : gap = 10 := rfl
      cases qs with
      | cons r rs =>
        -- The next root starts behind this one, and ends where it starts or further on.
        obtain ⟨hr, hrs⟩ := List.forall_mem_cons.1 hqs
        have hwidth := zero_le_nearestEven hr.width.le
        have hright : (exactBox start q).right ≤ start + nearestEven q.width + 1 :=
          nearestEven_le start q.width
        have hend := le_exactEnd (start + nearestEven q.width + gap + nearestEven r.width + gap) hrs
        rw [if_neg fun h => by simp at h, exactEnd_cons]
        omega
      | nil =>
        have hend : exactEnd (start + nearestEven q.width + gap) []
            = start + nearestEven q.width := by
          rw [exactEnd_nil]
          omega
        rw [hend]
        split
        · next h => exact nearestEven_of_overhangs h.2
        · next h => exact nearestEven_le_of_not_overhangs fun hover => h ⟨rfl, hover⟩

/-! ### Previews of exact sizes -/

theorem le_greatest {ns : List Int} : ∀ n ∈ ns, n ≤ greatest ns := by
  induction ns with
  | nil => exact List.forall_mem_nil _
  | cons m ns ih =>
    cases ns with
    | nil => simp [greatest]
    | cons k ns =>
      refine List.forall_mem_cons.2 ⟨le_max_left _ _, fun n hn => ?_⟩
      exact (ih n hn).trans (le_max_right _ _)

/-- The canvas for root widgets of exact sizes. -/
def exactCanvas (ps : List (Placement ℚ)) : Canvas :=
  ⟨max 1 (exactEnd 0 ps), greatest (ps.map fun p => nearestEven p.height), exactOffsets 0 ps⟩

theorem canvas_eq (roots : List (Widget ℚ)) :
    canvas roots = .ok (exactCanvas (roots.map fun w => placementOf w.label)) := by
  have hextents : ∀ (measure : Placement ℚ → ℚ) (ps : List (Placement ℚ)),
      rootExtents measure ps = .ok (ps.map fun p => nearestEven (measure p)) :=
    fun measure ps => mapM_eq_ok fun _ _ => rfl
  simp only [canvas, hextents]
  rfl

theorem placementOf_zipWith {ps : List (Placement ℚ)} {ws : List (Widget ℚ)}
    (h : ps.length = ws.length) :
    (List.zipWith (fun p w => (Widget.settled p w).value) ps ws).map (fun w => placementOf w.label)
      = ps := by
  have hplacements := congrArg (List.map fun p => Option.getD p ⟨0, 0, 0, 0, 0, 0, 0, 0, 0, 0⟩)
    (Widget.placements_zipWith h)
  simp only [List.map_map, Function.comp_def, Option.getD_some, List.map_id'] at hplacements
  exact hplacements

/-- Widgets are placed as roots of some sizes, and drawn in the rectangles for these. -/
theorem exists_placements (ws : List (Widget ℚ)) :
    ∃ ps, (ws.map Tree.label).mapM (Config.standard.rootPlacement (0, 0)) = .ok ps
      ∧ (∀ p ∈ ps, IsRoot p) ∧ rootBoxes .standard ws = .ok (exactCanvas ps, exactBoxes 0 ps) := by
  have hroot : ∀ e : Element ℚ, ∃ p, Config.standard.rootPlacement (0, 0) e = .ok p ∧ IsRoot p := by
    intro e
    obtain ⟨p, hp, hwidth, hheight⟩ := @Config.exists_rootPlacement ℚ _ .standard
      ⟨_, rfl, by decide⟩ ⟨_, rfl, by decide⟩ (0, 0) e
    obtain ⟨hleft, htop⟩ := Config.origin_of_rootPlacement hp
    exact ⟨p, hp, hleft, htop, hwidth, hheight⟩
  obtain ⟨ps, hps, hall⟩ := exists_mapM hroot (ws.map Tree.label)
  refine ⟨ps, hps, hall, ?_⟩
  have hlength : ps.length = ws.length := (length_of_mapM hps).trans (List.length_map _)
  have hlayout : (layout Config.standard (0, 0) ws).result
      = .ok (List.zipWith (fun p w => (Widget.settled p w).value) ps ws) := by
    rw [result_layout, hps]
    rfl
  have hroots := placementOf_zipWith hlength
  have hboxes := mapM_rootBox_eq
    (fun w hw => hall _ (hroots ▸ List.mem_map_of_mem (f := fun w => placementOf w.label) hw)) 0
  have h := rootBoxes_eq_ok hlayout (canvas_eq _) hboxes
  rwa [hroots] at h

/-- Root widgets are side by side on their canvas. Only the last one may stick out. -/
structure AreSideBySide (ws : List (Widget ℚ)) (c : Canvas) (boxes : List PixelBox) : Prop where
  /-- There is a rectangle for every widget. -/
  length : boxes.length = ws.length
  /-- Each starts on the canvas, and ends where it starts or further on. -/
  left : ∀ b ∈ boxes, 0 ≤ b.left ∧ b.left ≤ c.width ∧ b.left ≤ b.right
  /-- Each is on the canvas from top to bottom. -/
  rows : ∀ b ∈ boxes, 0 ≤ b.top ∧ b.top ≤ b.bottom ∧ b.bottom ≤ c.height
  /-- Each ends before the next one starts. -/
  apart : boxes.Pairwise fun a b => a.right < b.left
  /-- Each ends on the canvas. The last one ends a column later if its width is such. -/
  columns : ∀ k w b, ws[k]? = some w → boxes[k]? = some b →
    ∃ p, Config.standard.rootPlacement (0, 0) w.label = .ok p
      ∧ if k + 1 = ws.length ∧ Overhangs b.left p.width then b.right = c.width + 1
        else b.right ≤ c.width

theorem areSideBySide_exactBoxes {ws : List (Widget ℚ)} {ps : List (Placement ℚ)}
    (hps : (ws.map Tree.label).mapM (Config.standard.rootPlacement (0, 0)) = .ok ps)
    (hall : ∀ p ∈ ps, IsRoot p) : AreSideBySide ws (exactCanvas ps) (exactBoxes 0 ps) where
  length := (length_exactBoxes 0 ps).trans ((length_of_mapM hps).trans (List.length_map _))
  left b hb := by
    obtain ⟨p, hp, offset, hoffset, rfl⟩ := exists_of_mem_exactBoxes hall b hb
    have hend : offset ≤ exactEnd 0 ps := left_le_exactEnd hall _ hb
    exact ⟨hoffset, hend.trans (le_max_right _ _),
      le_nearestEven_intCast_add offset (hall p hp).width.le⟩
  rows b hb := by
    obtain ⟨p, hp, offset, -, rfl⟩ := exists_of_mem_exactBoxes hall b hb
    exact ⟨le_rfl, zero_le_nearestEven (hall p hp).height.le,
      le_greatest _ (List.mem_map_of_mem (f := fun p => nearestEven p.height) hp)⟩
  apart := pairwise_exactBoxes hall
  columns k w b hw hb := by
    have hlabel : (ws.map Tree.label)[k]? = some w.label := by rw [List.getElem?_map, hw]; rfl
    obtain ⟨p, hp, hplace⟩ := exists_getElem?_of_mapM hps hlabel
    have hlength : ps.length = ws.length := (length_of_mapM hps).trans (List.length_map _)
    have hright := right_of_getElem?_exactBoxes hall hp hb
    have hwidth : (exactCanvas ps).width = max 1 (exactEnd 0 ps) := rfl
    refine ⟨p, hplace, ?_⟩
    rw [hlength] at hright
    split
    · next h =>
      -- An odd column is not the first one, so that the canvas goes to the end of the roots.
      rw [if_pos h] at hright
      have hmem : b ∈ exactBoxes 0 ps := List.mem_of_getElem? hb
      obtain ⟨q, -, offset, hoffset, hbox⟩ := exists_of_mem_exactBoxes hall b hmem
      have hend := left_le_exactEnd hall b hmem
      have hleft : b.left = offset := by rw [hbox]; rfl
      have hodd := h.2.2.2
      rw [hright, hwidth]
      omega
    · next h =>
      rw [if_neg h] at hright
      exact hright.trans (le_max_right _ _)

/-- Whatever a preview of widgets in the standard configuration is drawn with: once it is drawn, it is
on a canvas, and its roots are painted in rectangles. -/
def AreDrawnIn (ws : List (Widget ℚ)) (c : Canvas) (boxes : List PixelBox) : Prop :=
  ∀ palette : Palette ℚ, palette.config = .standard → ∀ drawn, (draw palette ws).result = .ok drawn →
    ArePaintedIn palette ws c boxes drawn

/-- **Roots on their canvas**: for every forest, with exact numbers, a preview has a canvas on which
the roots are side by side, and all of them are on it but for one column of the last one. This is
the canvas that every preview is drawn on, and there each root is painted. -/
theorem exists_rootBoxes (ws : List (Widget ℚ)) :
    ∃ c boxes, rootBoxes .standard ws = .ok (c, boxes) ∧ AreSideBySide ws c boxes
      ∧ AreDrawnIn ws c boxes := by
  obtain ⟨ps, hps, hall, hboxes⟩ := exists_placements ws
  refine ⟨_, _, hboxes, areSideBySide_exactBoxes hps hall, fun palette hconfig drawn hdrawn => ?_⟩
  obtain ⟨c, boxes, hboxes', hpainted⟩ := exists_boxes_of_draw hdrawn
  rw [hconfig, hboxes] at hboxes'
  obtain ⟨rfl, rfl⟩ := Prod.mk.inj (Except.ok.inj hboxes')
  exact hpainted

/-- Two panels; the second one is half a column wider than it is drawn by itself. -/
def twoPanels : String :=
  "Panel\n  id: a\n  size: 11 10\n  background-color: red\n"
    ++ "Panel\n  id: b\n  size: 20.5 10\n  background-color: red\n"

/-- The second one is not on the canvas of the two. -/
theorem rootBoxes_twoPanels :
    rootBoxes Config.standard (Document.parsed twoPanels : Document ℚ).widgets
      = .ok (⟨41, 10, [0, 21]⟩, [⟨0, 0, 11, 10⟩, ⟨21, 0, 42, 10⟩]) := by
  decide +kernel

end Preview

end Otui
