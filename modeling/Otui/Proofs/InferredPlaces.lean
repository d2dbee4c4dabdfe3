import Mathlib.Algebra.Order.Group.MinMax
import Mathlib.Data.List.Nodup
import Mathlib.Tactic.Ring
import Otui.Anchor.Inference
import Otui.Layout
import Otui.Proofs.ExactScalar
import Otui.Proofs.Recording
import Otui.Proofs.WrittenNumbers

/-!
# Inferred anchors put a widget back

A widget that stands inside the content box of its parent gets one anchor on each axis and at most
one margin. When a child of the same size has just these, it hangs on the parent twice
(`steps_family`), so that its place is known in closed form (`start_placed`). In exact coordinates it
comes to stand at most half a pixel from where the anchors were inferred from, unless it is centred
with a margin: then it comes to stand on the other side of the middle (`placed_fit`).
-/

namespace Otui

open Number

/-! ### The names of edges -/

namespace Edge

theorem name_injective {d e : Edge} (h : d.name = e.name) : d = e := by
  obtain ⟨a, s⟩ := d
  obtain ⟨b, t⟩ := e
  revert h
  cases a <;> cases s <;> cases b <;> cases t <;> decide

/-- A name is read as its edge, and stands neither for the middle of both axes nor for all sides. -/
theorem read?_name (e : Edge) :
    read? e.name = some e ∧ Box.isCentre e.name = false ∧ Box.isFill e.name = false := by
  obtain ⟨a, s⟩ := e
  cases a <;> cases s <;> decide +kernel

/-- An edge of the parent is read as the hook and the edge. -/
theorem cut_parent (e : Edge) :
    Text.trim ("parent." ++ e.name) ≠ "none"
      ∧ Text.cut '.' (Text.trim ("parent." ++ e.name)) = ["parent", e.name] := by
  obtain ⟨a, s⟩ := e
  cases a <;> cases s <;> decide

/-- The key of an anchor is that of its edge, and that of a margin is no anchor. -/
theorem anchor_name (e : Edge) :
    Key.isAnchor ("anchors." ++ e.name) = true ∧ Key.anchorEdge ("anchors." ++ e.name) = e.name
      ∧ Key.isAnchor (Key.marginFront ++ e.name) = false := by
  obtain ⟨a, s⟩ := e
  cases a <;> cases s <;> decide

end Edge

/-! ### A child with inferred anchors -/

namespace Fit

/-- The fit on an axis. -/
def axis (f : Fit) : Axis → AxisFit
  | .horizontal => f.horizontal
  | .vertical => f.vertical

/-- The anchors and margins as properties. -/
def entries (f : Fit) : List (String × String) :=
  f.directives ++ f.margins.map fun m => (Key.marginFront ++ m.1.name, toString m.2)

variable {α : Type} [Scalar α]

/-- A widget whose only properties are the anchors and margins. -/
def element (f : Fit) : Element α :=
  { type := "", properties := { values := .ofList f.entries } }

/-- The family of one child of the size of a placement, whose only properties are the anchors and
margins, in a parent of the size and padding of the placement. -/
def family (f : Fit) (p : Placement α) : Family α 1 where
  box _ := { Box.ofElement f.element with width := p.width, height := p.height }
  content :=
    (Family.ofChildren ⟨0, 0, p.parentWidth, p.parentHeight, 0, 0, 0, 0, 0, 0⟩
      ⟨p.paddingLeft, p.paddingTop, p.paddingRight, p.paddingBottom⟩ []).content

/-- Where the child is placed. -/
def placed (f : Fit) (p : Placement α) : Rect α := (f.family p).rect (f.family p).settle 0

end Fit

/-! ### Its properties -/

/-- The margin that a fit has at a spot. -/
def AxisFit.marginAt (f : AxisFit) (s : Spot) : Int :=
  match f.margin with
  | some (side, n) => if side = s then n else 0
  | none => 0

namespace Fit

variable (f : Fit)

theorem mem_margins {e : Edge} {n : Int} :
    (e, n) ∈ f.margins ↔ (f.axis e.axis).margin = some (e.spot, n) := by
  obtain ⟨a, s⟩ := e
  simp only [margins, axisMargin, List.mem_append, Option.mem_toList, Option.map_eq_some_iff]
  cases a <;> simp [axis, Prod.ext_iff, and_comm]

theorem nodup_entries : (f.entries.map Prod.fst).Nodup := by
  have hedges : f.edges.Nodup := by simp [edges]
  have hmargins : (f.margins.map Prod.fst).Nodup := by
    cases hh : f.horizontal.margin <;> cases hv : f.vertical.margin <;>
      simp [margins, axisMargin, hh, hv]
  have hanchor : Function.Injective fun e : Edge => "anchors." ++ e.name :=
    fun d e h => Edge.name_injective (String.append_right_inj _ |>.1 h)
  have hmargin : Function.Injective fun e : Edge => Key.marginFront ++ e.name :=
    fun d e h => Edge.name_injective (String.append_right_inj _ |>.1 h)
  have hkeys : f.entries.map Prod.fst = f.edges.map (fun e => "anchors." ++ e.name)
      ++ (f.margins.map Prod.fst).map fun e => Key.marginFront ++ e.name := by
    simp [entries, directives, List.map_map, Function.comp_def]
  rw [hkeys, List.nodup_append]
  refine ⟨List.Nodup.map hanchor hedges, List.Nodup.map hmargin hmargins, ?_⟩
  rintro _ ha _ hb rfl
  obtain ⟨d, -, rfl⟩ := List.mem_map.1 ha
  obtain ⟨e, -, he⟩ := List.mem_map.1 hb
  have hno := (Edge.anchor_name e).2.2
  rw [he, (Edge.anchor_name d).1] at hno
  cases hno

theorem entries_values : (Ledger.ofList f.entries).entries = f.entries :=
  Ledger.entries_ofList f.nodup_entries

/-- The margin that is stored at an edge is that of the fit on its axis. -/
theorem get?_margin (e : Edge) :
    (Ledger.ofList f.entries).get? (Key.marginFront ++ e.name)
      = (f.axis e.axis).margin.bind fun m =>
        if m.1 = e.spot then some (toString m.2) else none := by
  by_cases hmem : ∃ n, (e, n) ∈ f.margins
  · obtain ⟨n, hn⟩ := hmem
    have hentry : (Key.marginFront ++ e.name, toString n) ∈ (Ledger.ofList f.entries).entries := by
      rw [entries_values]
      exact List.mem_append_right _ (List.mem_map.2 ⟨(e, n), hn, rfl⟩)
    rw [Ledger.get?_of_mem hentry, f.mem_margins.1 hn, Option.bind_some, if_pos rfl]
  · rw [Ledger.get?_of_not_mem]
    · cases hm : (f.axis e.axis).margin with
      | none => rfl
      | some m =>
        rw [Option.bind_some, if_neg]
        intro hs
        exact hmem ⟨m.2, f.mem_margins.2 (by rw [hm, ← hs])⟩
    · rw [Ledger.keys_eq, entries_values, entries, List.map_append, List.mem_append]
      rintro (h | h)
      · simp only [directives, List.map_map, List.mem_map, Function.comp_apply] at h
        obtain ⟨d, -, hd⟩ := h
        have hno := (Edge.anchor_name e).2.2
        rw [← hd, (Edge.anchor_name d).1] at hno
        cases hno
      · simp only [List.map_map, List.mem_map, Function.comp_apply] at h
        obtain ⟨⟨d, n⟩, hd, heq⟩ := h
        have hde : d = e := Edge.name_injective (String.append_right_inj _ |>.1 heq)
        exact hmem ⟨n, hde ▸ hd⟩

theorem anchorsOf_entries :
    Box.anchorsOf (Ledger.ofList f.entries) = f.edges.map fun e => (e.name, "parent." ++ e.name) := by
  have hmargins : ∀ ms : List (Edge × Int),
      (ms.map fun m => (Key.marginFront ++ m.1.name, toString m.2)).filterMap (fun a =>
        if Key.isAnchor a.1 then some (Key.anchorEdge a.1, a.2) else none) = [] := by
    intro ms
    simp [(Edge.anchor_name _).2.2]
  rw [Box.anchorsOf, entries_values, entries, List.filterMap_append, hmargins, List.append_nil,
    directives, List.filterMap_map]
  rw [← List.filterMap_eq_map]
  refine List.filterMap_congr fun e _ => ?_
  simp [(Edge.anchor_name e).1, (Edge.anchor_name e).2.1]

/-! ### Its steps -/

variable {α : Type}

theorem edgeStep?_parent {n : Nat} (g : Family α n) (i : Fin n) (e : Edge) :
    g.edgeStep? i e ("parent." ++ e.name) = some (.hang (.edge e e) .parent) := by
  obtain ⟨hne, hcut⟩ := e.cut_parent
  have hlower : Text.lower "parent" = "parent" := by decide
  simp [Family.edgeStep?, hne, hcut, (Edge.read?_name e).1, Family.holdOn, Family.target?, hlower]

variable [Scalar α] (p : Placement α)

/-- The child hangs on the parent, once on each axis. -/
theorem steps_family :
    (f.family p).steps 0 = f.edges.map fun e => .hang (.edge e e) .parent := by
  have hanchors : ((f.family p).box 0).anchors
      = f.edges.map fun e => (e.name, "parent." ++ e.name) := f.anchorsOf_entries
  have hnone : ∀ q : String → Bool, (∀ e : Edge, q e.name = false) →
      ((f.family p).box 0).lastAnchor? q = none := by
    intro q hq
    simp [Box.lastAnchor?, hanchors, hq]
  have hedge : ((f.family p).box 0).edgeAnchors
      = f.edges.map fun e => (e.name, "parent." ++ e.name) := by
    rw [Box.edgeAnchors, hanchors, List.filter_eq_self]
    intro a ha
    obtain ⟨e, -, rfl⟩ := List.mem_map.1 ha
    simp [(Edge.read?_name e).2.1, (Edge.read?_name e).2.2]
  have hedges : ((f.family p).box 0).edges = f.edges.map fun e => (e, "parent." ++ e.name) := by
    rw [Box.edges, hedge, List.filterMap_map, ← List.filterMap_eq_map]
    refine List.filterMap_congr fun e _ => ?_
    simp [(Edge.read?_name e).1]
  have hstrange : ((f.family p).box 0).strangeEdges = [] := by
    rw [Box.strangeEdges, hedge]
    simp [(Edge.read?_name _).1]
  rw [Family.steps, hstrange, Family.anchorSteps]
  simp only [hnone _ fun e => (Edge.read?_name e).2.1, hnone _ fun e => (Edge.read?_name e).2.2,
    hedges, List.filterMap_map, Function.comp_def, edgeStep?_parent, List.map_nil, List.nil_append,
    List.filterMap_eq_map']

/-- On each axis the child starts where its anchor pulls it, though not before the corner. -/
theorem start_placed (a : Axis) :
    (f.placed p).start a = Scalar.atLeastZero
      (Hold.start ((f.family p).box 0) ⟨a, (f.axis a).spot⟩
        ((f.family p).content.point ⟨a, (f.axis a).spot⟩)) := by
  have hone : List.finRange 1 = [0] := by decide
  have hplaced : f.placed p = Family.clamp (Hold.pull ((f.family p).box 0)
      ⟨.vertical, f.vertical.spot⟩ ⟨.vertical, f.vertical.spot⟩ (f.family p).content
      (Hold.pull ((f.family p).box 0) ⟨.horizontal, f.horizontal.spot⟩
        ⟨.horizontal, f.horizontal.spot⟩ (f.family p).content ((f.family p).box 0).frame)) := by
    rw [placed, Family.settle, hone, List.foldl_cons, List.foldl_nil, Family.place]
    simp [Board.has, Board.put, Family.rect, f.steps_family, edges, Family.follow, Hold.apply]
  rw [hplaced]
  cases a <;> rfl

end Fit

/-! ### Margins and placements by axis -/

theorem near_margins {α : Type} [Scalar α] (values : Ledger String) (a : Axis) :
    (margins values : Sides α).near a
      = Scalar.readOrZero ((values.get? (Key.marginFront ++ Edge.name ⟨a, .near⟩)).getD "") := by
  cases a <;> simp only [Sides.near, margins, Edge.name]

theorem far_margins {α : Type} [Scalar α] (values : Ledger String) (a : Axis) :
    (margins values : Sides α).far a
      = Scalar.readOrZero ((values.get? (Key.marginFront ++ Edge.name ⟨a, .far⟩)).getD "") := by
  cases a <;> simp only [Sides.far, margins, Edge.name]

namespace Placement

variable {α : Type} [Scalar α] (p : Placement α)

/-- Where the widget stands. -/
def rect : Rect α := ⟨p.left, p.top, p.width, p.height⟩

/-- The content box of the parent. -/
def content : Rect α := ⟨p.paddingLeft, p.paddingTop, p.contentWidth, p.contentHeight⟩

/-- How far the middle of the widget is from that of the content box. -/
def offset (a : Axis) : α := p.rect.point ⟨a, .middle⟩ - p.content.point ⟨a, .middle⟩

/-- The widget has an extent and lies inside the content box of its parent. -/
structure IsInside (p : Placement ℚ) : Prop where
  /-- The widget has a width. -/
  width : 0 < p.width
  /-- The widget has a height. -/
  height : 0 < p.height
  /-- The widget does not start left of the content box. -/
  left : p.paddingLeft ≤ p.left
  /-- The widget does not end right of the content box. -/
  right : p.left + p.width ≤ p.parentWidth - p.paddingRight
  /-- The widget does not start above the content box. -/
  top : p.paddingTop ≤ p.top
  /-- The widget does not end below the content box. -/
  bottom : p.top + p.height ≤ p.parentHeight - p.paddingBottom

end Placement

/-! ### Exact coordinates -/

theorem Scalar.readOrZero_toString (n : Nat) : (readOrZero (toString (n : Int)) : ℚ) = n := by
  have htext : toString (n : Int) = toString n := rfl
  rw [readOrZero, read?, htext, numeral?_toString]
  change Numeral.toRat (.decimal false n 0) = n
  simp [Numeral.toRat, Rat.mkRat_one]

theorem Scalar.readOrZero_empty : (readOrZero "" : ℚ) = 0 := by
  have hnone : numeral? "" = none := by decide +kernel
  rw [readOrZero, read?, hnone]
  rfl

namespace AxisFit

/-- A fit whose margin is a natural number. -/
def IsNatural (f : AxisFit) : Prop := ∀ m ∈ f.margin, 0 ≤ m.2

/-- Where a widget starts inside the content that it is anchored to. -/
def startIn (f : AxisFit) (size content : ℚ) : ℚ :=
  match f.spot with
  | .near => f.marginAt .near
  | .middle => content / 2 - size / 2 + f.marginAt .near - f.marginAt .far
  | .far => content - size - f.marginAt .far

end AxisFit

namespace Fit

variable (f : Fit)

theorem readOrZero_margin (e : Edge) (h : (f.axis e.axis).IsNatural) :
    (Scalar.readOrZero (((Ledger.ofList f.entries).get? (Key.marginFront ++ e.name)).getD "") : ℚ)
      = (f.axis e.axis).marginAt e.spot := by
  rw [f.get?_margin, AxisFit.marginAt]
  cases hm : (f.axis e.axis).margin with
  | none => exact Scalar.readOrZero_empty
  | some m =>
    obtain ⟨side, n⟩ := m
    by_cases hs : side = e.spot
    · obtain ⟨k, rfl⟩ := Int.eq_ofNat_of_zero_le (h _ hm)
      simp only [Option.bind_some, if_pos hs, Option.getD_some]
      exact Scalar.readOrZero_toString k
    · simp only [Option.bind_some, if_neg hs]
      exact Scalar.readOrZero_empty

/-- The child starts inside the content box where the fit says. -/
theorem start_placed_rat (p : Placement ℚ) (a : Axis) (h : (f.axis a).IsNatural) :
    (f.placed p).start a = max 0 (p.content.start a
      + (f.axis a).startIn (p.rect.extent a) (p.content.extent a)) := by
  have hmargins : ((f.family p).box 0).margins
      = Otui.margins (Ledger.ofList f.entries) := rfl
  have hnear : ((f.family p).box 0).margins.near a = (f.axis a).marginAt .near := by
    rw [hmargins, near_margins]
    exact f.readOrZero_margin ⟨a, .near⟩ h
  have hfar : ((f.family p).box 0).margins.far a = (f.axis a).marginAt .far := by
    rw [hmargins, far_margins]
    exact f.readOrZero_margin ⟨a, .far⟩ h
  have hextent : ((f.family p).box 0).frame.extent a = p.rect.extent a := by cases a <;> rfl
  have hcontent : (f.family p).content = p.content := rfl
  rw [start_placed, Scalar.atLeastZero_rat, AxisFit.startIn, Hold.start, hnear, hfar, hextent,
    hcontent, Rect.point]
  congr 1
  cases (f.axis a).spot with
  | near => 
    change p.content.start a + 0 * p.content.extent a + _ = _
    ring
  | middle => 
    change p.content.start a + 1 / 2 * p.content.extent a - 1 / 2 * p.rect.extent a + _ - _ = _
    ring
  | far => 
    change p.content.start a + 1 * p.content.extent a - p.rect.extent a - _ = _
    ring

/-- What is true inside the content is true after the child is kept from starting before the
corner. -/
theorem start_placed_close {f : Fit} {p : Placement ℚ} {a : Axis} (h : (f.axis a).IsNatural)
    {x : ℚ} (hx : |(f.axis a).startIn (p.rect.extent a) (p.content.extent a)
      - (x - p.content.start a)| ≤ 1 / 2) : |(f.placed p).start a - max 0 x| ≤ 1 / 2 := by
  rw [f.start_placed_rat p a h, max_comm 0, max_comm 0]
  calc |max (p.content.start a
          + (f.axis a).startIn (p.rect.extent a) (p.content.extent a)) 0 - max x 0|
      ≤ |p.content.start a + (f.axis a).startIn (p.rect.extent a) (p.content.extent a) - x| :=
        abs_max_sub_max_le_abs _ _ _
    _ = |(f.axis a).startIn (p.rect.extent a) (p.content.extent a)
          - (x - p.content.start a)| := by
        congr 1
        ring
    _ ≤ 1 / 2 := hx

end Fit

/-! ### One axis -/

section

variable {t start size content offset : ℚ}

/-- A margin of nought may be left out. -/
theorem marginAt_marginOf (spot side : Spot) (n : Nat) :
    AxisFit.marginAt ⟨spot, marginOf side n⟩ side = n := by
  rw [AxisFit.marginAt, marginOf]
  by_cases hn : ((n : Int) == 0) = true
  · rw [if_pos hn, beq_iff_eq.1 hn]
  · rw [if_neg hn]
    exact if_pos rfl

theorem isNatural_marginOf (spot side : Spot) (n : Nat) :
    AxisFit.IsNatural ⟨spot, marginOf side n⟩ := by
  intro m hm
  simp only [marginOf, Option.mem_def, Option.ite_none_left_eq_some, Option.some.injEq] at hm
  rw [← hm.2]
  exact Int.natCast_nonneg n

/-- An anchor at an edge puts a widget at most half a pixel from its distance. -/
theorem edgeFit_rat (side : Spot) {distance : ℚ} (h : 0 ≤ distance) :
    ∃ n : Nat, edgeFit side distance = .ok ⟨side, marginOf side n⟩
      ∧ |(n : ℚ) - distance| ≤ 1 / 2 := by
  obtain ⟨n, hn, herror⟩ := Scalar.roundAway_rat distance h
  exact ⟨n, by rw [edgeFit, hn]; rfl, herror⟩

theorem axisFit_eq (t start size content : ℚ) :
    axisFit t start size content
      = if Scalar.abs (start + 1 / 2 * size - 1 / 2 * content) < t then
          centredFit (start + 1 / 2 * size - 1 / 2 * content)
        else if Scalar.positivePart start ≤ Scalar.positivePart (content - start - size) then
          edgeFit .near (Scalar.positivePart start)
        else edgeFit .far (Scalar.positivePart (content - start - size)) := by
  unfold axisFit
  rfl

theorem centredFit_eq (offset : ℚ) :
    centredFit offset
      = if 1 / 2 < Scalar.abs offset then
          (Scalar.roundAway (Scalar.abs offset)).bind fun n =>
            .ok ⟨.middle, some (if 0 < offset then .far else .near, n)⟩
        else .ok ⟨.middle, none⟩ := by
  unfold centredFit
  rfl

/-- A widget that is centred without a margin is at most half a pixel off, and one that is centred
with a margin comes to stand on the other side of the middle. -/
theorem centredFit_rat (h : start + size / 2 - content / 2 = offset) :
    ∃ f, centredFit offset = .ok f ∧ f.IsNatural
      ∧ (|offset| ≤ 1 / 2 → |f.startIn size content - start| ≤ 1 / 2)
      ∧ (1 / 2 < |offset| → |f.startIn size content - (start - 2 * offset)| ≤ 1 / 2) := by
  rw [centredFit_eq, Scalar.abs_rat]
  by_cases hhalf : 1 / 2 < |offset|
  · obtain ⟨n, hn, herror⟩ := Scalar.roundAway_rat |offset| (abs_nonneg offset)
    have hnatural : ∀ side : Spot, AxisFit.IsNatural ⟨.middle, some (side, (n : Int))⟩ := by
      rintro side m hm
      cases hm
      exact Int.natCast_nonneg n
    rw [if_pos hhalf, hn]
    by_cases hpos : 0 < offset
    · have hstart : AxisFit.startIn ⟨.middle, some (.far, (n : Int))⟩ size content
          - (start - 2 * offset) = -((n : ℚ) - |offset|) := by
        rw [abs_of_pos hpos]
        simp only [AxisFit.startIn, AxisFit.marginAt, reduceCtorEq, if_true, if_false, Int.cast_zero,
          Int.cast_natCast]
        linarith
      refine ⟨⟨.middle, some (.far, n)⟩, by rw [if_pos hpos]; rfl, hnatural _,
        fun hle => absurd hhalf (not_lt.2 hle), fun _ => ?_⟩
      rwa [hstart, abs_neg]
    · have hstart : AxisFit.startIn ⟨.middle, some (.near, (n : Int))⟩ size content
          - (start - 2 * offset) = (n : ℚ) - |offset| := by
        rw [abs_of_nonpos (not_lt.1 hpos)]
        simp only [AxisFit.startIn, AxisFit.marginAt, reduceCtorEq, if_true, if_false, Int.cast_zero,
          Int.cast_natCast]
        linarith
      refine ⟨⟨.middle, some (.near, n)⟩, by rw [if_neg hpos]; rfl, hnatural _,
        fun hle => absurd hhalf (not_lt.2 hle), fun _ => ?_⟩
      rwa [hstart]
  · have hstart : AxisFit.startIn ⟨.middle, none⟩ size content - start = -offset := by
      simp only [AxisFit.startIn, AxisFit.marginAt, Int.cast_zero]
      linarith
    rw [if_neg hhalf]
    refine ⟨⟨.middle, none⟩, rfl, ?_, fun hle => ?_, fun hlt => absurd hlt hhalf⟩
    · rintro m hm
      cases hm
    · rwa [hstart, abs_neg]

/-- Inside the content an anchor puts a widget at most half a pixel from where it starts, unless it
is centred with a margin. -/
theorem axisFit_rat (t : ℚ) (hnear : 0 ≤ start) (hfar : start + size ≤ content)
    (h : start + size / 2 - content / 2 = offset) :
    ∃ f, axisFit t start size content = .ok f ∧ f.IsNatural
      ∧ ((1 / 2 < |offset| → t ≤ |offset|) → |f.startIn size content - start| ≤ 1 / 2)
      ∧ (1 / 2 < |offset| → |offset| < t →
        |f.startIn size content - (start - 2 * offset)| ≤ 1 / 2) := by
  have hoffset : start + 1 / 2 * size - 1 / 2 * content = offset := by linarith
  have hdistance : 0 ≤ content - start - size := by linarith
  rw [axisFit_eq, hoffset, Scalar.abs_rat, Scalar.positivePart_rat, Scalar.positivePart_rat,
    max_eq_right hnear, max_eq_right hdistance]
  by_cases ht : |offset| < t
  · obtain ⟨f, hf, hnatural, hsmall, hlarge⟩ := centredFit_rat h
    rw [if_pos ht]
    refine ⟨f, hf, hnatural, fun hle => hsmall ?_, fun hhalf _ => hlarge hhalf⟩
    by_contra hhalf
    exact absurd ht (not_lt.2 (hle (not_le.1 hhalf)))
  · rw [if_neg ht]
    split
    · obtain ⟨n, hn, herror⟩ := edgeFit_rat .near hnear
      refine ⟨_, hn, isNatural_marginOf _ _ n, fun _ => ?_, fun _ hlt => absurd hlt ht⟩
      simpa only [AxisFit.startIn, marginAt_marginOf, Int.cast_natCast] using herror
    · obtain ⟨n, hn, herror⟩ := edgeFit_rat .far hdistance
      refine ⟨_, hn, isNatural_marginOf _ _ n, fun _ => ?_, fun _ hlt => absurd hlt ht⟩
      have hstart : AxisFit.startIn ⟨.far, marginOf .far n⟩ size content - start
          = -((n : ℚ) - (content - start - size)) := by
        simp only [AxisFit.startIn, marginAt_marginOf, Int.cast_natCast]
        linarith
      rwa [hstart, abs_neg]

end

/-! ### Both axes -/

namespace Placement

variable {p : Placement ℚ}

/-- The content box is as large as the parent without its padding. -/
theorem IsInside.contentWidth_eq (h : p.IsInside) :
    p.contentWidth = p.parentWidth - p.paddingLeft - p.paddingRight := by
  have hpos : 0 ≤ p.parentWidth - p.paddingLeft - p.paddingRight := by
    linarith [h.width, h.left, h.right]
  exact (Scalar.atLeastZero_rat _).trans (max_eq_right hpos)

theorem IsInside.contentHeight_eq (h : p.IsInside) :
    p.contentHeight = p.parentHeight - p.paddingTop - p.paddingBottom := by
  have hpos : 0 ≤ p.parentHeight - p.paddingTop - p.paddingBottom := by
    linarith [h.height, h.top, h.bottom]
  exact (Scalar.atLeastZero_rat _).trans (max_eq_right hpos)

/-- On each axis the widget lies inside the content. -/
theorem IsInside.axis (h : p.IsInside) (a : Axis) :
    p.content.start a ≤ p.rect.start a
      ∧ p.rect.start a - p.content.start a + p.rect.extent a ≤ p.content.extent a := by
  cases a with
  | horizontal =>
    refine ⟨h.left, ?_⟩
    change p.left - p.paddingLeft + p.width ≤ p.contentWidth
    rw [h.contentWidth_eq]
    linarith [h.right]
  | vertical =>
    refine ⟨h.top, ?_⟩
    change p.top - p.paddingTop + p.height ≤ p.contentHeight
    rw [h.contentHeight_eq]
    linarith [h.bottom]

/-- A parent without an extent or without content gives no anchors; any other gives those of both
axes. -/
theorem fit?_eq (p : Placement ℚ) (t : ℚ) :
    p.fit? t
      = if p.parentWidth ≤ 0 ∨ p.parentHeight ≤ 0 ∨ p.contentWidth = 0 ∨ p.contentHeight = 0 then
          .ok none
        else
          (axisFit t (p.left - p.paddingLeft) p.width p.contentWidth).bind fun x =>
            (axisFit t (p.top - p.paddingTop) p.height p.contentHeight).bind fun y =>
              .ok (some ⟨x, y⟩) := by
  have hwidth : contentExtent p.parentWidth p.paddingLeft p.paddingRight = p.contentWidth :=
    (Scalar.positivePart_rat _).trans (Scalar.atLeastZero_rat _).symm
  have hheight : contentExtent p.parentHeight p.paddingTop p.paddingBottom = p.contentHeight :=
    (Scalar.positivePart_rat _).trans (Scalar.atLeastZero_rat _).symm
  unfold fit?
  simp only [Scalar.finiteOrZero_rat, hwidth, hheight, Scalar.isZero_rat, decide_eq_true_eq]
  rfl

/-- A widget that lies inside a parent with an extent has the fits of both axes. -/
theorem IsInside.fit?_eq (h : p.IsInside) (hparent : 0 < p.parentWidth ∧ 0 < p.parentHeight)
    (t : ℚ) :
    p.fit? t
      = (axisFit t (p.left - p.paddingLeft) p.width p.contentWidth).bind fun x =>
        (axisFit t (p.top - p.paddingTop) p.height p.contentHeight).bind fun y =>
          .ok (some ⟨x, y⟩) := by
  have hpos : 0 < p.contentWidth ∧ 0 < p.contentHeight := by
    rw [h.contentWidth_eq, h.contentHeight_eq]
    constructor
    · linarith [h.width, h.left, h.right]
    · linarith [h.height, h.top, h.bottom]
  rw [Placement.fit?_eq, if_neg]
  simp only [not_or, not_le]
  exact ⟨hparent.1, hparent.2, hpos.1.ne', hpos.2.ne'⟩

/-- A parent without an extent gives no anchors. -/
theorem fit?_of_no_extent (h : p.parentWidth ≤ 0 ∨ p.parentHeight ≤ 0) (t : ℚ) :
    p.fit? t = .ok none := by
  rw [fit?_eq]
  exact if_pos (h.imp_right .inl)

end Placement

/-- **Inferred anchors put a widget back**: a widget that lies inside its parent has anchors, unless
the parent has no extent, and a child of the same size that has only these comes to stand at most
half a pixel from it on each axis on which it is not centred with a margin. Where it is, the child
comes to stand on the other side of the middle. Nothing is placed before the corner. -/
theorem placed_fit (p : Placement ℚ) (t : ℚ) (h : p.IsInside) :
    (p.parentWidth ≤ 0 ∨ p.parentHeight ≤ 0) ∧ p.fit? t = .ok none
      ∨ ∃ f : Fit, p.fit? t = .ok (some f)
        ∧ ∀ a,
          ((1 / 2 < |p.offset a| → t ≤ |p.offset a|) →
            |(f.placed p).start a - max 0 (p.rect.start a)| ≤ 1 / 2)
          ∧ (1 / 2 < |p.offset a| → |p.offset a| < t →
            |(f.placed p).start a - max 0 (p.rect.start a - 2 * p.offset a)| ≤ 1 / 2) := by
  by_cases hparent : 0 < p.parentWidth ∧ 0 < p.parentHeight
  case neg =>
    rw [not_and_or, not_lt, not_lt] at hparent
    exact .inl ⟨hparent, Placement.fit?_of_no_extent hparent t⟩
  refine .inr ?_
  have haxis : ∀ a, ∃ f, axisFit t (p.rect.start a - p.content.start a) (p.rect.extent a)
      (p.content.extent a) = .ok f ∧ f.IsNatural
      ∧ ((1 / 2 < |p.offset a| → t ≤ |p.offset a|) →
        |f.startIn (p.rect.extent a) (p.content.extent a)
          - (p.rect.start a - p.content.start a)| ≤ 1 / 2)
      ∧ (1 / 2 < |p.offset a| → |p.offset a| < t →
        |f.startIn (p.rect.extent a) (p.content.extent a)
          - (p.rect.start a - p.content.start a - 2 * p.offset a)| ≤ 1 / 2) := by
    intro a
    obtain ⟨hnear, hfar⟩ := h.axis a
    refine axisFit_rat t (sub_nonneg.2 hnear) hfar ?_
    change _ = p.rect.start a + 1 / 2 * p.rect.extent a
      - (p.content.start a + 1 / 2 * p.content.extent a)
    ring
  choose fit hfit hnatural hclose hmirrored using haxis
  have hplaced : ∀ a, (Fit.mk (fit .horizontal) (fit .vertical)).axis a = fit a := by
    intro a
    cases a <;> rfl
  refine ⟨⟨fit .horizontal, fit .vertical⟩, ?_, fun a => ⟨fun hle => ?_, fun hhalf hlt => ?_⟩⟩
  · have hhorizontal : axisFit t (p.left - p.paddingLeft) p.width p.contentWidth
        = .ok (fit .horizontal) := hfit .horizontal
    have hvertical : axisFit t (p.top - p.paddingTop) p.height p.contentHeight
        = .ok (fit .vertical) := hfit .vertical
    rw [h.fit?_eq hparent, hhorizontal, hvertical]
    rfl
  · refine Fit.start_placed_close (by rw [hplaced]; exact hnatural a) ?_
    rw [hplaced]
    exact hclose a hle
  · refine Fit.start_placed_close (by rw [hplaced]; exact hnatural a) ?_
    rw [hplaced, sub_right_comm]
    exact hmirrored a hhalf hlt

/-- A widget near the left of a parent with padding, in the middle from top to bottom. -/
def nearLeft : Placement ℚ := ⟨22, 85, 50, 50, 220, 220, 10, 10, 10, 10⟩

theorem placed_fit_nearLeft :
    nearLeft.IsInside
      ∧ ((nearLeft.parentWidth ≤ 0 ∨ nearLeft.parentHeight ≤ 0) ∧ nearLeft.fit? 10 = .ok none
        ∨ ∃ f : Fit, nearLeft.fit? 10 = .ok (some f)
          ∧ ∀ a,
            ((1 / 2 < |nearLeft.offset a| → 10 ≤ |nearLeft.offset a|) →
              |(f.placed nearLeft).start a - max 0 (nearLeft.rect.start a)| ≤ 1 / 2)
            ∧ (1 / 2 < |nearLeft.offset a| → |nearLeft.offset a| < 10 →
              |(f.placed nearLeft).start a
                - max 0 (nearLeft.rect.start a - 2 * nearLeft.offset a)| ≤ 1 / 2)) := by
  have h : nearLeft.IsInside := by
    constructor <;> norm_num [nearLeft]
  exact ⟨h, placed_fit nearLeft 10 h⟩

/-- A widget a little right of the middle of its parent. -/
def rightOfMiddle : Placement ℚ := ⟨80, 75, 50, 50, 200, 200, 0, 0, 0, 0⟩

/-- A widget five pixels right of the middle is put back five pixels left of it. -/
theorem placed_rightOfMiddle :
    rightOfMiddle.IsInside
      ∧ ∃ f : Fit, rightOfMiddle.fit? 10 = .ok (some f)
        ∧ rightOfMiddle.left = 80 ∧ (f.placed rightOfMiddle).left = 70
        ∧ ¬ |(f.placed rightOfMiddle).left - rightOfMiddle.left| ≤ 1 / 2 := by
  have hinside : rightOfMiddle.IsInside := by
    constructor <;> norm_num [rightOfMiddle]
  have hplaced : (Fit.placed ⟨⟨.middle, some (.far, 5)⟩, ⟨.middle, none⟩⟩ rightOfMiddle).left = 70 := by
    decide +kernel
  refine ⟨hinside, ⟨⟨.middle, some (.far, 5)⟩, ⟨.middle, none⟩⟩, by decide +kernel, rfl, hplaced, ?_⟩
  rw [hplaced]
  norm_num [rightOfMiddle]

end Otui
