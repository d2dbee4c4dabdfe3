import Otui.Proofs.Faults
import Otui.Proofs.PerformedDrawings

/-!
# When previews are drawn

Drawing a preview ends with a fault as soon as one number has no pixel near it. A color that cannot
be read is passed over, and so is a measure that is no number; nothing else is asked of a widget.
Here is what must hold of each widget where it stands (`Standing.IsDrawable`), and that a preview
without images is drawn exactly when it holds of all (`succeeds_draw_iff`), as long as the painter is
reliable and fails at no command.
-/

namespace Otui

section Succeeds

variable {β γ : Type}

/-- A run that ends with a result. -/
def Succeeds (x : Except Fault β) : Prop := ∃ b, x = .ok b

theorem succeeds_ok (b : β) : Succeeds (.ok b) := ⟨b, rfl⟩

theorem not_succeeds_error (fault : Fault) : ¬ Succeeds (.error fault : Except Fault β) :=
  fun ⟨_, h⟩ => nomatch h

theorem succeeds_bind {x : Except Fault β} {f : β → Except Fault γ} :
    Succeeds (x >>= f) ↔ ∃ b, x = .ok b ∧ Succeeds (f b) := by
  cases x with
  | error fault => exact iff_of_false (not_succeeds_error fault) fun ⟨_, h, _⟩ => nomatch h
  | ok b => exact ⟨fun h => ⟨b, rfl, h⟩, fun ⟨_, h, hf⟩ => Except.ok.inj h ▸ hf⟩

theorem Outcome.succeeds_bind {x : Outcome β} {f : β → Outcome γ} :
    Succeeds (x >>= f).result ↔ ∃ b, x.result = .ok b ∧ Succeeds (f b).result := by
  rw [result_bind]
  exact Otui.succeeds_bind

end Succeeds

namespace Preview

/-! ### Values of properties -/

/-- A property says an infinity. -/
def SaysInfinity (text : Option String) : Prop :=
  ∃ x negative, text.bind Number.float? = some x ∧ Number.exact x = .infinite negative

theorem truncate_eq_infinite_iff (x : Float) :
    Number.truncate x = .error .infinite ↔ ∃ negative, Number.exact x = .infinite negative := by
  unfold Number.truncate Number.roundWith
  split
  · next h => simp [h]
  · next negative h => exact iff_of_true rfl ⟨negative, h⟩
  · next h => simp [h]

theorem succeeds_wholeNumber_iff (default : Int) (text : Option String) :
    Succeeds (wholeNumber default text) ↔ ¬ SaysInfinity text := by
  rw [wholeNumber, SaysInfinity]
  cases text.bind Number.float? with
  | none => exact iff_of_true (succeeds_ok _) fun ⟨_, _, h, _⟩ => nomatch h
  | some x =>
    have hinfinity : (∃ y negative, some x = some y ∧ Number.exact y = .infinite negative)
        ↔ Number.truncate x = .error .infinite := by
      simp [truncate_eq_infinite_iff]
    rw [hinfinity]
    dsimp only
    cases Number.truncate x with
    | ok n => exact iff_of_true (succeeds_ok n) fun h => nomatch h
    | error why =>
      cases why with
      | notANumber => exact iff_of_true (succeeds_ok default) fun h => nomatch h
      | infinite => exact iff_of_false (not_succeeds_error _) (not_not_intro rfl)

variable {α : Type} {painter : Painter α}

/-! ### Colors and borders -/

/-- The color that a property gives, if it gives one. -/
def givenColor (painter : Painter α) (text : Option String) : Option Color :=
  if textOrEmpty text = "" then none else (painter.color (Text.trim (textOrEmpty text))).toOption

theorem result_colorOf (h : painter.IsReliable) (text : Option String) :
    (colorOf painter text).result = .ok (givenColor painter text) := by
  unfold colorOf givenColor
  simp only [beq_iff_eq]
  split
  · rfl
  · cases hcolor : painter.color (Text.trim (textOrEmpty text)) with
    | ok color => rfl
    | error fault =>
      simp only [h.color _ fault hcolor, if_true]
      rfl

theorem succeeds_textColor (h : painter.IsReliable) (text : Option String) :
    Succeeds (textColor painter text).result := by
  rw [textColor, Outcome.result_bind, result_colorOf h]
  cases givenColor painter text with
  | some color => exact succeeds_ok _
  | none => exact ⟨_, result_colorOf h _⟩

theorem succeeds_issue (painter : Painter α) (d : Drawing α) :
    Succeeds (painter.unfailing.issue d).result := ⟨[d], rfl⟩

theorem succeeds_background (h : painter.IsReliable) (props : Ledger String) (box : PixelBox) :
    Succeeds (background painter.unfailing props box).result := by
  rw [background, Outcome.result_bind]
  change Succeeds ((colorOf painter _).result >>= _)
  rw [result_colorOf h]
  cases givenColor painter _ with
  | none => exact succeeds_ok _
  | some color => exact succeeds_issue painter _

/-- A border can be drawn: it has no color, or no infinite width. -/
def BorderFits (painter : Painter α) (props : Ledger String) : Prop :=
  (givenColor painter (props.get? "border-color")).isSome →
    ¬ SaysInfinity (props.get? "border-width")

theorem succeeds_border_iff (h : painter.IsReliable) (props : Ledger String) (box : PixelBox) :
    Succeeds (border painter.unfailing props box).result ↔ BorderFits painter props := by
  rw [border, Outcome.result_bind, BorderFits]
  change Succeeds ((colorOf painter _).result >>= _) ↔ _
  rw [result_colorOf h]
  cases givenColor painter (props.get? "border-color") with
  | none => exact iff_of_true (succeeds_ok _) Bool.false_ne_true.elim
  | some color =>
    have hwidth := succeeds_wholeNumber_iff 1 (props.get? "border-width")
    simp only [Option.isSome_some, forall_const, ← hwidth]
    change Succeeds (Outcome.ofExcept _ >>= _).result ↔ _
    rw [Outcome.succeeds_bind, Outcome.result_ofExcept]
    exact exists_congr fun width => and_iff_left (succeeds_issue painter _)

theorem result_image (palette : Palette α) (h : palette.openImage = none) (props : Ledger String)
    (box : PixelBox) : (image palette props box).result = .ok [] := by
  rw [image, h]
  rfl

variable [Scalar α]

/-! ### Painting a widget -/

theorem succeeds_coordinate_iff (n : Int) :
    Succeeds (coordinate n : Except Fault α) ↔ (Scalar.ofInt? n : Option α).isSome := by
  rw [coordinate]
  cases (Scalar.ofInt? n : Option α) with
  | none => exact iff_of_false (not_succeeds_error _) Bool.false_ne_true
  | some x => exact iff_of_true (succeeds_ok x) rfl

theorem coordinate_eq_ok_iff {n : Int} {x : α} :
    coordinate n = .ok x ↔ Scalar.ofInt? n = some x := by
  rw [coordinate]
  cases (Scalar.ofInt? n : Option α) <;> simp

theorem succeeds_mapM_iff {β γ : Type} {f : β → Except Fault γ} {xs : List β} :
    Succeeds (xs.mapM f) ↔ ∀ x ∈ xs, Succeeds (f x) := by
  induction xs with
  | nil => exact iff_of_true (succeeds_ok _) (List.forall_mem_nil _)
  | cons x xs ih =>
    rw [List.mapM_cons, List.forall_mem_cons, ← ih]
    simp only [succeeds_bind]
    constructor
    · rintro ⟨_, hy, _, hys, -⟩
      exact ⟨⟨_, hy⟩, _, hys⟩
    · rintro ⟨⟨_, hy⟩, _, hys⟩
      exact ⟨_, hy, _, hys, succeeds_ok _⟩

/-- What starts in the middle of an extent and is brought to another place has coordinates. -/
structure MiddleFits (α : Type) [Scalar α] (first last extent offset : Int) : Prop where
  /-- Half of the space around it is a coordinate. -/
  space : (Scalar.halfOf? (last - first - extent) : Option α).isSome
  /-- The side where the extent starts is one. -/
  first : (Scalar.ofInt? first : Option α).isSome
  /-- The way to the other place is one. -/
  offset : (Scalar.ofInt? offset : Option α).isSome

theorem succeeds_halfOf_iff (n : Int) :
    Succeeds (halfOf n : Except Fault α) ↔ (Scalar.halfOf? n : Option α).isSome := by
  rw [halfOf]
  cases (Scalar.halfOf? n : Option α) with
  | none => exact iff_of_false (not_succeeds_error _) Bool.false_ne_true
  | some x => exact iff_of_true (succeeds_ok x) rfl

theorem succeeds_map_iff {β γ : Type} {x : Except Fault β} {f : β → γ} :
    Succeeds (x.map f) ↔ Succeeds x := by
  cases x with
  | error fault => exact iff_of_false (not_succeeds_error _) (not_succeeds_error _)
  | ok b => exact iff_of_true (succeeds_ok _) (succeeds_ok b)

theorem succeeds_movedPoint_iff (x : α) (n : Int) :
    Succeeds (movedPoint x n) ↔ (Scalar.ofInt? n : Option α).isSome := by
  rw [movedPoint, succeeds_map_iff, succeeds_coordinate_iff]

theorem middleFits_iff {first last extent offset : Int} :
    MiddleFits α first last extent offset
      ↔ ∃ x : α, centred first last extent = .ok x ∧ Succeeds (movedPoint x offset) := by
  simp only [succeeds_movedPoint_iff, exists_and_right]
  have hcentred : Succeeds (centred first last extent : Except Fault α)
      ↔ (Scalar.halfOf? (last - first - extent) : Option α).isSome
        ∧ (Scalar.ofInt? first : Option α).isSome := by
    rw [← succeeds_halfOf_iff, ← succeeds_coordinate_iff, centred]
    simp only [succeeds_bind]
    constructor
    · rintro ⟨_, hspace, _, hfirst, -⟩
      exact ⟨⟨_, hspace⟩, _, hfirst⟩
    · rintro ⟨⟨_, hspace⟩, _, hfirst⟩
      exact ⟨_, hspace, _, hfirst, succeeds_ok _⟩
  refine Iff.trans ?_ (and_congr hcentred.symm Iff.rfl)
  exact ⟨fun h => ⟨⟨h.space, h.first⟩, h.offset⟩, fun ⟨⟨hspace, hfirst⟩, hoffset⟩ =>
    ⟨hspace, hfirst, hoffset⟩⟩

/-- A text of some width can be put from left to right: it stands at a side, or it starts in the
middle and has coordinates there. -/
def ColumnsFit (α : Type) [Scalar α] (align : String) (box : PixelBox) (width offset : Int) :
    Prop :=
  Text.endsWith "left" align = true ∨ Text.endsWith "right" align = true
    ∨ MiddleFits α box.left box.right width offset

theorem columnsFit_iff {align : String} {box : PixelBox} {width offset : Int} :
    ColumnsFit α align box width offset
      ↔ ∃ x : Coordinate α, textLeft align box width = .ok x ∧ Succeeds (moved offset x) := by
  unfold ColumnsFit textLeft
  by_cases hleft : Text.endsWith "left" align = true
  · simp only [hleft, true_or, if_true, true_iff]
    exact ⟨_, rfl, succeeds_ok _⟩
  · by_cases hright : Text.endsWith "right" align = true
    · simp only [hleft, hright, true_or, or_true, if_true, true_iff]
      exact ⟨_, rfl, succeeds_ok _⟩
    · simp only [hleft, hright, false_or, Bool.false_eq_true, if_false, middleFits_iff]
      cases (centred box.left box.right width : Except Fault α) with
      | error fault => exact iff_of_false (fun ⟨_, h, _⟩ => nomatch h) fun ⟨_, h, _⟩ => nomatch h
      | ok x =>
        constructor
        · rintro ⟨_, h, hmoved⟩
          obtain rfl := Except.ok.inj h
          exact ⟨_, rfl, succeeds_map_iff.2 hmoved⟩
        · rintro ⟨_, h, hmoved⟩
          obtain rfl := Except.ok.inj h
          exact ⟨x, rfl, succeeds_map_iff.1 hmoved⟩

/-- A text can be drawn in a rectangle: there is none, or it is not brought infinitely far from its
place, nor to a place beyond all coordinates. -/
def TextFits (painter : Painter α) (props : Ledger String) (box : PixelBox) : Prop :=
  textOrEmpty (props.get? "text") ≠ "" →
    ∃ extent right down,
      painter.extent (Translation.shown (textOrEmpty (props.get? "text"))) = .ok extent
      ∧ wholeNumber 0 (props.get? "text-offset-x") = .ok right
      ∧ wholeNumber 0 (props.get? "text-offset-y") = .ok down
      ∧ ColumnsFit α (Text.lower ((props.get? "text-align").getD "center")) box extent.width right
      ∧ MiddleFits α box.top box.bottom extent.height down

theorem succeeds_text_iff (h : painter.IsReliable) (props : Ledger String)
    (box : PixelBox) :
    Succeeds (text painter.unfailing props box).result ↔ TextFits painter props box := by
  unfold text TextFits
  dsimp only
  split
  · next hempty =>
    exact iff_of_true (succeeds_ok _) fun hne => absurd (by simpa using hempty) hne
  · next hempty =>
    have hne : textOrEmpty (props.get? "text") ≠ "" := by simpa using hempty
    obtain ⟨color, hcolor⟩ := succeeds_textColor h (props.get? "color")
    have hcolor' : (textColor painter.unfailing (props.get? "color")).result = .ok color := hcolor
    have hextent : ∀ s, painter.unfailing.extent s = painter.extent s := fun _ => rfl
    simp only [hne, ne_eq, not_false_eq_true, forall_const, Outcome.succeeds_bind,
      Outcome.result_ofExcept, hcolor', hextent, Except.ok.injEq, exists_eq_left',
      columnsFit_iff, middleFits_iff]
    constructor
    · rintro ⟨extent, hextent, left, hleft, top, htop, right, hright, _, hmoved, down, hdown, _,
        hlow, -⟩
      exact ⟨extent, right, down, hextent, hright, hdown, ⟨left, hleft, _, hmoved⟩, top, htop, _,
        hlow⟩
    · rintro ⟨extent, right, down, hextent, hright, hdown, ⟨left, hleft, _, hmoved⟩, top, htop, _,
        hlow⟩
      exact ⟨extent, hextent, left, hleft, top, htop, right, hright, _, hmoved, down, hdown, _,
        hlow, succeeds_issue painter _⟩

/-- A widget can be drawn in a rectangle: there is no pixel, or its border and its text fit. -/
def PaintFits (palette : Palette α) (e : Element α) (box : PixelBox) : Prop :=
  box.isEmpty = false →
    BorderFits palette.painter (palette.sheet.effectiveProperties palette.registry e)
      ∧ TextFits palette.painter (palette.sheet.effectiveProperties palette.registry e) box

theorem succeeds_paintBox_iff {palette : Palette α} (h : palette.IsPlain) (e : Element α)
    (box : PixelBox) :
    Succeeds (paintBox palette.unfailing e box).result ↔ PaintFits palette e box := by
  unfold paintBox PaintFits
  split
  · next hempty => exact iff_of_true (succeeds_ok _) fun hne => by rw [hempty] at hne; cases hne
  · next hempty =>
    have himage := result_image palette.unfailing h.openImage
    simp only [Bool.not_eq_true] at hempty
    simp only [hempty, forall_const, Outcome.succeeds_bind, himage]
    have hborder := succeeds_border_iff h.painter
    have htext := succeeds_text_iff h.painter
    constructor
    · rintro ⟨_, -, _, -, _, hborder', _, htext', -⟩
      exact ⟨(hborder _ _).1 ⟨_, hborder'⟩, (htext _ _).1 ⟨_, htext'⟩⟩
    · rintro ⟨hborder', htext'⟩
      obtain ⟨_, hbackground⟩ := succeeds_background h.painter
        (palette.sheet.effectiveProperties palette.registry e)
        { box with right := box.right - 1, bottom := box.bottom - 1 }
      obtain ⟨_, hborder'⟩ := (hborder _ _).2 hborder'
      obtain ⟨_, htext'⟩ := (htext _ _).2 htext'
      exact ⟨_, hbackground, _, rfl, _, hborder', _, htext', succeeds_ok _⟩

/-! ### Painting forests -/

/-- A widget of a forest that is drawn, with the point where it stands on the canvas. -/
structure Standing (α : Type) where
  /-- The widget. -/
  element : Element α
  /-- The distance from the left side of the canvas. -/
  left : α
  /-- The distance from the top of the canvas. -/
  top : α

mutual

/-- Where a widget and all below it stand, when the parent stands at a point. -/
def standings (left top : α) : Widget α → List (Standing α)
  | .node e cs =>
    ⟨e, left + (placementOf e).left, top + (placementOf e).top⟩
      :: allStandings (left + (placementOf e).left) (top + (placementOf e).top) cs

/-- Where the children of a widget that stands at a point stand, and all below them. -/
def allStandings (left top : α) : List (Widget α) → List (Standing α)
  | [] => []
  | w :: ws => standings left top w ++ allStandings left top ws

end

/-- A widget can be drawn where it stands: its rectangle has edges, and it can be drawn there. -/
def Standing.IsDrawable (palette : Palette α) (s : Standing α) : Prop :=
  ∃ box, pixelBox s.left s.top (placementOf s.element) = .ok box ∧ PaintFits palette s.element box

theorem succeeds_paint_node_iff {palette : Palette α} (h : palette.IsPlain)
    (left top : α) (e : Element α) (cs : List (Widget α)) :
    Succeeds (paint palette.unfailing left top (.node e cs)).result
      ↔ Standing.IsDrawable palette ⟨e, left + (placementOf e).left, top + (placementOf e).top⟩
        ∧ Succeeds (paintAll palette.unfailing (left + (placementOf e).left)
          (top + (placementOf e).top) cs).result := by
  simp only [paint, Standing.IsDrawable, Outcome.succeeds_bind, Outcome.result_ofExcept,
    ← succeeds_paintBox_iff h]
  constructor
  · rintro ⟨box, hbox, _, hown, _, hbelow, -⟩
    exact ⟨⟨box, hbox, _, hown⟩, _, hbelow⟩
  · rintro ⟨⟨box, hbox, _, hown⟩, _, hbelow⟩
    exact ⟨box, hbox, _, hown, _, hbelow, succeeds_ok _⟩

theorem succeeds_paintAll_cons_iff (palette : Palette α) (left top : α) (w : Widget α)
    (ws : List (Widget α)) :
    Succeeds (paintAll palette left top (w :: ws)).result
      ↔ Succeeds (paint palette left top w).result
        ∧ Succeeds (paintAll palette left top ws).result := by
  simp only [paintAll, Outcome.succeeds_bind]
  constructor
  · rintro ⟨_, hfirst, _, hrest, -⟩
    exact ⟨⟨_, hfirst⟩, _, hrest⟩
  · rintro ⟨⟨_, hfirst⟩, _, hrest⟩
    exact ⟨_, hfirst, _, hrest, succeeds_ok _⟩

/-- Widgets below a point are drawn when each can be drawn where it stands. -/
theorem succeeds_paintAll_iff {palette : Palette α} (h : palette.IsPlain) (left top : α)
    (ws : List (Widget α)) :
    Succeeds (paintAll palette.unfailing left top ws).result
      ↔ ∀ s ∈ allStandings left top ws, s.IsDrawable palette := by
  induction ws using Tree.forest_induction generalizing left top with
  | nil => exact iff_of_true (succeeds_ok _) (List.forall_mem_nil _)
  | cons e cs ws ihc ihw =>
    simp only [allStandings, standings, List.cons_append, List.forall_mem_cons,
      List.forall_mem_append, ← ihc, ← ihw, succeeds_paintAll_cons_iff,
      succeeds_paint_node_iff h, and_assoc]

theorem succeeds_paint_iff {palette : Palette α} (h : palette.IsPlain) (left top : α)
    (w : Widget α) :
    Succeeds (paint palette.unfailing left top w).result
      ↔ ∀ s ∈ standings left top w, s.IsDrawable palette := by
  cases w with
  | node e cs =>
    rw [succeeds_paint_node_iff h, succeeds_paintAll_iff h, standings, List.forall_mem_cons]

/-! ### Previews -/

/-- Root widgets can be drawn from some columns on: each column is a coordinate, and all widgets can
be drawn where they stand. -/
def AreDrawable (palette : Palette α) (roots : List (Widget α)) (offsets : List Int) : Prop :=
  ∀ p ∈ roots.zip offsets, ∃ x, Scalar.ofInt? p.2 = some x
    ∧ ∀ s ∈ standings x 0 p.1, s.IsDrawable palette

theorem succeeds_paintRoots_iff {palette : Palette α} (h : palette.IsPlain)
    (roots : List (Widget α)) (offsets : List Int) :
    Succeeds (paintRoots palette.unfailing roots offsets).result
      ↔ AreDrawable palette roots offsets := by
  induction roots generalizing offsets with
  | nil => exact iff_of_true (succeeds_ok _) (List.forall_mem_nil _)
  | cons w ws ih =>
    cases offsets with
    | nil => exact iff_of_true (succeeds_ok _) (List.forall_mem_nil _)
    | cons offset offsets =>
      rw [AreDrawable, List.zip_cons_cons, List.forall_mem_cons]
      refine Iff.trans ?_ (and_congr Iff.rfl (ih offsets))
      simp only [paintRoots, Outcome.succeeds_bind, Outcome.result_ofExcept, coordinate_eq_ok_iff,
        ← succeeds_paint_iff h]
      constructor
      · rintro ⟨x, hx, _, hfirst, _, hrest, -⟩
        exact ⟨⟨x, hx, _, hfirst⟩, _, hrest⟩
      · rintro ⟨⟨x, hx, _, hfirst⟩, _, hrest⟩
        exact ⟨x, hx, _, hfirst, _, hrest, succeeds_ok _⟩

/-- **Drawing**: a preview without images is drawn exactly when the widgets are placed, the roots
have extents in pixels, and all widgets can be drawn where they stand. -/
theorem succeeds_draw_iff {palette : Palette α} (h : palette.IsPlain)
    (ws : List (Widget α)) :
    Succeeds (draw palette.unfailing ws).result
      ↔ ∃ roots c, (layout palette.config (0, 0) ws).result = .ok roots
        ∧ canvas roots = .ok c ∧ AreDrawable palette roots c.offsets := by
  simp only [draw, Outcome.succeeds_bind, Outcome.result_ofExcept, ← succeeds_paintRoots_iff h]
  constructor
  · rintro ⟨roots, hroots, c, hc, _, -, _, hpaint, -⟩
    exact ⟨roots, c, hroots, hc, _, hpaint⟩
  · rintro ⟨roots, c, hroots, hc, _, hpaint⟩
    exact ⟨roots, hroots, c, hc, _, rfl, _, hpaint, succeeds_ok _⟩

end Preview

end Otui
