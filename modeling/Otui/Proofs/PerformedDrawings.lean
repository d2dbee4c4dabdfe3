import Otui.Preview
import Otui.Proofs.AlikeForests

/-!
# Drawings that are performed

Drawing commands are carried out as soon as they are given, and any of them may fail. What a painter
does with a command has no part in which one comes next. So a preview comes to the commands that it
would give to a painter who fails at none (`Painter.unfailing`), carried out one after the other
(`performs_draw`).
-/

namespace Otui

variable {α : Type}

namespace Painter

/-- What a preview may ask of a painter: a color that cannot be read is a value that makes no sense,
and every text has an extent. -/
structure IsReliable (painter : Painter α) : Prop where
  /-- Only values that make no sense are no colors. -/
  color : ∀ s fault, painter.color s = .error fault → fault.isBadValue = true
  /-- Every text can be measured. -/
  extent : ∀ s, ∃ box, painter.extent s = .ok box

theorem isReliable_standard : (standard : Painter α).IsReliable where
  color s fault h := by
    simp only [standard] at h
    cases hr : Color.read s with
    | error reason => exact Except.error.inj (hr ▸ h) ▸ rfl
    | ok color => cases hr ▸ h
  extent s := ⟨_, rfl⟩

/-- The same painter, who carries out whatever the command is. -/
def unfailing (painter : Painter α) : Painter α := { painter with carryOut := fun _ => .ok () }

/-- Carries commands out one after the other, up to the first that fails. -/
def perform (painter : Painter α) (ds : List (Drawing α)) : Except Fault Unit :=
  forM ds painter.carryOut

theorem perform_append (painter : Painter α) (ds es : List (Drawing α)) :
    painter.perform (ds ++ es) = painter.perform ds >>= fun _ => painter.perform es :=
  List.forM_append

/-- When commands fail, one of them does. -/
theorem exists_of_perform_eq_error {painter : Painter α} {ds : List (Drawing α)} {fault : Fault}
    (h : painter.perform ds = .error fault) : ∃ d, painter.carryOut d = .error fault := by
  induction ds with
  | nil => cases h
  | cons d ds ih =>
    rw [perform, List.forM_cons] at h
    cases hd : painter.carryOut d with
    | ok _ =>
      rw [hd] at h
      exact ih h
    | error fault' =>
      rw [hd] at h
      exact ⟨d, hd.trans h⟩

end Painter

/-! ### Runs with the same commands -/

/-- After some commands, a run of a painter does what a run without failures says: it carries the
same commands out, those that the result tells, and ends with the same fault unless one of the
commands fails before. -/
def Performs {β : Type} (painter : Painter α) (told : β → List (Drawing α))
    (done : List (Drawing α)) : Except Fault β → Except Fault β → Prop
  | .ok b, real => ∃ ds, told b = done ++ ds ∧ real = (painter.perform ds).map fun _ => b
  | .error fault, real =>
    ∃ fault', real = .error fault' ∧ (fault' = fault ∨ ∃ d, painter.carryOut d = .error fault')

namespace Performs

variable {β γ : Type} {painter : Painter α} {told : β → List (Drawing α)}

theorem pure (b : β) : Performs painter told (told b) (.ok b) (.ok b) :=
  ⟨[], (List.append_nil _).symm, rfl⟩

variable {done : List (Drawing α)}

/-- Nothing is drawn by a step that does not ask the painter to. -/
theorem silently (x : Except Fault γ) {f g : γ → Except Fault β}
    (h : ∀ c, Performs painter told done (f c) (g c)) :
    Performs painter told done (x >>= f) (x >>= g) := by
  cases x with
  | ok c => exact h c
  | error fault => exact ⟨fault, rfl, .inl rfl⟩

/-- After the commands of a step come those of the next one. -/
theorem bind {ideal real : Except Fault (List (Drawing α))}
    {f g : List (Drawing α) → Except Fault β} (hx : Performs painter id [] ideal real)
    (h : ∀ ds, Performs painter told (done ++ ds) (f ds) (g ds)) :
    Performs painter told done (ideal >>= f) (real >>= g) := by
  cases ideal with
  | error fault =>
    obtain ⟨fault', rfl, hfault⟩ := hx
    exact ⟨fault', rfl, hfault⟩
  | ok first =>
    obtain ⟨ds, hds, rfl⟩ := hx
    obtain rfl : first = ds := hds
    have hrest := h first
    change Performs painter told done (f first) _
    cases hf : f first with
    | ok b =>
      rw [hf] at hrest
      obtain ⟨ds, htold, hreal⟩ := hrest
      refine ⟨first ++ ds, htold.trans (List.append_assoc ..), ?_⟩
      rw [painter.perform_append]
      cases painter.perform first with
      | ok _ => exact hreal
      | error fault => rfl
    | error fault =>
      rw [hf] at hrest
      cases hfirst : painter.perform first with
      | ok _ => exact hrest
      | error fault' => exact ⟨fault', rfl, .inr (Painter.exists_of_perform_eq_error hfirst)⟩

end Performs

theorem performs_issue (painter : Painter α) (d : Drawing α) :
    Performs painter id [] (painter.unfailing.issue d).result (painter.issue d).result := by
  refine ⟨[d], rfl, ?_⟩
  rw [Painter.perform, List.forM_cons, List.forM_nil, Painter.issue, Outcome.result_bind,
    Outcome.result_ofExcept]
  cases painter.carryOut d <;> rfl

/-! ### Previews -/

/-- The same palette, with a painter who carries out whatever the command is. -/
def Palette.unfailing (palette : Palette α) : Palette α :=
  { palette with painter := palette.painter.unfailing }

/-- A palette without images, whose painter is reliable. -/
structure Palette.IsPlain (palette : Palette α) : Prop where
  /-- There are no images. -/
  openImage : palette.openImage = none
  /-- The painter is reliable. -/
  painter : palette.painter.IsReliable

namespace Preview

theorem performs_background (painter : Painter α) (props : Ledger String) (box : PixelBox) :
    Performs painter id [] (background painter.unfailing props box).result
      (background painter props box).result := by
  simp only [background, Outcome.result_bind]
  refine .silently (colorOf painter _).result fun color => ?_
  cases color with
  | none => exact .pure []
  | some color => exact performs_issue painter _

theorem performs_border (painter : Painter α) (props : Ledger String) (box : PixelBox) :
    Performs painter id [] (border painter.unfailing props box).result
      (border painter props box).result := by
  simp only [border, Outcome.result_bind]
  refine .silently (colorOf painter _).result fun color => ?_
  cases color with
  | none => exact .pure []
  | some color =>
    simp only [Outcome.result_bind]
    exact .silently _ fun width => performs_issue painter _

theorem performs_image (palette : Palette α) (props : Ledger String) (box : PixelBox) :
    Performs palette.painter id [] (image palette.unfailing props box).result
      (image palette props box).result := by
  have hopen : palette.unfailing.openImage = palette.openImage := rfl
  simp only [image, hopen]
  cases palette.openImage with
  | none => exact .pure []
  | some openImage =>
    dsimp only
    split
    · exact .pure []
    · cases openImage (textOrEmpty (props.get? "image-source")) with
      | missing => exact .pure []
      | broken reason => exact .pure []
      | found =>
        simp only [Outcome.result_bind]
        exact .silently _ fun clip => performs_issue palette.painter _

variable [Scalar α]

theorem performs_text (painter : Painter α) (props : Ledger String) (box : PixelBox) :
    Performs painter id [] (text painter.unfailing props box).result
      (text painter props box).result := by
  unfold text
  dsimp only
  split
  · exact .pure []
  · simp only [Outcome.result_bind]
    refine .silently (textColor painter _).result fun color => ?_
    refine .silently (painter.extent _) fun extent => ?_
    exact .silently _ fun left => .silently _ fun top => .silently _ fun right =>
      .silently _ fun left => .silently _ fun down => .silently _ fun top =>
      performs_issue painter _

theorem performs_paintBox (palette : Palette α) (e : Element α) (box : PixelBox) :
    Performs palette.painter id [] (paintBox palette.unfailing e box).result
      (paintBox palette e box).result := by
  unfold paintBox
  split
  · exact .pure []
  · simp only [Outcome.result_bind]
    exact (performs_background palette.painter _ _).bind fun _ =>
      (performs_image palette _ _).bind fun _ => (performs_border palette.painter _ _).bind fun _ =>
      (performs_text palette.painter _ _).bind fun _ => .pure _

theorem performs_paint_node (palette : Palette α) (left top : α) (e : Element α)
    (cs : List (Widget α))
    (hcs : Performs palette.painter id []
      (paintAll palette.unfailing (left + (placementOf e).left) (top + (placementOf e).top)
        cs).result
      (paintAll palette (left + (placementOf e).left) (top + (placementOf e).top) cs).result) :
    Performs palette.painter id [] (paint palette.unfailing left top (.node e cs)).result
      (paint palette left top (.node e cs)).result := by
  simp only [paint, Outcome.result_bind]
  exact .silently _ fun box => (performs_paintBox palette e box).bind fun _ =>
    hcs.bind fun _ => .pure _

theorem performs_paintAll (palette : Palette α) (left top : α) (ws : List (Widget α)) :
    Performs palette.painter id [] (paintAll palette.unfailing left top ws).result
      (paintAll palette left top ws).result := by
  induction ws using Tree.forest_induction generalizing left top with
  | nil => exact .pure []
  | cons e cs ws ihc ihw =>
    simp only [paintAll, Outcome.result_bind]
    exact (performs_paint_node palette left top e cs (ihc _ _)).bind fun _ =>
      (ihw left top).bind fun _ => .pure _

theorem performs_paintRoots (palette : Palette α) (roots : List (Widget α)) (offsets : List Int) :
    Performs palette.painter id [] (paintRoots palette.unfailing roots offsets).result
      (paintRoots palette roots offsets).result := by
  induction roots generalizing offsets with
  | nil => exact .pure []
  | cons w ws ih =>
    cases offsets with
    | nil => exact .pure []
    | cons offset offsets =>
      cases w with
      | node e cs =>
        simp only [paintRoots, Outcome.result_bind]
        exact .silently _ fun left =>
          (performs_paint_node palette left 0 e cs (performs_paintAll palette _ _ cs)).bind fun _ =>
          (ih offsets).bind fun _ => .pure _

/-- **Drawings that are performed**: a preview is the one of an unfailing painter, with its commands
carried out in order. If that one ends with a fault, so does the preview, with the same one or with
the fault of a command. -/
theorem performs_draw (palette : Palette α) (ws : List (Widget α)) :
    Performs palette.painter Prod.snd [] (draw palette.unfailing ws).result
      (draw palette ws).result := by
  simp only [draw, Outcome.result_bind]
  refine .silently (layout palette.config (0, 0) ws).result fun roots => ?_
  exact .silently _ fun c => (performs_issue palette.painter _).bind fun _ =>
    (performs_paintRoots palette roots c.offsets).bind fun _ => .pure (c, _)

end Preview

end Otui
