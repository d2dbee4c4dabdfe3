import Otui.Proofs.BinarySums
import Otui.Proofs.DrawnForests
import Otui.Proofs.ExpandedDocuments
import Otui.Proofs.WellFormedPlaces

/-!
# Previews that overflow

A preview comes to sums of places and sizes, and rounds them to pixels. Placing keeps what is
undefined or below nought out of the places, and sums of what is not below nought are not below
nought. So an infinity is all that can get in the way of rounding: a preview without images comes to
its commands, or a number was too large for it (`onlyOverflows_draw`), and which of these it is can
be told from the places of the widgets. What the painter does with the commands is another matter
(`draw_plain`).

Infinities do get in the way, of sizes, of borders and of texts (`draw_endlessTexts`).
-/

namespace Otui

/-! ### Results -/

namespace Outcome

variable {β : Type}

/-- The fault of an outcome, if it has one. -/
def fault? (x : Outcome β) : Option Fault :=
  match x.result with
  | .ok _ => none
  | .error fault => some fault

end Outcome

/-! ### Faults of previews -/

section OnlyOverflows

variable {β γ : Type}

/-- A run that, if it ends with a fault, does so because a number is too large. -/
def OnlyOverflows (x : Except Fault β) : Prop := ∀ fault, x = .error fault → fault.kind = .overflow

theorem onlyOverflows_ok (b : β) : OnlyOverflows (.ok b) := fun _ h => nomatch h

theorem OnlyOverflows.bind {x : Except Fault β} {f : β → Except Fault γ} (hx : OnlyOverflows x)
    (hf : ∀ b, x = .ok b → OnlyOverflows (f b)) : OnlyOverflows (x >>= f) := by
  cases x with
  | error fault => exact fun _ h => hx _ (congrArg _ (Except.error.inj h))
  | ok b => exact hf b rfl

theorem OnlyOverflows.map {x : Except Fault β} (hx : OnlyOverflows x) (f : β → γ) :
    OnlyOverflows (x.map f) := by
  cases x with
  | error fault => exact fun _ h => hx _ (congrArg _ (Except.error.inj h))
  | ok b => exact onlyOverflows_ok _

theorem OnlyOverflows.bind_outcome {x : Outcome β} {f : β → Outcome γ}
    (hx : OnlyOverflows x.result) (hf : ∀ b, x.result = .ok b → OnlyOverflows (f b).result) :
    OnlyOverflows (x >>= f).result := by
  rw [Outcome.result_bind]
  exact hx.bind hf

theorem OnlyOverflows.ofExcept {x : Except Fault β} (hx : OnlyOverflows x) :
    OnlyOverflows (Outcome.ofExcept x).result :=
  hx

theorem onlyOverflows_mapM {f : β → Except Fault γ} {xs : List β}
    (h : ∀ x ∈ xs, OnlyOverflows (f x)) : OnlyOverflows (xs.mapM f) := by
  induction xs with
  | nil => exact onlyOverflows_ok []
  | cons x xs ih =>
    obtain ⟨hx, hxs⟩ := List.forall_mem_cons.1 h
    rw [List.mapM_cons]
    exact hx.bind fun _ _ => (ih hxs).bind fun _ _ => onlyOverflows_ok _

end OnlyOverflows

namespace Preview

section Scalars

variable {α : Type} {painter : Painter α}

theorem onlyOverflows_wholeNumber (default : Int) (text : Option String) :
    OnlyOverflows (wholeNumber default text) := by
  rw [wholeNumber]
  split
  · exact onlyOverflows_ok _
  · split
    · exact onlyOverflows_ok _
    · exact onlyOverflows_ok _
    · exact fun _ h => Except.error.inj h ▸ rfl

theorem onlyOverflows_of_succeeds {β : Type} {x : Except Fault β} (h : Succeeds x) :
    OnlyOverflows x := by
  obtain ⟨b, rfl⟩ := h
  exact onlyOverflows_ok b

theorem onlyOverflows_border (h : painter.IsReliable) (props : Ledger String) (box : PixelBox) :
    OnlyOverflows (border painter.unfailing props box).result := by
  have hcolor : OnlyOverflows (colorOf painter.unfailing (props.get? "border-color")).result :=
    onlyOverflows_of_succeeds ⟨_, result_colorOf h _⟩
  refine hcolor.bind_outcome fun color _ => ?_
  cases color with
  | none => exact onlyOverflows_ok _
  | some color =>
    exact (onlyOverflows_wholeNumber _ _).ofExcept.bind_outcome fun _ _ => onlyOverflows_ok _

variable [Scalar α]

theorem onlyOverflows_coordinate (n : Int) : OnlyOverflows (coordinate n : Except Fault α) := by
  rw [coordinate]
  split
  · exact onlyOverflows_ok _
  · exact fun _ h => Except.error.inj h ▸ rfl

theorem onlyOverflows_centred (first last extent : Int) :
    OnlyOverflows (centred first last extent : Except Fault α) := by
  have hhalf : OnlyOverflows (halfOf (last - first - extent) : Except Fault α) := by
    rw [halfOf]
    split
    · exact onlyOverflows_ok _
    · exact fun _ h => Except.error.inj h ▸ rfl
  exact hhalf.bind fun _ _ => (onlyOverflows_coordinate _).bind fun _ _ => onlyOverflows_ok _

theorem onlyOverflows_textLeft (align : String) (box : PixelBox) (width : Int) :
    OnlyOverflows (textLeft align box width : Except Fault (Coordinate α)) := by
  rw [textLeft]
  split
  · exact onlyOverflows_ok _
  · split
    · exact onlyOverflows_ok _
    · exact (onlyOverflows_centred _ _ _).map _

theorem onlyOverflows_movedPoint (x : α) (n : Int) : OnlyOverflows (movedPoint x n) :=
  (onlyOverflows_coordinate n).map _

theorem onlyOverflows_moved (n : Int) (x : Coordinate α) : OnlyOverflows (moved n x) := by
  cases x with
  | pixel m => exact onlyOverflows_ok _
  | point x => exact (onlyOverflows_movedPoint x n).map _

theorem onlyOverflows_text (h : painter.IsReliable) (props : Ledger String) (box : PixelBox) :
    OnlyOverflows (text painter.unfailing props box).result := by
  unfold text
  dsimp only
  split
  · exact onlyOverflows_ok _
  · have hcolor : OnlyOverflows (textColor painter.unfailing (props.get? "color")).result :=
      onlyOverflows_of_succeeds (succeeds_textColor h _)
    have hextent : ∀ s, OnlyOverflows (painter.unfailing.extent s) := fun s =>
      onlyOverflows_of_succeeds (h.extent s)
    refine hcolor.bind_outcome fun _ _ => (hextent _).ofExcept.bind_outcome fun extent _ => ?_
    refine (onlyOverflows_textLeft _ box extent.width).ofExcept.bind_outcome fun _ _ => ?_
    refine (onlyOverflows_centred _ _ extent.height).ofExcept.bind_outcome fun _ _ => ?_
    refine (onlyOverflows_wholeNumber 0 _).ofExcept.bind_outcome fun _ _ => ?_
    refine (onlyOverflows_moved _ _).ofExcept.bind_outcome fun _ _ => ?_
    refine (onlyOverflows_wholeNumber 0 _).ofExcept.bind_outcome fun _ _ => ?_
    exact (onlyOverflows_movedPoint _ _).ofExcept.bind_outcome fun _ _ => onlyOverflows_ok _

theorem onlyOverflows_paintBox {palette : Palette α} (h : palette.IsPlain) (e : Element α)
    (box : PixelBox) : OnlyOverflows (paintBox palette.unfailing e box).result := by
  unfold paintBox
  split
  · exact onlyOverflows_ok _
  · have himage : ∀ props, OnlyOverflows (image palette.unfailing props box).result := fun props =>
      onlyOverflows_of_succeeds ⟨_, result_image palette.unfailing h.openImage props box⟩
    refine (onlyOverflows_of_succeeds
      (succeeds_background h.painter _ _)).bind_outcome fun _ _ => ?_
    refine (himage _).bind_outcome fun _ _ => ?_
    refine (onlyOverflows_border h.painter _ _).bind_outcome fun _ _ => ?_
    exact (onlyOverflows_text h.painter _ _).bind_outcome fun _ _ => onlyOverflows_ok _

end Scalars

/-! ### Numbers that are defined -/

theorem nearest_of_pixel {x : Float} {n : Int} (h : pixel x = .ok n) :
    Number.nearest x = .ok n := by
  change (Number.nearest x).mapError Fault.unroundable = _ at h
  cases hnearest : Number.nearest x with
  | ok m =>
    rw [hnearest] at h
    exact congrArg _ (Except.ok.inj h)
  | error why =>
    rw [hnearest] at h
    cases h

theorem onlyOverflows_pixel {x : Float} (h : 0 ≤ x) : OnlyOverflows (pixel x) := by
  intro fault hfault
  cases hnearest : Number.nearest x with
  | ok n =>
    change (Number.nearest x).mapError Fault.unroundable = _ at hfault
    rw [hnearest] at hfault
    cases hfault
  | error why =>
    obtain rfl := Number.nearest_eq_error h hnearest
    change (Number.nearest x).mapError Fault.unroundable = _ at hfault
    rw [hnearest] at hfault
    exact Except.error.inj hfault ▸ rfl

end Preview

/-- All numbers of a placement are defined and not below nought. -/
structure Placement.IsNatural (p : Placement Float) : Prop where
  /-- The distance from the left. -/
  left : 0 ≤ p.left
  /-- The distance from the top. -/
  top : 0 ≤ p.top
  /-- The width. -/
  width : 0 ≤ p.width
  /-- The height. -/
  height : 0 ≤ p.height

/-- What holds of the trees of a forest and goes from each tree to its children holds of all. -/
theorem Tree.forall_mem_forestNodes {β : Type} {P : Tree β → Prop} {ts : List (Tree β)}
    (hroots : ∀ t ∈ ts, P t)
    (hchildren : ∀ t ∈ Tree.forestNodes ts, P t → ∀ c ∈ t.children, P c) :
    ∀ t ∈ Tree.forestNodes ts, P t := by
  induction ts using Tree.forest_induction with
  | nil => exact fun t ht => nomatch ht
  | cons e cs ts ihc iht =>
    obtain ⟨hroot, hroots⟩ := List.forall_mem_cons.1 hroots
    intro t ht
    rcases Tree.mem_forestNodes_cons.1 ht with rfl | ht | ht
    · exact hroot
    · exact ihc (hchildren _ (Tree.mem_forestNodes_cons.2 (.inl rfl)) hroot)
        (fun t ht => hchildren t (Tree.mem_forestNodes_cons.2 (.inr (.inl ht)))) t ht
    · exact iht hroots
        (fun t ht => hchildren t (Tree.mem_forestNodes_cons.2 (.inr (.inr ht)))) t ht

namespace Preview

/-- All widgets of a forest have natural placements. -/
def AreNatural (ws : List (Widget Float)) : Prop :=
  ∀ t ∈ Tree.forestNodes ws, (placementOf t.label).IsNatural

/-- Placing from the corner gives natural placements, and the roots stand at the corner. -/
theorem exists_layout_areNatural (ws : List (Widget Float)) :
    ∃ r, (layout Config.standard (0, 0) ws).toExcept = .ok r ∧ AreNatural r.value
      ∧ ∀ t ∈ r.value, (placementOf t.label).left = 0 ∧ (placementOf t.label).top = 0 := by
  have hfit : (Config.standard : Config Float).SizesFit := by constructor <;> decide
  have hsizes : (Config.standard : Config Float).HasSizes := Config.hasSizes_standard
  have hroot : ∀ e : Element Float, ∃ p, Config.standard.rootPlacement (0, 0) e = .ok p
      ∧ p.left = 0 ∧ p.top = 0 ∧ p.IsNatural := by
    intro e
    obtain ⟨p, hp, hwidth, hheight⟩ := Config.exists_rootPlacement (exists_ofInt? hsizes.1 hfit.1)
      (exists_ofInt? hsizes.2 hfit.2) (0, 0) e
    obtain ⟨hleft, htop⟩ := Config.origin_of_rootPlacement hp
    exact ⟨p, hp, hleft, htop, by rw [hleft]; decide, by rw [htop]; decide,
      Number.le_of_lt hwidth, Number.le_of_lt hheight⟩
  obtain ⟨r, ps, hr, hlength, hP, hvalue⟩ := exists_layout hroot ws
  have hroots : ∀ t ∈ r.value, (placementOf t.label).left = 0 ∧ (placementOf t.label).top = 0
      ∧ (placementOf t.label).IsNatural := by
    intro t ht
    obtain ⟨p, hp, htp⟩ := Widget.exists_placement_of_mem hlength (hvalue ▸ ht)
    rw [placementOf, htp]
    exact hP p hp
  refine ⟨r, hr, Tree.forall_mem_forestNodes (fun t ht => (hroots t ht).2.2) fun t ht _ c hc => ?_,
    fun t ht => ⟨(hroots t ht).1, (hroots t ht).2.1⟩⟩
  rw [hvalue] at ht
  obtain ⟨_, q, -, hq, habove⟩ := areBelow_settledAll (by decide) hlength t ht c hc
  have habove := habove.imp fun x => isMeasure_float
  rw [placementOf, hq]
  exact ⟨habove.left.1, habove.top.1, habove.width.1, habove.height.1⟩

theorem onlyOverflows_pixelBox {left top : Float} {p : Placement Float} (hleft : 0 ≤ left)
    (htop : 0 ≤ top) (hp : p.IsNatural) : OnlyOverflows (pixelBox left top p) :=
  (onlyOverflows_pixel hleft).bind fun _ _ => (onlyOverflows_pixel htop).bind fun _ _ =>
    (onlyOverflows_pixel (Number.zero_le_add hleft hp.width)).bind fun _ _ =>
      (onlyOverflows_pixel (Number.zero_le_add htop hp.height)).bind fun _ _ => onlyOverflows_ok _

theorem AreNatural.cons {e : Element Float} {cs ws : List (Widget Float)}
    (h : AreNatural (.node e cs :: ws)) :
    (placementOf e).IsNatural ∧ AreNatural cs ∧ AreNatural ws :=
  ⟨h _ (Tree.mem_forestNodes_cons.2 (.inl rfl)),
    fun t ht => h t (Tree.mem_forestNodes_cons.2 (.inr (.inl ht))),
    fun t ht => h t (Tree.mem_forestNodes_cons.2 (.inr (.inr ht)))⟩

theorem onlyOverflows_paint_node {palette : Palette Float} (h : palette.IsPlain)
    {left top : Float} {e : Element Float} {cs : List (Widget Float)}
    (hleft : 0 ≤ left + (placementOf e).left) (htop : 0 ≤ top + (placementOf e).top)
    (he : (placementOf e).IsNatural)
    (hcs : OnlyOverflows (paintAll palette.unfailing (left + (placementOf e).left)
      (top + (placementOf e).top) cs).result) :
    OnlyOverflows (paint palette.unfailing left top (.node e cs)).result := by
  rw [paint]
  refine (onlyOverflows_pixelBox hleft htop he).ofExcept.bind_outcome fun _ _ => ?_
  exact (onlyOverflows_paintBox h e _).bind_outcome fun _ _ =>
    hcs.bind_outcome fun _ _ => onlyOverflows_ok _

theorem onlyOverflows_paintAll {palette : Palette Float} (h : palette.IsPlain)
    {left top : Float} (hleft : 0 ≤ left) (htop : 0 ≤ top) {ws : List (Widget Float)}
    (hws : AreNatural ws) : OnlyOverflows (paintAll palette.unfailing left top ws).result := by
  induction ws using Tree.forest_induction generalizing left top with
  | nil => exact onlyOverflows_ok _
  | cons e cs ws ihc ihw =>
    obtain ⟨he, hcs, hrest⟩ := hws.cons
    have hleft' := Number.zero_le_add hleft he.left
    have htop' := Number.zero_le_add htop he.top
    rw [paintAll]
    have hfirst := onlyOverflows_paint_node h hleft' htop' he (ihc hleft' htop' hcs)
    exact hfirst.bind_outcome fun _ _ =>
      (ihw hleft htop hrest).bind_outcome fun _ _ => onlyOverflows_ok _

/-- Root widgets of widths that are not below nought start at columns that are not either. -/
theorem zero_le_of_mem_rootOffsets {start : Int} (hstart : 0 ≤ start) {widths : List Int}
    (h : ∀ n ∈ widths, 0 ≤ n) : ∀ n ∈ (rootOffsets start widths).1, 0 ≤ n := by
  induction widths generalizing start with
  | nil => exact fun n hn => nomatch hn
  | cons width widths ih =>
    obtain ⟨hwidth, hwidths⟩ := List.forall_mem_cons.1 h
    refine List.forall_mem_cons.2 ⟨hstart, ih ?_ hwidths⟩
    have : (0 : Int) ≤ gap := by decide
    omega

theorem zero_le_of_ofInt? {n : Int} (hn : 0 ≤ n) {x : Float} (hx : Scalar.ofInt? n = some x) :
    0 ≤ x := by
  rcases hn.eq_or_lt with rfl | hn
  · obtain ⟨-, hx⟩ := Option.ite_none_right_eq_some.1 hx
    exact Option.some.inj hx ▸ by decide
  · obtain ⟨y, hy, hpos⟩ := exists_ofInt? hn (by rw [hx]; rfl)
    obtain rfl := Option.some.inj (hx.symm.trans hy)
    exact Number.le_of_lt hpos

theorem onlyOverflows_paintRoots {palette : Palette Float} (h : palette.IsPlain)
    {roots : List (Widget Float)} (hroots : AreNatural roots) {offsets : List Int}
    (hoffsets : ∀ n ∈ offsets, 0 ≤ n) :
    OnlyOverflows (paintRoots palette.unfailing roots offsets).result := by
  induction roots generalizing offsets with
  | nil => exact onlyOverflows_ok _
  | cons w ws ih =>
    cases w with
    | node e cs =>
      cases offsets with
      | nil => exact onlyOverflows_ok _
      | cons offset offsets =>
        obtain ⟨hoffset, hoffsets⟩ := List.forall_mem_cons.1 hoffsets
        obtain ⟨he, hcs, hws⟩ := hroots.cons
        rw [paintRoots]
        refine (onlyOverflows_coordinate _).ofExcept.bind_outcome fun x hx => ?_
        have hx : 0 ≤ x := zero_le_of_ofInt? hoffset (coordinate_eq_ok_iff.1 hx)
        have hleft := Number.zero_le_add hx he.left
        have htop := Number.zero_le_add (by decide : (0 : Float) ≤ 0) he.top
        have hfirst := onlyOverflows_paint_node h hleft htop he
          (onlyOverflows_paintAll h hleft htop hcs)
        exact hfirst.bind_outcome fun _ _ =>
          (ih hws hoffsets).bind_outcome fun _ _ => onlyOverflows_ok _

theorem AreNatural.root {ws : List (Widget Float)} (h : AreNatural ws) {t : Widget Float}
    (ht : t ∈ ws) : (placementOf t.label).IsNatural := by
  refine h t ?_
  obtain ⟨before, after, rfl⟩ := List.append_of_mem ht
  rw [Tree.forestNodes_append, Tree.forestNodes, Tree.nodes_eq]
  exact List.mem_append_right _ List.mem_cons_self

theorem onlyOverflows_rootExtents {measure : Placement Float → Float} {ps : List (Placement Float)}
    (h : ∀ p ∈ ps, 0 ≤ measure p) : OnlyOverflows (rootExtents measure ps) :=
  onlyOverflows_mapM fun p hp => onlyOverflows_pixel (h p hp)

theorem zero_le_of_mem_rootExtents {measure : Placement Float → Float}
    {ps : List (Placement Float)} (h : ∀ p ∈ ps, 0 ≤ measure p) {ns : List Int}
    (hns : rootExtents measure ps = .ok ns) : ∀ n ∈ ns, 0 ≤ n :=
  forall_mem_of_mapM hns fun p hp _ hn => Number.zero_le_of_nearest (h p hp) (nearest_of_pixel hn)

theorem onlyOverflows_canvas {roots : List (Widget Float)} (h : AreNatural roots) :
    OnlyOverflows (canvas roots) := by
  have hmeasure : ∀ p ∈ roots.map fun w => placementOf w.label, p.IsNatural :=
    List.forall_mem_map.2 fun t ht => h.root ht
  exact (onlyOverflows_rootExtents fun p hp => (hmeasure p hp).width).bind fun _ _ =>
    (onlyOverflows_rootExtents fun p hp => (hmeasure p hp).height).bind fun _ _ =>
      onlyOverflows_ok _

theorem zero_le_of_mem_offsets {roots : List (Widget Float)} (h : AreNatural roots) {c : Canvas}
    (hc : canvas roots = .ok c) : ∀ n ∈ c.offsets, 0 ≤ n := by
  have hmeasure : ∀ p ∈ roots.map fun w => placementOf w.label, 0 ≤ p.width :=
    List.forall_mem_map.2 fun t ht => (h.root ht).width
  obtain ⟨widths, hwidths, hc⟩ := exists_of_bind_eq_ok hc
  obtain ⟨heights, -, hc⟩ := exists_of_bind_eq_ok hc
  obtain rfl := Except.ok.inj hc
  exact zero_le_of_mem_rootOffsets le_rfl (zero_le_of_mem_rootExtents hmeasure hwidths)

/-! ### Previews without images -/

/-- A preview of any widgets, with any styles, any registry and any painter, but without images. -/
def plain (sheet : Sheet) (registry : Option Registry) (painter : Painter Float) :
    Palette Float :=
  { sheet, registry, painter, config := .standard }

theorem onlyOverflows_draw {palette : Palette Float} (h : palette.IsPlain)
    (hconfig : palette.config = .standard) (ws : List (Widget Float)) :
    OnlyOverflows (draw palette.unfailing ws).result := by
  obtain ⟨r, hr, hnatural, -⟩ := exists_layout_areNatural ws
  have hlayout : (layout palette.unfailing.config (0, 0) ws).result = .ok r.value := by
    have hstandard : palette.unfailing.config = .standard := hconfig
    rw [hstandard]
    exact Outcome.result_of_toExcept hr
  refine OnlyOverflows.bind_outcome (hlayout ▸ onlyOverflows_ok _) fun roots hroots => ?_
  obtain rfl := Except.ok.inj (hlayout.symm.trans hroots)
  refine (onlyOverflows_canvas hnatural).ofExcept.bind_outcome fun c hc => ?_
  refine (onlyOverflows_of_succeeds (succeeds_issue palette.painter _)).bind_outcome fun _ _ => ?_
  have hpaint := onlyOverflows_paintRoots h hnatural (zero_le_of_mem_offsets hnatural hc)
  exact hpaint.bind_outcome fun _ _ => onlyOverflows_ok _

theorem succeeds_pixel_iff (x : Float) : Succeeds (pixel x) ↔ Number.isFinite x = true := by
  have hnearest : Succeeds (pixel x) ↔ ∃ n, Number.nearest x = .ok n := by
    change Succeeds ((Number.nearest x).mapError Fault.unroundable) ↔ _
    cases Number.nearest x with
    | ok n => exact iff_of_true (succeeds_ok n) ⟨n, rfl⟩
    | error why => exact iff_of_false (not_succeeds_error _) fun ⟨_, h⟩ => nomatch h
  rw [hnearest]
  unfold Number.nearest Number.roundWith Number.isFinite
  split
  · next h => simp [h]
  · next h => simp [h]
  · next h => simp [h]

/-- The edges of a widget are finite where it stands. -/
structure Standing.HasEdges (s : Standing Float) : Prop where
  /-- The left edge. -/
  left : Number.isFinite s.left = true
  /-- The top edge. -/
  top : Number.isFinite s.top = true
  /-- The right edge. -/
  right : Number.isFinite (s.left + (placementOf s.element).width) = true
  /-- The bottom edge. -/
  bottom : Number.isFinite (s.top + (placementOf s.element).height) = true

theorem succeeds_pixelBox_iff (s : Standing Float) :
    Succeeds (pixelBox s.left s.top (placementOf s.element)) ↔ s.HasEdges := by
  simp only [pixelBox, succeeds_bind]
  constructor
  · rintro ⟨_, hleft, _, htop, _, hright, _, hbottom, -⟩
    exact ⟨(succeeds_pixel_iff _).1 ⟨_, hleft⟩, (succeeds_pixel_iff _).1 ⟨_, htop⟩,
      (succeeds_pixel_iff _).1 ⟨_, hright⟩, (succeeds_pixel_iff _).1 ⟨_, hbottom⟩⟩
  · rintro ⟨hleft, htop, hright, hbottom⟩
    obtain ⟨_, hleft⟩ := (succeeds_pixel_iff _).2 hleft
    obtain ⟨_, htop⟩ := (succeeds_pixel_iff _).2 htop
    obtain ⟨_, hright⟩ := (succeeds_pixel_iff _).2 hright
    obtain ⟨_, hbottom⟩ := (succeeds_pixel_iff _).2 hbottom
    exact ⟨_, hleft, _, htop, _, hright, _, hbottom, succeeds_ok _⟩

theorem isDrawable_iff (palette : Palette Float) (s : Standing Float) :
    s.IsDrawable palette ↔ s.HasEdges
      ∧ ∀ box, pixelBox s.left s.top (placementOf s.element) = .ok box →
        PaintFits palette s.element box := by
  rw [← succeeds_pixelBox_iff]
  constructor
  · rintro ⟨box, hbox, hfits⟩
    exact ⟨⟨box, hbox⟩, fun box' hbox' => Except.ok.inj (hbox.symm.trans hbox') ▸ hfits⟩
  · rintro ⟨⟨box, hbox⟩, hfits⟩
    exact ⟨box, hbox, hfits box hbox⟩

theorem succeeds_canvas_iff (roots : List (Widget Float)) :
    Succeeds (canvas roots) ↔ ∀ w ∈ roots, Number.isFinite (placementOf w.label).width = true
      ∧ Number.isFinite (placementOf w.label).height = true := by
  have hextents : Succeeds (canvas roots)
      ↔ Succeeds (rootExtents (·.width) (roots.map fun w => placementOf w.label))
        ∧ Succeeds (rootExtents (·.height) (roots.map fun w => placementOf w.label)) := by
    constructor
    · rintro ⟨c, hc⟩
      obtain ⟨widths, hwidths, hc⟩ := exists_of_bind_eq_ok hc
      obtain ⟨heights, hheights, -⟩ := exists_of_bind_eq_ok hc
      exact ⟨⟨widths, hwidths⟩, heights, hheights⟩
    · rintro ⟨⟨widths, hwidths⟩, heights, hheights⟩
      exact succeeds_bind.2 ⟨widths, hwidths, succeeds_bind.2 ⟨heights, hheights, succeeds_ok _⟩⟩
  rw [hextents, rootExtents, rootExtents, succeeds_mapM_iff, succeeds_mapM_iff]
  simp only [List.forall_mem_map, succeeds_pixel_iff, ← forall₂_and]

/-- A preview of root widgets that have been placed can be drawn. -/
structure CanBeDrawn (palette : Palette Float) (roots : List (Widget Float)) : Prop where
  /-- The sizes of the roots are finite. -/
  extents : ∀ w ∈ roots, Number.isFinite (placementOf w.label).width = true
    ∧ Number.isFinite (placementOf w.label).height = true
  /-- Each root starts at a coordinate. From there on, all widgets have finite edges, and borders
  and texts fit where there are any. -/
  widgets : ∀ c, canvas roots = .ok c → ∀ p ∈ roots.zip c.offsets,
    ∃ x : Float, Scalar.ofInt? p.2 = some x ∧ ∀ s ∈ standings x 0 p.1, s.HasEdges
      ∧ ∀ box, pixelBox s.left s.top (placementOf s.element) = .ok box →
        PaintFits palette s.element box

/-- A preview without images comes to its commands exactly when all sizes are finite. -/
theorem succeeds_draw_unfailing_iff {palette : Palette Float} (h : palette.IsPlain)
    {ws roots : List (Widget Float)}
    (hroots : (layout palette.config (0, 0) ws).result = .ok roots) :
    Succeeds (draw palette.unfailing ws).result ↔ CanBeDrawn palette roots := by
  rw [succeeds_draw_iff h]
  constructor
  · rintro ⟨roots', c, hroots', hc, hdrawable⟩
    obtain rfl := Except.ok.inj (hroots.symm.trans hroots')
    refine ⟨(succeeds_canvas_iff _).1 ⟨c, hc⟩, fun c' hc' p hp => ?_⟩
    obtain rfl := Except.ok.inj (hc.symm.trans hc')
    obtain ⟨x, hx, hall⟩ := hdrawable p hp
    exact ⟨x, hx, fun s hs => (isDrawable_iff _ s).1 (hall s hs)⟩
  · rintro ⟨hextents, hwidgets⟩
    obtain ⟨c, hc⟩ := (succeeds_canvas_iff _).2 hextents
    refine ⟨roots, c, hroots, hc, fun p hp => ?_⟩
    obtain ⟨x, hx, hall⟩ := hwidgets c hc p hp
    exact ⟨x, hx, fun s hs => (isDrawable_iff _ s).2 (hall s hs)⟩

/-- **Previews that overflow**: whatever properties and styles say, and whoever draws, as long as
only values that make no sense are no colors and every text can be measured: a preview without
images comes to its commands exactly when all sizes are finite that it comes to. Then what is left is
to carry them out. Else a number was too large, unless a command failed before. -/
theorem draw_plain {painter : Painter Float} (h : painter.IsReliable) (sheet : Sheet)
    (registry : Option Registry) (ws : List (Widget Float)) :
    ∃ r, (layout Config.standard (0, 0) ws).toExcept = .ok r
      ∧ (CanBeDrawn (plain sheet registry painter) r.value
          ∧ (∃ c ds, (draw (plain sheet registry painter.unfailing) ws).result = .ok (c, ds)
            ∧ (draw (plain sheet registry painter) ws).result
              = (painter.perform ds).map fun _ => (c, ds))
        ∨ ¬ CanBeDrawn (plain sheet registry painter) r.value
          ∧ ∃ fault, (draw (plain sheet registry painter) ws).result = .error fault
            ∧ (fault.kind = .overflow ∨ ∃ d, painter.carryOut d = .error fault)) := by
  obtain ⟨r, hr, -⟩ := exists_layout_areNatural ws
  have hplain : (plain sheet registry painter).IsPlain := ⟨rfl, h⟩
  have hiff := succeeds_draw_unfailing_iff hplain (Outcome.result_of_toExcept hr)
  have hperforms := performs_draw (plain sheet registry painter) ws
  refine ⟨r, hr, ?_⟩
  cases hdraw : (draw (plain sheet registry painter).unfailing ws).result with
  | ok drawn =>
    rw [hdraw] at hperforms
    obtain ⟨ds, hds, hreal⟩ := hperforms
    obtain rfl : drawn.2 = ds := hds
    exact .inl ⟨hiff.1 ⟨drawn, hdraw⟩, drawn.1, drawn.2, hdraw, hreal⟩
  | error fault =>
    rw [hdraw] at hperforms
    obtain ⟨fault', hreal, hfault⟩ := hperforms
    refine .inr ⟨fun hcan => ?_, fault', hreal, hfault.imp_left fun heq => ?_⟩
    · obtain ⟨_, hdrawn⟩ := hiff.2 hcan
      rw [hdraw] at hdrawn
      cases hdrawn
    · exact heq ▸ onlyOverflows_draw hplain rfl ws fault hdraw

/-- A panel with a border of no end. -/
def endlessBorder : List (Widget Float) :=
  [strangeWidget "p"
    [("width", "20"), ("height", "20"), ("border-color", "red"), ("border-width", "inf")] []]

theorem draw_plain_endlessBorder :
    (Painter.standard : Painter Float).IsReliable
      ∧ ∃ r, (layout Config.standard (0, 0) endlessBorder).toExcept = .ok r
        ∧ (CanBeDrawn (plain {} none .standard) r.value
            ∧ (∃ c ds,
              (draw (plain {} none Painter.standard.unfailing) endlessBorder).result = .ok (c, ds)
              ∧ (draw (plain {} none .standard) endlessBorder).result
                = (Painter.standard.perform ds).map fun _ => (c, ds))
          ∨ ¬ CanBeDrawn (plain {} none .standard) r.value
            ∧ ∃ fault, (draw (plain {} none .standard) endlessBorder).result = .error fault
              ∧ (fault.kind = .overflow
                ∨ ∃ d : Drawing Float, Painter.standard.carryOut d = .error fault)) :=
  ⟨Painter.isReliable_standard, draw_plain Painter.isReliable_standard {} none endlessBorder⟩

/-- Documents of one panel whose size, the width of its border, or the place of its text is
infinite. -/
def endlessTexts : List String :=
  ["Panel\n  id: p\n  size: inf inf\n",
    "Panel\n  id: p\n  size: 20 20\n  border-color: red\n  border-width: inf\n",
    "Panel\n  id: p\n  size: 20 20\n  text: Hi\n  text-offset-x: inf\n"]

/-- None of them is drawn, by a painter who carries out whatever the command is. -/
theorem draw_endlessTexts :
    (Painter.standard : Painter Float).IsReliable
      ∧ (∀ d : Drawing Float, Painter.standard.carryOut d = .ok ())
      ∧ endlessTexts.map (fun text =>
          (draw (plain {} none .standard) (Document.parsed text).expanded.widgets).fault?)
        = List.replicate 3 (some (.unroundable .infinite)) := by
  have hwithin : ∀ text ∈ endlessTexts,
      (Widget.expandedWithin? 9 (Document.parsed text : Document Float).templates
          (Document.parsed text).widgets).map
            (fun ws => (draw (plain {} none .standard) ws).fault?)
        = some (some (.unroundable .infinite)) := by
    decide +kernel
  refine ⟨Painter.isReliable_standard, fun _ => rfl,
    List.map_eq_replicate_iff.2 fun text htext => ?_⟩
  obtain ⟨ws, hws, hfault⟩ := Option.map_eq_some_iff.1 (hwithin text htext)
  rw [Document.widgets_expanded_eq hws, hfault]

end Preview

end Otui
