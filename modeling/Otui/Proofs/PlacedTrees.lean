import Otui.Proofs.Faults
import Otui.Proofs.PlacedForests

/-!
# Placed trees, widget by widget

A widget of a tree is found by its path: which child of the root leads to it, which child of that one,
and so on (`Tree.at?`). Placing goes from each widget to its children by their places alone
(`value_settledAll`), and to the roots by the sizes that they say (`result_layout`). So the widget at
a path in a placed tree is the widget at that path, placed (`exists_at?_settled`,
`exists_at?_layout`).
-/

namespace Otui

/-! ### Paths -/

/-- The subtree at a path. -/
def Tree.at? {β : Type} : List Nat → Tree β → Option (Tree β)
  | [], t => some t
  | k :: path, t => t.children[k]?.bind (Tree.at? path)

theorem getElem?_zipWith_of_length {β γ δ : Type} (f : β → γ → δ) {xs : List β} {ys : List γ}
    (h : xs.length = ys.length) {k : Nat} {y : γ} (hk : ys[k]? = some y) :
    ∃ x, (List.zipWith f xs ys)[k]? = some (f x y) := by
  obtain ⟨hlt, rfl⟩ := List.getElem?_eq_some_iff.1 hk
  have hx : k < xs.length := h ▸ hlt
  exact ⟨xs[k], by
    rw [List.getElem?_zipWith, List.getElem?_eq_getElem hx, List.getElem?_eq_getElem hlt]⟩

variable {α : Type} [Scalar α]

/-! ### Children -/

/-- Widgets are placed each by its own place. -/
theorem Widget.value_settledAll {ps : List (Placement α)} {ws : List (Widget α)}
    (h : ps.length = ws.length) :
    (Widget.settledAll ps ws).value = List.zipWith (fun p w => (Widget.settled p w).value) ps ws := by
  induction ws generalizing ps with
  | nil =>
    obtain rfl := List.length_eq_zero_iff.1 h
    rfl
  | cons w ws ih =>
    cases ps with
    | nil => cases h
    | cons p ps =>
      rw [List.zipWith_cons_cons, ← ih (Nat.succ.inj h)]
      rfl

/-- A widget is placed with its children, each by its own place. -/
theorem Widget.value_settled (p : Placement α) (e : Element α) (cs : List (Widget α)) :
    (Widget.settled p (.node e cs)).value
      = .node { e with placement := some p } (List.zipWith (fun p w => (Widget.settled p w).value)
          (childPlacements p e.properties.values cs).value cs) := by
  rw [← Widget.value_settledAll (length_childPlacements p _ cs)]
  rfl

theorem Widget.placement_settled (p : Placement α) (w : Widget α) :
    (Widget.settled p w).value.label.placement = some p := by
  cases w
  rfl

/-- Widgets that are placed each by its own place have these places. -/
theorem Widget.placements_zipWith {ps : List (Placement α)} {ws : List (Widget α)}
    (h : ps.length = ws.length) :
    (List.zipWith (fun p w => (Widget.settled p w).value) ps ws).map (fun d => d.label.placement)
      = ps.map some := by
  induction ws generalizing ps with
  | nil =>
    obtain rfl := List.length_eq_zero_iff.1 h
    rfl
  | cons w ws ih =>
    cases ps with
    | nil => cases h
    | cons p ps =>
      rw [List.zipWith_cons_cons, List.map_cons, List.map_cons, ih (Nat.succ.inj h),
        Widget.placement_settled]

/-- The widget at a path of a placed tree is the one at that path, placed. -/
theorem exists_at?_settled {path : List Nat} {t s : Widget α} (h : t.at? path = some s)
    (p : Placement α) :
    ∃ p', (Widget.settled p t).value.at? path = some (Widget.settled p' s).value := by
  induction path generalizing t p with
  | nil =>
    obtain rfl := Option.some.inj h
    exact ⟨p, rfl⟩
  | cons k path ih =>
    obtain ⟨e, cs⟩ := t
    obtain ⟨c, hc, hs⟩ := Option.bind_eq_some_iff.1 h
    obtain ⟨q, hq⟩ := getElem?_zipWith_of_length (fun p w => (Widget.settled p w).value)
      (length_childPlacements p e.properties.values cs) hc
    obtain ⟨p', hp'⟩ := ih hs q
    exact ⟨p', by rw [Widget.value_settled, Tree.at?, Tree.children_node, hq, Option.bind_some, hp']⟩

/-! ### Roots -/

/-- Roots are placed by the sizes that they say, and all below them by that. -/
theorem result_layout (config : Config α) (origin : α × α) (ws : List (Widget α)) :
    (layout config origin ws).result
      = ((ws.map Tree.label).mapM (config.rootPlacement origin)).map fun ps =>
        List.zipWith (fun p w => (Widget.settled p w).value) ps ws := by
  induction ws with
  | nil => rfl
  | cons w ws ih =>
    obtain ⟨e, cs⟩ := w
    rw [result_layout_cons, ih, List.map_cons, List.mapM_cons, Tree.label_node]
    cases config.rootPlacement origin e with
    | error fault => rfl
    | ok p =>
      cases (ws.map Tree.label).mapM (config.rootPlacement origin) with
      | error fault => rfl
      | ok ps => rfl

/-- The widget at a path of a placed forest is the one at that path, placed. -/
theorem exists_at?_layout {config : Config α} {origin : α × α} {ws : List (Widget α)}
    {r : Noted (List (Widget α))} (hr : (layout config origin ws).toExcept = .ok r) {k : Nat}
    {path : List Nat} {s : Widget α} (hs : ws[k]?.bind (Tree.at? path) = some s) :
    ∃ p, r.value[k]?.bind (Tree.at? path) = some (Widget.settled p s).value := by
  have hresult := Outcome.result_of_toExcept hr
  rw [result_layout] at hresult
  cases hps : (ws.map Tree.label).mapM (config.rootPlacement origin) with
  | error fault => rw [hps] at hresult; cases hresult
  | ok ps =>
    rw [hps] at hresult
    have hrvalue : List.zipWith (fun p w => (Widget.settled p w).value) ps ws = r.value :=
      Except.ok.inj hresult
    obtain ⟨w, hw, hws⟩ := Option.bind_eq_some_iff.1 hs
    obtain ⟨q, hq⟩ := getElem?_zipWith_of_length (fun p w => (Widget.settled p w).value)
      ((length_of_mapM hps).trans (List.length_map _)) hw
    obtain ⟨p, hp⟩ := exists_at?_settled hws q
    exact ⟨p, by rw [← hrvalue, hq, Option.bind_some, hp]⟩

end Otui
