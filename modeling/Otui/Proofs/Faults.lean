import Mathlib.Data.List.Forall2

/-!
# Runs without a fault

A run of steps that ends with a result is one in which no step ended with a fault. What is known of
such a run is known of its steps: of one step after another, of a check, and of a step that is taken
for every entry of a list (`mapM_eq_ok_iff`).
-/

namespace Otui

variable {ε β γ : Type}

theorem exists_of_bind_eq_ok {x : Except ε β} {f : β → Except ε γ} {c : γ}
    (h : x >>= f = .ok c) : ∃ b, x = .ok b ∧ f b = .ok c := by
  cases x with
  | error fault => cases h
  | ok b => exact ⟨b, rfl, h⟩

theorem not_and_of_ite_error_eq_ok {c : Prop} [Decidable c] {fault : ε} {x : Except ε β} {y : β}
    (h : (if c then .error fault else x) = .ok y) : ¬c ∧ x = .ok y := by
  split at h
  · cases h
  · next hc => exact ⟨hc, h⟩

section mapM

variable {f : β → Except ε γ}

/-- A step that is taken for every entry of a list gives the results entry by entry. -/
theorem mapM_eq_ok_iff {xs : List β} {ys : List γ} :
    xs.mapM f = .ok ys ↔ List.Forall₂ (fun x y => f x = .ok y) xs ys := by
  constructor
  · intro h
    induction xs generalizing ys with
    | nil =>
      obtain rfl := Except.ok.inj h
      exact .nil
    | cons x xs ih =>
      rw [List.mapM_cons] at h
      obtain ⟨y, hy, h⟩ := exists_of_bind_eq_ok h
      obtain ⟨zs, hzs, h⟩ := exists_of_bind_eq_ok h
      obtain rfl := Except.ok.inj h
      exact .cons hy (ih hzs)
  · intro h
    induction h with
    | nil => rfl
    | cons hy _ ih =>
      rw [List.mapM_cons, hy, ih]
      rfl

theorem mapM_eq_ok {g : β → γ} {xs : List β} (h : ∀ x ∈ xs, f x = .ok (g x)) :
    xs.mapM f = .ok (xs.map g) := by
  rwa [mapM_eq_ok_iff, List.forall₂_map_right_iff, List.forall₂_same]

/-- What is read back item by item is read back as a list. -/
theorem mapM_map_eq_ok {g : γ → β} (xs : List γ) (h : ∀ x ∈ xs, f (g x) = .ok x) :
    (xs.map g).mapM f = .ok xs := by
  rwa [mapM_eq_ok_iff, List.forall₂_map_left_iff, List.forall₂_same]

theorem exists_mapM {P : γ → Prop} (h : ∀ x, ∃ y, f x = .ok y ∧ P y) (xs : List β) :
    ∃ ys, xs.mapM f = .ok ys ∧ ∀ y ∈ ys, P y := by
  choose g hg hP using h
  refine ⟨xs.map g, mapM_eq_ok fun x _ => hg x, fun y hy => ?_⟩
  obtain ⟨x, -, rfl⟩ := List.mem_map.1 hy
  exact hP x

theorem length_of_mapM {xs : List β} {ys : List γ} (h : xs.mapM f = .ok ys) :
    ys.length = xs.length :=
  (mapM_eq_ok_iff.1 h).length_eq.symm

/-- What every step says of its result holds of all results. -/
theorem forall_mem_of_mapM {P : γ → Prop} {xs : List β} {ys : List γ} (h : xs.mapM f = .ok ys)
    (hP : ∀ x ∈ xs, ∀ y, f x = .ok y → P y) : ∀ y ∈ ys, P y := by
  rw [mapM_eq_ok_iff] at h
  induction h with
  | nil => exact List.forall_mem_nil P
  | cons hy _ ih =>
    obtain ⟨hx, hxs⟩ := List.forall_mem_cons.1 hP
    exact List.forall_mem_cons.2 ⟨hx _ hy, ih hxs⟩

/-- Each entry has its result at its place. -/
theorem exists_getElem?_of_mapM {xs : List β} {ys : List γ} (h : xs.mapM f = .ok ys) {k : Nat}
    {x : β} (hx : xs[k]? = some x) : ∃ y, ys[k]? = some y ∧ f x = .ok y := by
  rw [mapM_eq_ok_iff] at h
  induction h generalizing k with
  | nil => cases hx
  | cons hy _ ih =>
    cases k with
    | zero => exact ⟨_, rfl, Option.some.inj hx ▸ hy⟩
    | succ k => exact ih hx

end mapM

end Otui
