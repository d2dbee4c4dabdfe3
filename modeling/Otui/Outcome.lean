import Otui.Fault
import Otui.Notice

/-!
# Outcomes

A request ends with a result or with a fault, and either way with the notices that came up until
then.
-/

namespace Otui

/-- A result with notices, or a fault. -/
abbrev Outcome (β : Type) := ExceptT Fault Noted β

namespace Outcome

variable {β : Type}

/-- A result with notices that is no fault. -/
def ofNoted (x : Noted β) : Outcome β := ExceptT.lift x

/-- A result without notices. -/
def ofExcept (x : Except Fault β) : Outcome β := ExceptT.mk (pure x)

/-- The result with its notices, when there is no fault. -/
def toExcept (x : Outcome β) : Except Fault (Noted β) :=
  (ExceptT.run x).value.map fun v => ⟨v, (ExceptT.run x).notices⟩

/-- The result without the notices. -/
def result (x : Outcome β) : Except Fault β := (ExceptT.run x).value

/-! ### The result -/

theorem result_pure (b : β) : (pure b : Outcome β).result = .ok b := rfl

theorem result_ofExcept (x : Except Fault β) : (ofExcept x).result = x := rfl

variable {γ : Type}

theorem result_bind (x : Outcome β) (f : β → Outcome γ) :
    (x >>= f).result = x.result >>= fun b => (f b).result := by
  change (ExceptT.run (x >>= f)).value = (ExceptT.run x).value >>= fun b => (ExceptT.run (f b)).value
  rw [ExceptT.run_bind, Noted.value_bind]
  cases (ExceptT.run x).value <;> rfl

theorem result_mapM (f : β → Outcome γ) (xs : List β) :
    (xs.mapM f).result = xs.mapM fun x => (f x).result := by
  induction xs with
  | nil => rfl
  | cons x xs ih =>
    rw [List.mapM_cons, List.mapM_cons, result_bind]
    simp only [result_bind, result_pure, ih]
    rfl

theorem map_toExcept (x : Outcome β) (f : β → γ) :
    x.toExcept.map (fun r => f r.value) = x.result.map f := by
  rw [toExcept, result]
  cases (ExceptT.run x).value <;> rfl

theorem result_of_toExcept {x : Outcome β} {r : Noted β} (h : x.toExcept = .ok r) :
    x.result = .ok r.value := by
  have hresult := map_toExcept x id
  rw [h] at hresult
  cases hx : x.result with
  | error fault =>
    rw [hx] at hresult
    cases hresult
  | ok b =>
    rw [hx] at hresult
    exact hresult.symm

end Outcome

end Otui
