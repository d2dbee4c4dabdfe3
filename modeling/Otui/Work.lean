import Otui.Files.Access
import Otui.Outcome

/-!
# Work with files

Work goes on in some monad with files. It changes a state and speaks notices on the way, and what it
changed and spoke stays when it ends with a fault.
-/

namespace Otui

/-- Work that changes a state, speaks notices and may end with a fault. -/
abbrev Work (σ : Type) (m : Type → Type) : Type → Type :=
  ExceptT Fault (StateT σ (StateT (List Notice) m))

namespace Work

variable {σ : Type} {m : Type → Type} [Monad m] {β : Type}

/-- Speaks a notice. -/
def say (n : Notice) : Work σ m Unit := fun s notices => pure ((.ok (), s), notices ++ [n])

/-- A result with notices. -/
def ofNoted (x : Noted β) : Work σ m β :=
  fun s notices => pure ((.ok x.value, s), notices ++ x.notices)

/-- An outcome with notices. -/
def ofOutcome (x : Outcome β) : Work σ m β :=
  fun s notices => pure ((x.value, s), notices ++ x.notices)

/-- A result or a fault. -/
def ofExcept (x : Except Fault β) : Work σ m β := fun s notices => pure ((x, s), notices)

/-- A step of the monad with files. -/
def lift (x : m β) : Work σ m β := fun s notices => do
  let v ← x
  return ((.ok v, s), notices)

/-- A step of the monad with files that may fail. -/
def liftExcept (x : m (Except Fault β)) : Work σ m β := fun s notices => do
  let v ← x
  return ((v, s), notices)

/-- Work with a state of its own, whose end state is dropped. -/
def inside {τ : Type} (start : τ) (w : Work τ m β) : Work σ m β := fun s notices => do
  let ((r, _), notices) ← w start notices
  return ((r, s), notices)

/-- The result of work, the state and the notices after it. -/
def complete (w : Work σ m β) (start : σ) : m (Outcome β × σ) := do
  let ((r, s), notices) ← w start []
  return (⟨r, notices⟩, s)

end Work

end Otui
