import Mathlib.Control.Monad.Basic

/-! Rewriting rules that run straight-line code over a state until it returns or faults. -/

namespace LinuxPro

variable {ε α β : Type}

/-- A computation that succeeded hands its result to the next one. -/
@[simp] theorem ok_bind (value : α) (next : α → Except ε β) :
    (Except.ok value >>= next) = next value := rfl

/-- A computation that faulted is not continued. -/
@[simp] theorem error_bind (fault : ε) (next : α → Except ε β) :
    (Except.error fault >>= next) = .error fault := rfl

/-- Returning a value succeeds. -/
@[simp] theorem pure_ok (value : α) : (pure value : Except ε α) = .ok value := rfl

/-- Throwing leaves no state behind. -/
@[simp] theorem throw_run {σ : Type} (fault : ε) (s : σ) :
    (throw fault : StateT σ (Except ε) α).run s = .error fault := rfl

/-- Throwing faults. -/
@[simp] theorem throw_error (fault : ε) : (throw fault : Except ε α) = .error fault := rfl

end LinuxPro
