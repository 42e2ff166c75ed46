import LinuxPro.Lib.Fault

/-! Code that succeeds exactly on a condition, and how such conditions add up in sequence. -/

namespace LinuxPro

variable {σ ε α β : Type}

/--
A computation succeeds exactly if a condition holds, and then its result is as asserted.

This is a total specification: a condition that does not hold means a fault, not silence.
-/
def OkIff (outcome : Except ε α) (condition : Prop) (ends : α → Prop) : Prop :=
  (condition → ∃ value, outcome = .ok value ∧ ends value) ∧
    (¬ condition → ∃ fault, outcome = .error fault)

namespace OkIff

variable {outcome : Except ε α} {next : α → Except ε β} {condition later : Prop}
  {ends : α → Prop} {after : β → Prop}

/-- A computation that cannot fault succeeds without a condition. -/
theorem of_ok {value : α} (ran : outcome = .ok value) (ended : ends value) :
    OkIff outcome True ends :=
  ⟨fun _ => ⟨value, ran, ended⟩, fun never => absurd trivial never⟩

/-- Two computations in sequence need what each of them needs. -/
theorem bind (first : OkIff outcome condition ends)
    (second : ∀ value, ends value → OkIff (next value) later after) :
    OkIff (outcome >>= next) (condition ∧ later) after := by
  by_cases holds : condition
  · -- Once the first has succeeded, the second decides.
    obtain ⟨value, rfl, ended⟩ := first.1 holds
    obtain ⟨succeeds, faults⟩ := second value ended
    exact ⟨fun both => succeeds both.2, fun either => faults fun rest => either ⟨holds, rest⟩⟩
  · -- The second is not reached.
    obtain ⟨fault, rfl⟩ := first.2 holds
    exact ⟨fun both => absurd both.1 holds, fun _ => ⟨fault, rfl⟩⟩

/-- An equivalent condition will do, and so will an assertion that follows. -/
theorem imp {condition' : Prop} {ends' : α → Prop} (spec : OkIff outcome condition ends)
    (same : condition ↔ condition') (weaker : ∀ value, ends value → ends' value) :
    OkIff outcome condition' ends' := by
  refine ⟨fun holds => ?_, fun fails => spec.2 (mt same.mp fails)⟩
  obtain ⟨value, ran, ended⟩ := spec.1 (same.mpr holds)
  exact ⟨value, ran, weaker value ended⟩

/-- Whether the computation succeeds at all is the condition. -/
theorem exists_iff (spec : OkIff outcome condition ends) :
    (∃ value, outcome = .ok value) ↔ condition := by
  constructor
  · -- Without the condition there would be a fault in place of the result.
    rintro ⟨value, rfl⟩
    by_contra fails
    obtain ⟨fault, faulted⟩ := spec.2 fails
    cases faulted
  · intro holds
    obtain ⟨value, ran, _⟩ := spec.1 holds
    exact ⟨value, ran⟩

end OkIff

/-- Code succeeds from a state exactly if a condition holds, and then ends as asserted. -/
def SucceedsIff (code : StateT σ (Except ε) α) (s : σ) (condition : Prop)
    (ends : α → σ → Prop) : Prop :=
  OkIff (code.run s) condition fun ended => ends ended.1 ended.2

namespace SucceedsIff

variable {code : StateT σ (Except ε) α} {next : α → StateT σ (Except ε) β} {s : σ}
  {condition later : Prop} {ends : α → σ → Prop} {after : β → σ → Prop}

/-- Two pieces of code in sequence need what each of them needs. -/
theorem bind (first : SucceedsIff code s condition ends)
    (second : ∀ value t, ends value t → SucceedsIff (next value) t later after) :
    SucceedsIff (code >>= next) s (condition ∧ later) after :=
  OkIff.bind first fun ended => second ended.1 ended.2

/-- Code that cannot fault adds nothing to what the code before it needs. -/
theorem bind_always (first : SucceedsIff code s condition ends)
    (second : ∀ value t, ends value t → SucceedsIff (next value) t True after) :
    SucceedsIff (code >>= next) s condition after :=
  OkIff.imp (first.bind second) (and_iff_left trivial) fun _ ended => ended

/-- Code that cannot fault adds nothing to what the code behind it needs. -/
theorem always_bind (first : SucceedsIff code s True ends)
    (second : ∀ value t, ends value t → SucceedsIff (next value) t later after) :
    SucceedsIff (code >>= next) s later after :=
  OkIff.imp (first.bind second) (and_iff_right trivial) fun _ ended => ended

/-- Reading the state needs nothing. -/
theorem get {next : σ → StateT σ (Except ε) β} (spec : SucceedsIff (next s) s condition after) :
    SucceedsIff (MonadState.get >>= next) s condition after := spec

/-- Changing the state needs nothing. -/
theorem modify {change : σ → σ} {ends : PUnit → σ → Prop} (ended : ends ⟨⟩ (change s)) :
    SucceedsIff (modify change : StateT σ (Except ε) PUnit) s True ends :=
  .of_ok rfl ended

/-- Changing the state first needs what the rest needs from the changed one. -/
theorem modify_bind {change : σ → σ} {next : PUnit → StateT σ (Except ε) β}
    (spec : SucceedsIff (next ⟨⟩) (change s) condition after) :
    SucceedsIff (MonadStateOf.modifyGet (fun s => (⟨⟩, change s)) >>= next) s condition after :=
  spec

end SucceedsIff

end LinuxPro
