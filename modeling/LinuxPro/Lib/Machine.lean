import Mathlib.Logic.Basic

/-! Guarded machines whose steps may fault, the runs they take, and invariants along those runs. -/

namespace LinuxPro

/-- A machine takes guarded actions, and each action either succeeds or ends in a fault. -/
structure Machine (State Action Fault : Type) where
  /-- The state every run begins in. -/
  start : State
  /-- When the environment may perform an action. -/
  enabled : State → Action → Prop
  /-- What performing the action does. -/
  exec : State → Action → Except Fault State

namespace Machine

variable {State Action Fault : Type} (m : Machine State Action Fault)

/-- One enabled action that runs to completion. -/
def Step (s : State) (a : Action) (t : State) : Prop :=
  m.enabled s a ∧ m.exec s a = .ok t

/-- A finite sequence of steps, indexed by the actions taken. -/
inductive Run : State → List Action → State → Prop where
  /-- No action leaves the state alone. -/
  | nil (s : State) : Run s [] s
  /-- The first action is taken before the rest of the run. -/
  | cons {s t u : State} {a : Action} {rest : List Action}
      (step : m.Step s a t) (tail : Run t rest u) : Run s (a :: rest) u

/-- A state some run from the start leads to. -/
def Reachable (s : State) : Prop :=
  ∃ actions, m.Run m.start actions s

variable {m}

/-- Two runs that meet form one longer run. -/
theorem Run.append {s t u : State} {first second : List Action}
    (left : m.Run s first t) (right : m.Run t second u) : m.Run s (first ++ second) u := by
  -- The actions of the first run are peeled off from the front.
  induction left with
  | nil => exact right
  | cons step _ ih => exact .cons step (ih right)

/-- A single step is a run of one action. -/
theorem Step.run {s t : State} {a : Action} (step : m.Step s a t) : m.Run s [a] t :=
  .cons step (.nil t)

/-- Continuing a reachable state by a run stays within the reachable states. -/
theorem Reachable.run {s t : State} {actions : List Action}
    (reached : m.Reachable s) (later : m.Run s actions t) : m.Reachable t := by
  -- The run that reached the first state is extended by the later one.
  obtain ⟨before, run⟩ := reached
  exact ⟨before ++ actions, run.append later⟩

/-- One more step from a reachable state is reachable. -/
theorem Reachable.step {s t : State} {a : Action}
    (reached : m.Reachable s) (step : m.Step s a t) : m.Reachable t :=
  reached.run step.run

/--
An assertion kept by every admissible step holds at the end of every admissible run.

The filter on actions lets a run be restricted to what the environment promised not to do.
-/
theorem Run.preserves (inv : State → Prop) (admits : Action → Prop)
    (kept : ∀ {s a t}, admits a → inv s → m.Step s a t → inv t)
    {s t : State} {actions : List Action} (run : m.Run s actions t)
    (admitted : ∀ a ∈ actions, admits a) (holds : inv s) : inv t := by
  -- Each step hands the assertion to the rest of the run.
  induction run with
  | nil => exact holds
  | cons step _ ih =>
    have head := kept (admitted _ (by simp)) holds step
    exact ih (fun a member => admitted a (by simp [member])) head

/-- An assertion that holds at the start and survives every step holds in every reachable state. -/
theorem Reachable.invariant (inv : State → Prop) (begins : inv m.start)
    (kept : ∀ {s a t}, inv s → m.Step s a t → inv t)
    {s : State} (reached : m.Reachable s) : inv s := by
  -- No action is excluded here, so every run is admissible.
  obtain ⟨actions, run⟩ := reached
  exact run.preserves inv (fun _ => True) (fun _ => kept) (fun _ _ => trivial) begins

/-- Perform a list of actions, giving up at the first that is not enabled or faults. -/
def play (m : Machine State Action Fault) [∀ s a, Decidable (m.enabled s a)] :
    State → List Action → Option State
  | s, [] => some s
  | s, a :: rest =>
    if m.enabled s a then
      match m.exec s a with
      | .ok t => m.play t rest
      | .error _ => none
    else none

/-- Playing a list of actions to its end takes a run of the machine. -/
theorem run_of_play [∀ s a, Decidable (m.enabled s a)] {s t : State} {actions : List Action}
    (played : m.play s actions = some t) : m.Run s actions t := by
  -- Each played action is one guarded step, and the rest of the list continues from its result.
  induction actions generalizing s with
  | nil =>
    simp only [play, Option.some.injEq] at played
    subst played
    exact .nil s
  | cons a rest ih =>
    simp only [play] at played
    split at played
    · rename_i guard
      cases performed : m.exec s a with
      | error fault => simp [performed] at played
      | ok next =>
        simp only [performed] at played
        exact .cons ⟨guard, performed⟩ (ih played)
    · cases played

/-- A list of actions that can be played to a state passing a test takes a run to such a state. -/
theorem exists_run_of_play (m : Machine State Action Fault) [∀ s a, Decidable (m.enabled s a)]
    (s : State) (actions : List Action) (test : State → Bool)
    (passed : (m.play s actions).any test = true) :
    ∃ t, m.Run s actions t ∧ test t = true := by
  cases played : m.play s actions with
  | none => simp [played] at passed
  | some t => exact ⟨t, run_of_play played, by simpa [played] using passed⟩

end Machine

end LinuxPro
