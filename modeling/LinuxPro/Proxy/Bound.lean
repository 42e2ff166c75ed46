import LinuxPro.Proxy.Fidelity

/-! The memory a connection can occupy is bounded by the throttle and the size of one read. -/

namespace LinuxPro.Proxy

variable {w v : State} {x y : Ptr} {a b : Bev} {limit : Nat}

/-- No `readcb` so far found more than this much input. -/
def ReadsAtMost (limit : Nat) (w : State) : Prop :=
  ∀ x ctx input, Call.data .readcb x ctx input ∈ w.calls → input ≤ limit

/-- Every live output queue is below the choking limit and one read more. -/
def Bounded (limit : Nat) (w : State) : Prop :=
  ∀ x b, w.heap x = some b → b.output.length < maxOutput + limit

/-- What was at most the limit with a longer record was so with a shorter one. -/
theorem ReadsAtMost.mono (grown : ∀ call ∈ w.calls, call ∈ v.calls)
    (atMost : ReadsAtMost limit v) : ReadsAtMost limit w :=
  fun x ctx input member => atMost x ctx input (grown _ member)

/-- Relaying appends at most one read to a queue that had room for it. -/
theorem Opened.bounded_relay (opened : Opened w x y a b) (atMost : a.input.length ≤ limit)
    (before : b.output.length < maxOutput + limit) :
    (b.output ++ a.input).length < maxOutput + limit :=
  opened.forth.sound.relay_bounded atMost before

/-- A phase keeps every output queue bounded. -/
theorem Phase.bounded (phase : Phase x y w v) (before : Bounded limit w)
    (atMost : ReadsAtMost limit v) : Bounded limit v := by
  -- Only `readcb` appends to a queue, and it appends what was unread.
  intro z c live
  obtain ⟨b, was, -, same | ⟨a, opened, called, grown⟩⟩ := phase.survivor live
  · rw [same]
    exact before z b was
  · rw [grown]
    exact opened.bounded_relay (atMost _ _ _ called) (before z b was)

/-- Every step keeps every output queue bounded. -/
theorem Bounded.step (ok : Ok w) {act : Action Ptr Bool} (step : proxy.Step w act v)
    (before : ReadsAtMost limit w → Bounded limit w) :
    ReadsAtMost limit v → Bounded limit v := by
  rcases dispatch_or_settled act with ⟨z, rfl⟩ | settled
  · -- The record after a phase covers the record before it.
    exact dispatch_preserves (fun s => ReadsAtMost limit s → Bounded limit s) (ok.pairs z) step
      (fun phase bounded atMost => phase.bounded (bounded (atMost.mono phase.grown)) atMost) before
  · intro atMost z c live
    rw [ReadsAtMost, step_calls step settled] at atMost
    rcases step_changed step settled live with ⟨-, rfl⟩ | ⟨b, was, change⟩
    · -- The queues of a new pair are empty.
      show 0 < maxOutput + limit
      unfold maxOutput
      omega
    · have room := before atMost z b was
      cases change with
      | same => exact room
      | receive _ _ => exact room
      | send _ =>
        simp only [Program.drained, List.length_drop]
        omega
      | report _ => exact room

/--
No output queue reaches the choking limit by more than the largest input that was ever relayed.

While both ends are live, a side that `readcb` stopped has nothing unread, and so has any side that is off without having hung up.
A side that still reads has a partner with room left.
-/
theorem output_bounded (reached : proxy.Reachable w) (atMost : ReadsAtMost limit w) :
    (∀ x b, w.heap x = some b → b.output.length < maxOutput + limit) ∧
    (∀ x a b, w.heap x = some a → w.heap x.peer = some b →
      (a.readOffBy = some .readcb → a.enabled.read = false ∧ a.input = []) ∧
      (a.enabled.read = false → a.eventPending.hangup = false → a.input = []) ∧
      (a.enabled.read = true → b.output.length < maxOutput)) := by
  have ok := ok_reachable reached
  refine ⟨?_, ?_⟩
  · have both : Ok w ∧ (ReadsAtMost limit w → Bounded limit w) := by
      refine reached.invariant (fun w => Ok w ∧ (ReadsAtMost limit w → Bounded limit w))
        ⟨ok_start, ?_⟩ fun before step => ⟨before.1.step step, .step before.1 step before.2⟩
      intro _ x b live
      cases live
    exact both.2 atMost
  · intro x a b near far
    have wired := ((ok.pairs x).of_both near far).forth
    by_cases choked : b.writecb = some .drainedWritecb
    · obtain ⟨off, -, -⟩ := wired.choked choked
      have empty : a.input = [] := wired.sound.starved (by simp [flow, choked])
      exact ⟨fun _ => ⟨off, empty⟩, fun _ _ => empty, fun on => by simp [off] at on⟩
    · obtain ⟨-, -, blameless, on⟩ := wired.unchoked choked
      have room : b.output.length < maxOutput := wired.sound.roomy (by simp [flow, choked])
      refine ⟨fun blamed => by simp [blameless] at blamed, ?_, fun _ => room⟩
      intro off quiet
      simp [on quiet] at off

/-- With reads of at most three bytes, a queue stays below the limit and three bytes. -/
theorem output_bounded_three : ∃ w b, proxy.Reachable w ∧ ReadsAtMost 3 w ∧
    w.heap firstOut = some b ∧ b.output = [1, 2, 3, 4] ∧ b.output.length < maxOutput + 3 := by
  -- Two reads are relayed, the longer one of three bytes.
  obtain ⟨w, run, passed⟩ := proxy.exists_run_of_play proxy.start
    [.accept true, .receive firstIn [1, 2, 3], .dispatch firstIn, .receive firstIn [4],
      .dispatch firstIn]
    (fun w => (w.heap firstOut).any (fun b : Bev => decide (b.output = [1, 2, 3, 4])) &&
      w.calls.all fun
        | .data _ _ _ input => decide (input ≤ 3)
        | .event .. => true) (by decide)
  simp only [Bool.and_eq_true, Option.any_eq_true, decide_eq_true_eq, List.all_eq_true] at passed
  obtain ⟨⟨b, live, output⟩, reads⟩ := passed
  have atMost : ReadsAtMost 3 w := by
    intro x ctx input member
    simpa using reads _ member
  exact ⟨w, b, ⟨_, run⟩, atMost, live, output, (output_bounded ⟨_, run⟩ atMost).1 _ b live⟩

end LinuxPro.Proxy
