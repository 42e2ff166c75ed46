import LinuxPro.Proxy.Fidelity

/-! No callback of the proxy ever meets a released bufferevent, and none is released twice. -/

namespace LinuxPro.Proxy

variable {w v : State} {x y : Ptr} {a b : Bev}

/-- Every `readcb` and `drained_writecb` so far was entered with a partner. -/
def Partnered (w : State) : Prop :=
  ∀ cb x ctx input, Call.data cb x ctx input ∈ w.calls → cb ≠ .closeOnFinishedWritecb → ctx ≠ none

/-- A phase enters `readcb` and `drained_writecb` only with a partner. -/
theorem Phase.partnered (phase : Phase x y w v) (before : Partnered w) : Partnered v := by
  -- The only callback entered without a partner is the closing one.
  intro cb z ctx input member relays
  rcases phase.entered member with member | ⟨a, -, same | same | same | ⟨_, same⟩⟩
  · exact before cb z ctx input member relays
  · cases same; simp
  · cases same; simp
  · cases same; exact absurd rfl relays
  · cases same

/-- Every step enters `readcb` and `drained_writecb` only with a partner. -/
theorem Partnered.step (before : Partnered w) (ok : Ok w) {act : Action Ptr Bool}
    (step : proxy.Step w act v) : Partnered v := by
  rcases dispatch_or_settled act with ⟨z, rfl⟩ | settled
  · exact dispatch_preserves Partnered (ok.pairs z) step (fun phase => phase.partnered) before
  · -- Nothing but a dispatch enters a callback.
    unfold Partnered
    rw [step_calls step settled]
    exact before

/-- In every reachable state the record shows a partner for each relaying callback. -/
theorem partnered_reachable (reached : proxy.Reachable w) : Partnered w := by
  -- Steps keep the record only in a memory that is in order.
  have both : Ok w ∧ Partnered w := by
    refine reached.invariant (fun w => Ok w ∧ Partnered w) ⟨ok_start, ?_⟩ ?_
    · simp [Partnered, proxy, Program.machine, World.empty]
    · exact fun before step => ⟨before.1.step step, before.2.step before.1 step⟩
  exact both.2

/--
Contexts never dangle, and every object is released at most once.

A live bufferevent is either partnered with a live one that points back, or it stands alone with its closing callbacks and reads nothing.
Whatever happens next, no code touches a released bufferevent.
The branches of `readcb` and `drained_writecb` for a missing partner have never been taken.
-/
theorem contexts_never_dangle (reached : proxy.Reachable w) :
    (∀ x a, w.heap x = some a →
      (∃ y b, a.ctx = some y ∧ w.heap y = some b ∧ b.ctx = some x) ∨
      (a.ctx = none ∧ a.readcb = none ∧ a.writecb = some .closeOnFinishedWritecb ∧
        a.eventcb = some .eventcb ∧ a.enabled.read = false)) ∧
    w.freed.Nodup ∧ (∀ x ∈ w.freed, w.heap x = none) ∧
    (∀ act, proxy.enabled w act → ∃ v, proxy.exec w act = .ok v) ∧
    (∀ cb x ctx input, Call.data cb x ctx input ∈ w.calls →
      cb = .readcb ∨ cb = .drainedWritecb → ctx ≠ none) := by
  -- Every part is read off the invariant of the reachable memory.
  have ok := ok_reachable reached
  refine ⟨?_, ok.lives.once, ok.lives.dead, ?_, ?_⟩
  · intro x a live
    rcases (ok.pairs x).of_live live with ⟨b, opened⟩ | draining
    · exact .inl ⟨x.peer, b, opened.forth.partner, opened.far, opened.back.partner⟩
    · exact .inr ⟨draining.alone, draining.deaf, draining.closing, draining.watching,
        draining.stopped⟩
  · intro act enabled
    obtain ⟨v, ran, -⟩ := ok.exec enabled
    exact ⟨v, ran⟩
  · intro cb x ctx input member relays
    refine partnered_reachable reached cb x ctx input member ?_
    rintro rfl
    simp at relays

/-- After a client hangs up, the server's end stands alone and any later action still runs. -/
theorem contexts_never_dangle_alone : ∃ w, proxy.Reachable w ∧ w.freed = [firstIn] ∧
    (∃ b, w.heap firstOut = some b ∧ b.ctx = none ∧
      b.writecb = some .closeOnFinishedWritecb ∧ b.enabled.read = false) ∧
    ∀ act, proxy.enabled w act → ∃ v, proxy.exec w act = .ok v := by
  -- Three bytes are still queued for the server when the client hangs up.
  obtain ⟨w, run, passed⟩ := proxy.exists_run_of_play proxy.start
    [.accept true, .receive firstIn [1, 2, 3], .dispatch firstIn,
      .report firstIn { eof := true } evRead, .dispatch firstIn]
    (fun w => decide (w.freed = [firstIn]) &&
      (w.heap firstOut).any fun b : Bev => decide (b.ctx = none)) (by decide)
  simp only [Bool.and_eq_true, Option.any_eq_true, decide_eq_true_eq] at passed
  obtain ⟨freed, b, live, alone⟩ := passed
  obtain ⟨contexts, -, -, runs, -⟩ := contexts_never_dangle ⟨_, run⟩
  rcases contexts firstOut b live with ⟨y, c, partner, -⟩ | ⟨-, -, closing, -, stopped⟩
  · simp [alone] at partner
  · exact ⟨w, ⟨_, run⟩, freed, ⟨b, live, alone, closing, stopped⟩, runs⟩

end LinuxPro.Proxy
