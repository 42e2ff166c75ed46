import LinuxPro.Proxy.Fidelity

/-! What a whole dispatch does to a pair: it relays, wakes, and closes, in this order. -/

namespace LinuxPro.Proxy

variable {w v first second : State} {x y : Ptr} {a b : Bev}

/-- A dispatch whose three phases run is a step of the proxy. -/
theorem dispatch_of_phases (live : w.heap x = some a)
    (read : (program.runReadcb x).run w = .ok ((), first))
    (write : (program.runWritecb x).run first = .ok ((), second))
    (event : (program.runEventcb x).run second = .ok ((), v)) : proxy.Step w (.dispatch x) v :=
  ⟨⟨a, live⟩, by
    simp [proxy, Program.machine, Program.perform, Program.dispatch, read, write, event,
      Except.map]⟩

/-- A dispatch of an open pair that reaches the limit stops the reading side and nothing else. -/
theorem Opened.chokes (apart : x ≠ y) (opened : Opened w x y a b)
    (pending : a.readPending = true) (full : Full a b) (idle : a.writePending = false)
    (quiet : a.eventPending = {}) :
    ∃ v a' b', proxy.Step w (.dispatch x) v ∧ Opened v x y a' b' ∧
      a'.enabled.read = false ∧ a'.eventPending = {} ∧ b'.enabled = b.enabled ∧
      b'.eventPending = b.eventPending ∧ b'.writePending = b.writePending := by
  have relayed := opened.relay apart
  refine ⟨_, _, _, ?_, relayed, ?_, by simp [quiet], by simp, by simp, by simp⟩
  · -- Nothing is pending after the read callback, so the other two phases return at once.
    exact dispatch_of_phases opened.near (opened.run_relay apart pending)
      (Program.runWritecb_idle relayed.near (.inl (by simp [idle])))
      (Program.runEventcb_idle relayed.near (.inl (by simp [quiet])))
  · have full' : Full { a with readPending := false } b := full
    simp [full']

/-- The read phase of an open pair leaves it open, with the same notifications outstanding. -/
theorem Opened.run_read (apart : x ≠ y) (opened : Opened w x y a b) :
    ∃ v a' b', (program.runReadcb x).run w = .ok ((), v) ∧ Opened v x y a' b' ∧
      a'.writecb = a.writecb ∧ a'.writePending = a.writePending ∧
      a'.eventPending = a.eventPending := by
  -- Either nothing is pending, or the input is relayed.
  cases pending : a.readPending with
  | false =>
    exact ⟨w, a, b, Program.runReadcb_idle opened.near (.inl pending), opened, rfl, rfl, rfl⟩
  | true =>
    exact ⟨_, _, _, opened.run_relay apart pending, opened.relay apart, by simp, by simp, by simp⟩

/-- The event phase releases nothing unless a hang-up is pending. -/
theorem run_quiet (live : w.heap x = some a) (watching : a.eventcb = some .eventcb)
    (quiet : a.eventPending.hangup = false) :
    ∃ v a', (program.runEventcb x).run w = .ok ((), v) ∧ v.heap x = some a' ∧
      ∀ z, z ≠ x → v.heap z = w.heap z := by
  -- With reports pending the callback runs, but returns at once.
  by_cases none : a.eventPending = {}
  · exact ⟨w, a, Program.runEventcb_idle live (.inl none), live, fun _ _ => rfl⟩
  · exact ⟨_, _, run_other live watching quiet none, by simp; rfl, by simp +contextual⟩

/-- A dispatch that finds a drain notification pending lets the partner read again. -/
theorem Opened.wakes (apart : x ≠ y) (opened : Opened w x y a b)
    (waiting : a.writecb = some .drainedWritecb) (pending : a.writePending = true)
    (quiet : a.eventPending.hangup = false) :
    ∃ v b', proxy.Step w (.dispatch x) v ∧ v.heap y = some b' ∧ b'.enabled.read = true := by
  -- Reading first may choke the opposite direction, but not take the notification back.
  obtain ⟨first, a', b', read, opened', sameCb, samePending, sameEvents⟩ := opened.run_read apart
  rw [← sameCb] at waiting
  rw [← samePending] at pending
  rw [← sameEvents] at quiet
  have write := opened'.run_resume apart pending waiting
  have awaken := opened'.resume apart pending
  obtain ⟨v, _, event, -, others⟩ := run_quiet awaken.near awaken.forth.watching quiet
  exact ⟨v, unblocked b', dispatch_of_phases opened.near read write event,
    (others y apart.symm).trans awaken.far, by simp [evRead]⟩

/-- A phase leaves a pending hang-up pending, or has released the side. -/
theorem Phase.hangup (apart : x ≠ y) (phase : Phase x y w v) (live : w.heap x = some a)
    (hangup : a.eventPending.hangup = true) :
    v.heap x = none ∨ ∃ a', v.heap x = some a' ∧ a'.eventPending.hangup = true := by
  -- A phase that keeps the side keeps its reports, unless they were harmless.
  cases phase with
  | idle => exact .inr ⟨a, live, hangup⟩
  | relay opened _ =>
    cases live.symm.trans opened.near
    exact .inr ⟨_, (opened.relay apart).near, by simpa using hangup⟩
  | resume opened pending _ =>
    cases live.symm.trans opened.near
    exact .inr ⟨_, (opened.resume apart pending).near, hangup⟩
  | other present quiet =>
    cases live.symm.trans present
    simp [quiet] at hangup
  | linger draining _ left =>
    cases live.symm.trans draining.live
    exact .inr ⟨_, (draining.linger apart left _).live, hangup⟩
  | flush => exact .inl (by simp)
  | close => exact .inl (by simp)
  | finish => exact .inl (by simp)
  | abandon => exact .inl (by simp)

/-- The event phase releases a side with a hang-up pending. -/
theorem runEventcb_hangup (apart : x ≠ y) (ok : PairOk w x y) (live : w.heap x = some a)
    (hangup : a.eventPending.hangup = true)
    (ran : (program.runEventcb x).run w = .ok ((), v)) : v.heap x = none := by
  -- Whichever state the pair is in, the event callback releases the side it runs for.
  rcases ok.of_live live with ⟨b, opened⟩ | draining
  · by_cases empty : b.output ++ a.input = []
    · cases (opened.run_close apart hangup empty).symm.trans ran
      simp
    · cases (opened.run_flush apart hangup empty).symm.trans ran
      simp
  · cases (draining.run_abandon hangup).symm.trans ran
    simp

/-- A side with a hang-up pending is released by its next dispatch. -/
theorem dispatch_hangup (ok : PairOk w x x.peer) (live : w.heap x = some a)
    (hangup : a.eventPending.hangup = true) (step : proxy.Step w (.dispatch x) v) :
    v.heap x = none := by
  have apart := (Ptr.peer_ne x).symm
  obtain ⟨first, second, ⟨-, read⟩, ⟨-, write⟩, ⟨ran, event⟩⟩ := step_dispatch ok step
  -- The hang-up survives the first two phases, since only the third handles it.
  rcases read.hangup apart live hangup with gone | ⟨a', live', hangup'⟩
  · exact event.gone (write.gone gone)
  · rcases write.hangup apart live' hangup' with gone | ⟨c, live'', hangup''⟩
    · exact event.gone gone
    · have okSecond := write.pairOk apart (read.pairOk apart ok)
      exact runEventcb_hangup apart okSecond live'' hangup'' ran

/-- A quiet dispatch of a side left to drain releases it only through the closing callback. -/
theorem Draining.dispatch (draining : Draining w x.peer x a)
    (quiet : a.eventPending.hangup = false) (step : proxy.Step w (.dispatch x) v)
    (released : v.heap x = none) :
    a.writePending = true ∧ a.output = [] ∧
      v = (w.enter (.data .closeOnFinishedWritecb x none a.input.length)).drop x := by
  have apart := (Ptr.peer_ne x).symm
  have ok : PairOk w x x.peer := .inr (.inr (.inl ⟨a, draining⟩))
  obtain ⟨first, second, ⟨read, -⟩, ⟨write, -⟩, ⟨event, -⟩⟩ := step_dispatch ok step
  -- No read callback is installed any more.
  cases (Program.runReadcb_idle draining.live (.inr draining.deaf)).symm.trans read
  -- As long as the write callback leaves the side live, so does the event callback.
  have survives : ∀ {c : Bev}, second.heap x = some c → c.eventcb = some .eventcb →
      c.eventPending.hangup = false → False := by
    intro c live watching quiet
    obtain ⟨v', c', event', live', -⟩ := run_quiet live watching quiet
    cases event'.symm.trans event
    cases live'.symm.trans released
  cases pending : a.writePending with
  | false =>
    cases (Program.runWritecb_idle draining.live (.inl pending)).symm.trans write
    exact (survives draining.live draining.watching quiet).elim
  | true =>
    by_cases done : a.output = []
    · cases (draining.run_finish pending done).symm.trans write
      cases (Program.runEventcb_gone (by simp)).symm.trans event
      exact ⟨rfl, done, rfl⟩
    · cases (draining.run_linger pending done).symm.trans write
      exact (survives (draining.linger apart done _).live draining.watching quiet).elim

end LinuxPro.Proxy
