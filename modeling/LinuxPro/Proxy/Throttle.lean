import LinuxPro.Proxy.Dispatch

/-! A throttled direction can always be opened again, whichever way the pair got there. -/

namespace LinuxPro.Proxy

variable {w v : State} {x y : Ptr} {a b : Bev}

/-- The steps that write out one side's output and deliver its notifications. -/
def Drains (y : Ptr) : Action Ptr Bool → Prop
  | .send z _ => z = y
  | .dispatch z => z = y
  | _ => False

/-- A side that waits to report can write everything out and then report. -/
theorem Opened.drains (apart : x ≠ y) (opened : Opened w x y a b)
    (waiting : a.writecb = some .drainedWritecb) (quiet : a.eventPending.hangup = false) :
    ∃ actions v b', proxy.Run w actions v ∧ (∀ act ∈ actions, Drains x act) ∧
      v.heap y = some b' ∧ b'.enabled.read = true := by
  -- Only a hang-up could have stopped the side from writing.
  have sent : proxy.Step w (.send x a.output.length) (Program.written w x a a.output.length) :=
    ⟨⟨a, opened.near, opened.forth.writable quiet, Nat.le_refl _⟩, Program.exec_send opened.near _⟩
  -- An empty queue is at or below the watermark, so the notification is pending.
  obtain ⟨v, b', woken, far, on⟩ := (opened.send apart a.output.length).wakes apart waiting
    (by simp [Program.drained, waiting]) quiet
  refine ⟨_, v, b', .cons sent woken.run, ?_, far, on⟩
  simp [Drains]

/-- One large read chokes a direction without disturbing the opposite one. -/
theorem Opened.can_choke (apart : x ≠ y) (opened : Opened w x y a b)
    (reads : a.enabled.read = true) (quiet : a.eventPending = {}) (idle : a.writePending = false) :
    ∃ actions v a' b', proxy.Run w actions v ∧ Opened v x y a' b' ∧
      a'.enabled.read = false ∧ a'.eventPending = {} ∧ b'.enabled = b.enabled ∧
      b'.eventPending = b.eventPending ∧ b'.writePending = b.writePending := by
  let chunk : Bytes := List.replicate maxOutput 0
  have long : chunk.length = maxOutput := List.length_replicate
  have nonempty : chunk ≠ [] := by
    intro empty
    simp [empty, maxOutput] at long
  have arrived : proxy.Step w (.receive x chunk) (Program.received w x a chunk) :=
    ⟨⟨a, opened.near, reads, nonempty⟩, Program.exec_receive opened.near _⟩
  -- The chunk alone is as long as the limit.
  have full : Full { a with input := a.input ++ chunk, readPending := true } b := by
    simp only [Full, List.length_append, long]
    omega
  obtain ⟨v, a', b', choked, rest⟩ :=
    (opened.receive apart reads chunk).chokes apart rfl full idle quiet
  exact ⟨_, v, a', b', .cons arrived choked.run, rest⟩

/-- Both directions of one pair can be throttled at the same time. -/
theorem exists_both_choked : ∃ w x a b, proxy.Reachable w ∧ Opened w x x.peer a b ∧
    a.enabled.read = false ∧ b.enabled.read = false ∧ a.eventPending = {} ∧
    b.eventPending = {} := by
  -- A pair that was just accepted reads in both directions.
  let idle (a : Bev) : Bool := a.enabled.read && !a.writePending && decide (a.eventPending = {})
  obtain ⟨start, accepted, passed⟩ := proxy.exists_run_of_play proxy.start [.accept true]
    (fun w => (w.heap firstIn).any idle && (w.heap firstOut).any idle) (by decide)
  simp only [idle, Bool.and_eq_true, Bool.not_eq_true', decide_eq_true_eq, Option.any_eq_true]
    at passed
  obtain ⟨⟨a, near, ⟨reads, calm⟩, quiet⟩, b, far, ⟨reads', calm'⟩, quiet'⟩ := passed
  have apart : firstIn ≠ firstOut := by decide
  have opened : Opened start firstIn firstOut a b :=
    ((ok_reachable ⟨_, accepted⟩).pairs firstIn).of_both near far
  -- Choking one direction leaves the other side ready to be choked in turn.
  obtain ⟨_, first, a₁, b₁, run, opened₁, off, none, same, sameEvents, samePending⟩ :=
    opened.can_choke apart reads quiet calm
  obtain ⟨_, second, b₂, a₂, run', opened₂, off', none', same', sameEvents', -⟩ :=
    opened₁.symm.can_choke apart.symm (by rw [same, reads']) (by rw [sameEvents, quiet'])
      (by rw [samePending, calm'])
  refine ⟨second, firstIn, a₂, b₂, (Machine.Reachable.run ⟨_, accepted⟩ run).run run',
    opened₂.symm, by rw [same', off], off', by rw [sameEvents', none], none'⟩

/--
Back-pressure cannot deadlock.

A side that has not hung up is off exactly while its partner waits to report that it has drained.
That report is still ahead of the partner's output or already pending, so writing the output out and dispatching the partner is enough to read again, or to see the partner released if it hung up.
Both directions can be throttled at once.
-/
theorem throttle_never_stuck :
    (∀ w, proxy.Reachable w → ∀ x a b, w.heap x = some a → w.heap x.peer = some b →
      a.eventPending.hangup = false →
      (a.enabled.read = false ↔ b.writecb = some .drainedWritecb ∧ b.ctx = some x ∧
        b.writeLow = maxOutput / 2) ∧
      (a.enabled.read = false →
        (maxOutput / 2 < b.output.length ∨ b.writePending = true) ∧
        ∃ actions v, proxy.Run w actions v ∧ (∀ act ∈ actions, Drains x.peer act) ∧
          ((∃ a', v.heap x = some a' ∧ a'.enabled.read = true) ∨
            (b.eventPending.hangup = true ∧ v.heap x.peer = none)))) ∧
    ∃ w x a b, proxy.Reachable w ∧ w.heap x = some a ∧ w.heap x.peer = some b ∧
      a.eventPending.hangup = false ∧ b.eventPending.hangup = false ∧
      a.enabled.read = false ∧ b.enabled.read = false := by
  refine ⟨?_, ?_⟩
  · intro w reached x a b near far quiet
    have apart := Ptr.peer_ne x
    have ok := ok_reachable reached
    have opened := (ok.pairs x).of_both near far
    have off_iff : a.enabled.read = false ↔ b.writecb = some .drainedWritecb := by
      refine ⟨fun off => ?_, fun waiting => (opened.forth.choked waiting).1⟩
      by_contra free
      simp [(opened.forth.unchoked free).2.2.2 quiet] at off
    refine ⟨⟨fun off => ?_, fun waits => off_iff.mpr waits.1⟩, fun off => ?_⟩
    · have waiting := off_iff.mp off
      exact ⟨waiting, opened.back.partner, (opened.forth.choked waiting).2.2⟩
    · have waiting := off_iff.mp off
      refine ⟨opened.forth.sound.woken (by simp [flow, waiting]), ?_⟩
      cases hangup : b.eventPending.hangup with
      | false =>
        obtain ⟨actions, v, a', run, drains, live, on⟩ :=
          opened.symm.drains apart waiting hangup
        exact ⟨actions, v, run, drains, .inl ⟨a', live, on⟩⟩
      | true =>
        -- The partner left for good, and its next dispatch releases it.
        have enabled : proxy.enabled w (.dispatch x.peer) := ⟨b, far⟩
        obtain ⟨v, ran, -⟩ := ok.exec enabled
        have step : proxy.Step w (.dispatch x.peer) v := ⟨enabled, ran⟩
        exact ⟨_, v, step.run, by simp [Drains], .inr ⟨rfl,
          dispatch_hangup (ok.pairs x.peer) far hangup step⟩⟩
  · obtain ⟨w, x, a, b, reached, opened, off, off', quiet, quiet'⟩ := exists_both_choked
    exact ⟨w, x, a, b, reached, opened.near, opened.far, by simp [quiet, BevEvents.hangup],
      by simp [quiet', BevEvents.hangup], off, off'⟩

/-- With both directions throttled, either side can be made to read again. -/
theorem throttle_never_stuck_both : ∃ w x a b, proxy.Reachable w ∧
    w.heap x = some a ∧ w.heap x.peer = some b ∧ a.enabled.read = false ∧
    b.enabled.read = false ∧ b.writecb = some .drainedWritecb ∧
    ∃ actions v a', proxy.Run w actions v ∧ v.heap x = some a' ∧ a'.enabled.read = true := by
  -- With no hang-up pending on either side, the run that exists turns the reading on.
  obtain ⟨throttle, w, x, a, b, reached, near, far, quiet, quiet', off, off'⟩ :=
    throttle_never_stuck
  obtain ⟨waits, opens⟩ := throttle w reached x a b near far quiet
  obtain ⟨-, actions, v, run, -, ⟨a', live, on⟩ | ⟨hangup, -⟩⟩ := opens off
  · exact ⟨w, x, a, b, reached, near, far, off, off', (waits.mp off).1, actions, v, a', run,
      live, on⟩
  · simp [quiet'] at hangup

end LinuxPro.Proxy
