import LinuxPro.Proxy.Dispatch

/-! When one side hangs up, the other is closed once its output has been written. -/

namespace LinuxPro.Proxy

variable {w v u : State} {x y : Ptr} {a b : Bev}

/-- An action that reports an end of file or an error on one side. -/
def HangsUp (y : Ptr) : Action Ptr Bool → Prop
  | .report z what _ => z = y ∧ what.hangup = true
  | _ => False

/-- One side has not hung up, and is not about to. -/
structure Silent (w : State) (y : Ptr) : Prop where
  handled : ¬ HungUp w y
  pending : ∀ b, w.heap y = some b → b.eventPending.hangup = false

/-- A side of a connection that was accepted and has been released. -/
structure Left (w : State) (x : Ptr) (received : Bytes) : Prop where
  gone : w.heap x = none
  old : x.conn < w.accepted
  received : w.received x = received

/-- A phase does not make a silent side hang up. -/
theorem Phase.silent (phase : Phase x y w v) {z : Ptr} (silent : Silent w z) : Silent v z where
  handled := by
    rintro ⟨what, ctx, member, hangup⟩
    rcases phase.entered member with member | ⟨a, live, same | same | same | ⟨_, same⟩⟩
    · exact silent.handled ⟨what, ctx, member, hangup⟩
    · cases same
    · cases same
    · cases same
    -- The event callback is entered with what was pending.
    · cases same
      simp [silent.pending a live] at hangup
  pending := by
    intro c live
    obtain ⟨b, was, same | cleared, -⟩ := phase.survivor live
    · rw [same]
      exact silent.pending b was
    · simp [cleared, BevEvents.hangup]

/-- A side stays silent as long as no hang-up is reported on it. -/
theorem Silent.step (ok : Ok w) (silent : Silent w y) {act : Action Ptr Bool}
    (spared : ¬ HangsUp y act) (step : proxy.Step w act v) : Silent v y := by
  -- A hang-up becomes pending by a report only, and is handled by a dispatch only.
  rcases dispatch_or_settled act with ⟨z, rfl⟩ | settled
  · exact dispatch_preserves (Silent · y) (ok.pairs z) step (fun phase => phase.silent) silent
  · refine ⟨?_, fun c live => ?_⟩
    · rintro ⟨what, ctx, member, hangup⟩
      exact silent.handled ⟨what, ctx, step_calls step settled ▸ member, hangup⟩
    · rcases step_changed step settled live with ⟨-, rfl⟩ | ⟨b, was, change⟩
      · rfl
      · have quiet := silent.pending b was
        cases change with
        | same => exact quiet
        | receive _ _ => exact quiet
        | send _ => exact quiet
        | @report what stopped reports =>
          have harmless : what.hangup = false := by simpa [reports, HangsUp] using spared
          simp [Program.reported, quiet, harmless]

/-- Between dispatches nothing is read from a side that is gone, and none is forgotten. -/
theorem step_history {act : Action Ptr Bool} (step : proxy.Step w act v)
    (settled : ∀ z, act ≠ .dispatch z) (gone : w.heap x = none) :
    w.accepted ≤ v.accepted ∧ v.received x = w.received x := by
  -- The listener counts connections, and the sockets read from what is live.
  rcases act.accept_or_dispatch_or_network with ⟨how, rfl⟩ | ⟨z, rfl⟩ | network
  · obtain ⟨-, accepted, received, -⟩ := step_accept_keeps step
    exact ⟨by omega, by rw [received]⟩
  · exact absurd rfl (settled z)
  · obtain ⟨-, accepted, -, dead⟩ := Program.step_network network step
    exact ⟨Nat.le_of_eq accepted.symm, (dead x gone).2⟩

/-- A dispatch neither reads from nor writes to a socket, and accepts nothing. -/
theorem dispatch_bytes (ok : PairOk w x x.peer) (step : proxy.Step w (.dispatch x) v) :
    v.received = w.received ∧ v.sent = w.sent ∧ v.accepted = w.accepted :=
  dispatch_preserves
    (fun s => s.received = w.received ∧ s.sent = w.sent ∧ s.accepted = w.accepted) ok step
    (fun phase before => ⟨phase.received.trans before.1, phase.sent.trans before.2.1,
      phase.accepted.trans before.2.2⟩) ⟨rfl, rfl, rfl⟩

/-- A side that left stays away, and nothing more is read from it. -/
theorem Left.step (ok : Ok w) {bytes : Bytes} (left : Left w x bytes) {act : Action Ptr Bool}
    (step : proxy.Step w act v) : Left v x bytes := by
  rcases dispatch_or_settled act with ⟨z, rfl⟩ | settled
  · obtain ⟨received, -, accepted⟩ := dispatch_bytes (ok.pairs z) step
    have gone := dispatch_preserves (fun s => s.heap x = none) (ok.pairs z) step
      (fun phase => phase.gone) left.gone
    exact ⟨gone, accepted ▸ left.old, received ▸ left.received⟩
  · obtain ⟨accepted, received⟩ := step_history step settled left.gone
    refine ⟨?_, Nat.lt_of_lt_of_le left.old accepted, received.trans left.received⟩
    cases after : v.heap x with
    | none => rfl
    | some c =>
      -- A new object would belong to a later connection.
      rcases step_changed step settled after with ⟨new, -⟩ | ⟨b, was, -⟩
      · exact absurd new (Nat.ne_of_lt left.old)
      · cases was.symm.trans left.gone

/-- Only a dispatch of a pair releases one of its sides. -/
theorem step_releases (ok : Ok w) (live : w.heap y = some b) {act : Action Ptr Bool}
    (step : proxy.Step w act v) (released : v.heap y = none) :
    act = .dispatch y ∨ act = .dispatch y.peer := by
  -- The three kinds of actions are taken in turn.
  rcases act.accept_or_dispatch_or_network with ⟨how, rfl⟩ | ⟨z, rfl⟩ | network
  · have kept := (step_accept_keeps step).2.2.2 y (ok.conn_lt live)
    rw [kept, live] at released
    cases released
  · by_cases same : z.conn = y.conn
    · rcases Ptr.eq_or_eq_peer same with rfl | rfl
      · exact .inl rfl
      · exact .inr rfl
    · -- The callbacks of another pair do not touch this one.
      have near : y ≠ z := by rintro rfl; exact same rfl
      have far : y ≠ z.peer := by rintro rfl; simp at same
      have still := dispatch_preserves (fun s => s.heap y = some b) (ok.pairs z) step
        (fun phase found => (phase.sameAt near far).heap.trans found) live
      cases still.symm.trans released
  · -- Sockets only change what is live.
    obtain ⟨c, still, -⟩ := (Program.step_network network step).2.2.1 y b live
    cases still.symm.trans released

/-- Once one side is gone, the other drains or is gone too. -/
theorem PairOk.of_gone (ok : PairOk w x y) (gone : w.heap x = none) :
    (∃ b, Draining w x y b) ∨ Over w x y := by
  -- An open pair and one that drains towards the other side have this side live.
  rcases ok with ⟨a, b, opened⟩ | draining | ⟨a, draining⟩ | finished
  · cases opened.near.symm.trans gone
  · exact .inl draining
  · cases draining.live.symm.trans gone
  · exact .inr finished

/-- What a side is like while it only waits for its output to be written. -/
structure Closing (b : Bev) : Prop where
  alone : b.ctx = none
  deaf : b.readcb = none
  closing : b.writecb = some .closeOnFinishedWritecb
  stopped : b.enabled.read = false
  busy : b.output ≠ [] ∨ b.writePending = true

/-- A side whose partner is gone is closing, and its queue is all that is left to send. -/
theorem PairOk.closing (ok : PairOk w x y) (gone : w.heap x = none) (live : w.heap y = some b) :
    Closing b ∧ w.received x = w.sent y ++ b.output := by
  -- Of the two states with one side gone, only one has the other live.
  rcases ok.of_gone gone with ⟨c, draining⟩ | finished
  · cases live.symm.trans draining.live
    exact ⟨⟨draining.alone, draining.deaf, draining.closing, draining.stopped, draining.busy⟩,
      draining.whole⟩
  · cases live.symm.trans finished.far

/-- A side that never hung up has been sent everything once both are gone. -/
theorem Silent.delivered (ok : PairOk w x y) (silent : Silent w y) (gone : w.heap x = none)
    (released : w.heap y = none) : w.sent y = w.received x := by
  -- Bytes are given up only by a side that hung up itself.
  rcases ok.of_gone gone with ⟨c, draining⟩ | finished
  · cases draining.live.symm.trans released
  · exact (finished.forth.2.resolve_left silent.handled).symm

/-- A closing side that does not hang up is released by the closing callback alone. -/
theorem Silent.released (ok : Ok w) (silent : Silent w x.peer) (gone : w.heap x = none)
    (live : w.heap x.peer = some b) {act : Action Ptr Bool} (step : proxy.Step w act v)
    (released : v.heap x.peer = none) :
    act = .dispatch x.peer ∧ b.output = [] ∧ b.writePending = true ∧
      v = (w.enter (.data .closeOnFinishedWritecb x.peer none b.input.length)).drop x.peer := by
  -- Of the dispatches that release, only the one of the closing side itself can happen.
  rcases step_releases ok live step released with rfl | rfl
  · rcases (ok.pairs x).of_gone gone with ⟨c, draining⟩ | finished
    · cases live.symm.trans draining.live
      have draining : Draining w x.peer.peer x.peer b := by simpa using draining
      obtain ⟨pending, done, same⟩ := draining.dispatch (silent.pending b live) step released
      exact ⟨rfl, done, pending, same⟩
    · cases live.symm.trans finished.far
  · -- The other side is gone, so it cannot be dispatched.
    obtain ⟨c, present⟩ := step.1
    rw [Ptr.peer_peer, gone] at present
    cases present

/-- What is known of a run along which one side never hangs up. -/
theorem silent_run {actions : List (Action Ptr Bool)} (reached : proxy.Reachable w)
    (run : proxy.Run w actions v) (spared : ∀ act ∈ actions, ¬ HangsUp y act)
    (silent : Silent w y) : Silent v y := by
  -- The memory being in order is carried along, since the step lemma needs it.
  have both := run.preserves (fun s => Ok s ∧ Silent s y) (fun act => ¬ HangsUp y act)
    (fun harmless before step => ⟨before.1.step step, before.2.step before.1 harmless step⟩)
    spared ⟨ok_reachable reached, silent⟩
  exact both.2

/-- A side that left stays away for the rest of the run. -/
theorem left_run {actions : List (Action Ptr Bool)} (reached : proxy.Reachable w)
    (run : proxy.Run w actions v) {bytes : Bytes} (left : Left w x bytes) : Left v x bytes := by
  have both := run.preserves (fun s => Ok s ∧ Left s x bytes) (fun _ => True)
    (fun _ before step => ⟨before.1.step step, before.2.step before.1 step⟩)
    (fun _ _ => trivial) ⟨ok_reachable reached, left⟩
  exact both.2

/--
When one side hangs up and its partner never does, the partner is drained and then closed.

The side that hung up is released by its dispatch.
The partner is released along with it if there was nothing left to send.
Otherwise it stays in its closing state, where its queue only shrinks, until the closing callback finds the queue empty.
By then everything read from the side that hung up has been sent.
-/
theorem drain_then_close {before after : List (Action Ptr Bool)}
    (run : proxy.Run proxy.start before w) (live : w.heap x = some a)
    (hangup : a.eventPending.hangup = true) (step : proxy.Step w (.dispatch x) v)
    (later : proxy.Run v after u)
    (spared : ∀ act ∈ before ++ after, ¬ HangsUp x.peer act) :
    (v.heap x = none ∧ u.heap x = none) ∧
    (∃ b, w.heap x.peer = some b ∧
      (v.heap x.peer = none → b.output = [] ∧ a.input = [])) ∧
    (v.heap x.peer = none → u.heap x.peer = none) ∧
    (u.heap x.peer = none → u.sent x.peer = u.received x) ∧
    (∀ c d, v.heap x.peer = some c → u.heap x.peer = some d →
      Closing d ∧ u.sent x.peer ++ d.output = v.sent x.peer ++ c.output) ∧
    (∀ d act t, u.heap x.peer = some d → proxy.Step u act t → t.heap x.peer = none →
      act = .dispatch x.peer ∧ d.output = [] ∧ d.writePending = true ∧
      t = (u.enter (.data .closeOnFinishedWritecb x.peer none d.input.length)).drop x.peer) := by
  -- The three states are in order, which gives the state of the pair in each.
  have reached : proxy.Reachable w := ⟨_, run⟩
  have reachedV := reached.step step
  have reachedU := reachedV.run later
  have okW := ok_reachable reached
  have okV := ok_reachable reachedV
  have okU := ok_reachable reachedU
  -- The partner is silent before, right after, and later.
  have silentW : Silent w x.peer := silent_run ⟨[], .nil _⟩ run
    (fun act member => spared act (List.mem_append_left _ member))
    ⟨by simp [HungUp, proxy, Program.machine, World.empty], fun b live => by cases live⟩
  have silentV := silentW.step okW (by simp [HangsUp]) step
  have silentU := silent_run reachedV later
    (fun act member => spared act (List.mem_append_right _ member)) silentV
  -- The side that hung up is gone, and nothing more is read from it.
  have goneV := dispatch_hangup (okW.pairs x) live hangup step
  obtain ⟨sameReceived, sameSent, sameAccepted⟩ := dispatch_bytes (okW.pairs x) step
  have leftU : Left u x (v.received x) := left_run reachedV later
    ⟨goneV, sameAccepted ▸ okW.conn_lt live, rfl⟩
  refine ⟨⟨goneV, leftU.gone⟩, ?_, ?_, ?_, ?_, ?_⟩
  · rcases (okW.pairs x).of_live live with ⟨b, opened⟩ | draining
    · refine ⟨b, opened.far, fun released => ?_⟩
      have sent := silentV.delivered (okV.pairs x) goneV released
      rw [sameReceived, sameSent] at sent
      have whole : w.received x = w.sent x.peer ++ b.output ++ a.input :=
        opened.forth.sound.whole
      rw [← sent] at whole
      simpa using whole
    · exact absurd draining.hung silentW.handled
  · intro released
    have old : x.peer.conn < v.accepted := by
      rw [Ptr.peer_conn, sameAccepted]
      exact okW.conn_lt live
    exact (left_run reachedV later ⟨released, old, rfl⟩).gone
  · exact silentU.delivered (okU.pairs x) leftU.gone
  · intro c d liveV liveU
    obtain ⟨closing, whole⟩ := (okU.pairs x).closing leftU.gone liveU
    refine ⟨closing, ?_⟩
    rw [← whole, leftU.received, ((okV.pairs x).closing goneV liveV).2]
  · intro d act t liveU next released
    exact silentU.released okU leftU.gone liveU next released

/-- A client that hangs up with bytes queued and unread leaves the server one byte from closing. -/
theorem drain_then_close_last_byte : ∃ w v u a c d,
    proxy.Reachable w ∧ w.heap firstIn = some a ∧ a.eventPending.hangup = true ∧ a.input = [4] ∧
    proxy.Step w (.dispatch firstIn) v ∧ v.heap firstOut = some c ∧ c.output = [2, 3, 4] ∧
    proxy.Run v [.send firstOut 2] u ∧ u.heap firstIn = none ∧
    u.heap firstOut = some d ∧ d.output = [4] ∧ Closing d ∧
    u.sent firstOut ++ d.output = v.sent firstOut ++ c.output := by
  -- The run up to the hang-up is played, then the dispatch, then one write.
  obtain ⟨w, run, passed⟩ := proxy.exists_run_of_play proxy.start
    [.accept true, .receive firstIn [1, 2, 3], .dispatch firstIn, .send firstOut 1,
      .receive firstIn [4], .report firstIn { eof := true } evRead]
    (fun w => (w.heap firstIn).any
        (fun a : Bev => a.eventPending.hangup && decide (a.input = [4])) &&
      (proxy.play w [.dispatch firstIn]).any fun v =>
        (v.heap firstOut).any (fun c : Bev => decide (c.output = [2, 3, 4])) &&
        (proxy.play v [.send firstOut 2]).any fun u =>
          (u.heap firstOut).any fun d : Bev => decide (d.output = [4])) (by decide)
  simp only [Bool.and_eq_true, Option.any_eq_true, decide_eq_true_eq] at passed
  obtain ⟨⟨a, live, hangup, input⟩, v, played, ⟨c, far, queued⟩, u, played', d, far', queued'⟩ :=
    passed
  cases Machine.run_of_play played with
  | cons step tail =>
    cases tail
    have later := Machine.run_of_play played'
    obtain ⟨⟨-, gone⟩, -, -, -, closing, -⟩ := drain_then_close run live hangup step later
      (by simp [HangsUp, firstIn, Ptr.peer])
    obtain ⟨state, whole⟩ := closing c d far far'
    exact ⟨w, v, u, a, c, d, ⟨_, run⟩, live, hangup, input, step, far, queued, later, gone, far',
      queued', state, whole⟩

end LinuxPro.Proxy
