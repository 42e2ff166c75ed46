import LinuxPro.Echo.Callbacks
import LinuxPro.Event.LoopLaws

/-! What a dispatch of the echo server does to a connection, and what holds of every connection. -/

namespace LinuxPro.Echo

variable {w v : State} {p q : Ptr} {b c : Bev}

/-- A connection after `readcb` has echoed its input. -/
def refilled (p : Ptr) (b : Bev) : Bev :=
  { b with
    input := []
    output := b.output ++ b.input
    readcb := some .readcb
    writecb := some .drainedWritecb
    eventcb := none
    ctx := some p
    writeLow := lowMark
    writeHigh := 0
    enabled := b.enabled.without evRead }

/-- A connection after `drained_writecb` has let it read again. -/
def reopened (p : Ptr) (b : Bev) : Bev :=
  { b with
    readcb := some .readcb
    writecb := some .drainedWritecb
    eventcb := none
    ctx := some p
    writeLow := 0
    writeHigh := 0
    enabled := b.enabled ||| evRead
    readOffBy := none }

/-- On a live connection `readcb` moves the input to the output and stops reading. -/
theorem readcb_run (live : w.heap p = some b) (ctx : Option Ptr) :
    (readcb p ctx).run w =
      .ok ((), (w.enter (.data .readcb p ctx b.input.length)).put p (refilled p b)) := by
  -- Every call reads and writes the same bufferevent, so only the last store is left.
  simp [readcb, evbufferAddBuffer, evbufferStore, buffereventSetcb, buffereventSetwatermark,
    buffereventDisable, refilled, live]

/-- On a live connection with itself as context `drained_writecb` turns reading on. -/
theorem drainedWritecb_run (live : w.heap p = some b) :
    (drainedWritecb p (some p)).run w =
      .ok ((), (w.enter (.data .drainedWritecb p (some p) b.input.length)).put p
        (reopened p b)) := by
  simp [drainedWritecb, buffereventSetcb, buffereventSetwatermark, buffereventEnable, reopened,
    evRead, live]

/-- What holds of a live connection between any two steps. -/
structure Conn (p : Ptr) (b : Bev) : Prop where
  /-- The context is the connection itself. -/
  self : b.ctx = some p
  reading : b.readcb = some .readcb
  unwatched : b.eventcb = none
  /-- Before the first `readcb` there is no write callback, and none is pending. -/
  waiting : b.writecb = some .drainedWritecb ∨ (b.writecb = none ∧ b.writePending = false)
  /-- Both callbacks install a watermark of at most the one `readcb` asks for. -/
  low : b.writeLow ≤ lowMark
  /-- A notification that is pending was caused by output at or below the watermark. -/
  drained : b.writePending = true → b.output.length ≤ lowMark

/-- A connection that was just accepted. -/
def freshConn (p : Ptr) : Bev :=
  { readcb := some .readcb, ctx := some p, enabled := evWrite ||| (evRead ||| evWrite) }

/-- The memory after a client was accepted. -/
def accepted (w : State) : State :=
  ({ w with accepted := w.accepted + 1 } : State).put w.accepted (freshConn w.accepted)

/-- The listener allocates one connection and lets it read. -/
theorem listenerCb_run : (listenerCb ()).run w = .ok ((), accepted w) := by
  simp [listenerCb, buffereventSocketNew, buffereventSetcb, buffereventEnable, accepted,
    freshConn, evRead, evWrite]

/-- One connection was replaced, and the others are as they were. -/
structure Only (w v : State) (p : Ptr) (c : Bev) : Prop where
  heap : v.heap = Function.update w.heap p (some c)
  accepted : v.accepted = w.accepted

/-- The replaced connection is found under its pointer. -/
theorem Only.live (only : Only w v p c) : v.heap p = some c := by
  simp [only.heap]

/-- A connection after the read phase of a dispatch. -/
def afterRead (p : Ptr) (b : Bev) : Bev :=
  if b.readPending = true then refilled p { b with readPending := false } else b

/-- A connection after the write phase of a dispatch. -/
def afterWrite (p : Ptr) (b : Bev) : Bev :=
  if b.writePending = true then reopened p { b with writePending := false } else b

/-- Storing a live connection where it is changes nothing. -/
theorem only_self (live : w.heap p = some b) : Only w w p b :=
  ⟨by rw [← live, Function.update_eq_self], rfl⟩

/-- The read phase of a dispatch calls `readcb` if it is pending. -/
theorem runReadcb_run (conn : Conn p b) (live : w.heap p = some b) :
    ∃ v, (program.runReadcb p).run w = .ok ((), v) ∧ Only w v p (afterRead p b) := by
  cases pending : b.readPending with
  | false =>
    refine ⟨w, Program.runReadcb_idle live (.inl pending), ?_⟩
    simpa [afterRead, pending] using only_self live
  | true =>
    -- The mark is cleared before the callback is called.
    have cleared := World.put_heap_self w p { b with readPending := false }
    refine ⟨_, (Program.runReadcb_call live pending conn.reading conn.self).trans
      (readcb_run cleared (some p)), ?_⟩
    exact ⟨by simp [World.put, World.enter, afterRead, pending], rfl⟩

/-- The write phase of a dispatch calls `drained_writecb` if it is pending. -/
theorem runWritecb_run (live : w.heap p = some b) (self : b.ctx = some p)
    (waiting : b.writecb = some .drainedWritecb ∨ (b.writecb = none ∧ b.writePending = false)) :
    ∃ v, (program.runWritecb p).run w = .ok ((), v) ∧ Only w v p (afterWrite p b) := by
  -- A pending notification finds the callback that was installed for it.
  cases pending : b.writePending with
  | false =>
    refine ⟨w, Program.runWritecb_idle live (.inl pending), ?_⟩
    simpa [afterWrite, pending] using only_self live
  | true =>
    have installed : b.writecb = some .drainedWritecb := by simpa [pending] using waiting
    have cleared := World.put_heap_self w p { b with writePending := false }
    refine ⟨_, (Program.runWritecb_call live pending installed self).trans
      (drainedWritecb_run cleared), ?_⟩
    exact ⟨by simp [World.put, World.enter, afterWrite, pending], rfl⟩

/-- The read phase leaves a connection that the write phase can go on with. -/
theorem Conn.afterRead (conn : Conn p b) :
    (afterRead p b).ctx = some p ∧ (afterRead p b).eventcb = none ∧
      ((afterRead p b).writecb = some .drainedWritecb ∨
        ((afterRead p b).writecb = none ∧ (afterRead p b).writePending = false)) := by
  unfold Echo.afterRead
  split
  · simp [refilled]
  · exact ⟨conn.self, conn.unwatched, conn.waiting⟩

/-- No event callback is ever installed. -/
theorem afterWrite_eventcb (unwatched : b.eventcb = none) : (afterWrite p b).eventcb = none := by
  unfold afterWrite
  split
  · rfl
  · exact unwatched

/-- A dispatch runs its two data callbacks and touches no other connection. -/
theorem dispatch_run (conn : Conn p b) (live : w.heap p = some b) :
    ∃ v, (program.dispatch p).run w = .ok ((), v) ∧
      Only w v p (afterWrite p (afterRead p b)) := by
  obtain ⟨self, unwatched, waiting⟩ := conn.afterRead
  obtain ⟨first, read, onlyFirst⟩ := runReadcb_run conn live
  obtain ⟨second, write, onlySecond⟩ := runWritecb_run onlyFirst.live self waiting
  -- Without an event callback the third phase has nothing to call.
  have event : (program.runEventcb p).run second = .ok ((), second) :=
    Program.runEventcb_idle onlySecond.live (.inr (afterWrite_eventcb unwatched))
  refine ⟨second, by simp [Program.dispatch, read, write, event], ?_, ?_⟩
  · simp [onlySecond.heap, onlyFirst.heap]
  · rw [onlySecond.accepted, onlyFirst.accepted]

/-- After a dispatch a connection is as every connection is between two steps. -/
theorem Conn.dispatched (conn : Conn p b) : Conn p (afterWrite p (Echo.afterRead p b)) := by
  -- Whatever was pending has been delivered, so the queue length does not matter any more.
  unfold Echo.afterRead afterWrite
  cases reads : b.readPending with
  | true =>
    cases writes : b.writePending with
    | true => constructor <;> simp [refilled, reopened]
    | false => constructor <;> simp [refilled]
  | false =>
    cases writes : b.writePending with
    | true => constructor <;> simp [reopened, writes]
    | false => simpa [reads, writes] using conn

/-- Activity on the sockets keeps every connection as connections are. -/
theorem Conn.change (conn : Conn p b) {act : Action Ptr Unit} (change : Program.Change act p b c) :
    Conn p c := by
  cases change with
  | same => exact conn
  | receive _ _ =>
    exact ⟨conn.self, conn.reading, conn.unwatched, conn.waiting, conn.low, conn.drained⟩
  | report _ =>
    exact ⟨conn.self, conn.reading, conn.unwatched, conn.waiting, conn.low, conn.drained⟩
  | @send count _ =>
    refine ⟨conn.self, conn.reading, conn.unwatched, ?_, conn.low, ?_⟩
    · -- Without a write callback there is nothing to make pending.
      rcases conn.waiting with installed | ⟨none, idle⟩
      · exact .inl installed
      · exact .inr ⟨none, by simp [Program.drained, none, idle]⟩
    · intro pending
      have low := conn.low
      have before := conn.drained
      simp only [Program.drained, Bool.or_eq_true, Bool.and_eq_true, decide_eq_true_eq,
        List.length_drop] at pending ⊢
      -- Sending shortens the queue, so it stays short or has just become so.
      rcases pending with pending | ⟨-, crossed⟩
      · have := before pending
        omega
      · omega

/-- What holds of the whole memory between any two steps. -/
structure Ok (w : State) : Prop where
  conns : ∀ p b, w.heap p = some b → Conn p b
  /-- Connections that were not accepted yet are not there. -/
  fresh : ∀ p, w.accepted ≤ p → w.heap p = none

/-- A dispatch replaces one connection by what its callbacks make of it. -/
theorem step_dispatch (ok : Ok w) (step : echo.Step w (.dispatch p) v) :
    ∃ b, w.heap p = some b ∧ Only w v p (afterWrite p (afterRead p b)) := by
  -- The run that exists is the run that was made.
  obtain ⟨⟨b, live⟩, ran⟩ := step
  obtain ⟨v', ran', only⟩ := dispatch_run (ok.conns p b live) live
  have same : v' = v := by
    simpa [echo, Program.machine, Program.perform, ran', Except.map] using ran
  exact ⟨b, live, same ▸ only⟩

/-- Accepting a client adds one connection. -/
theorem step_accept {how : Unit} (step : echo.Step w (.accept how) v) : v = accepted w := by
  have ran := Program.step_accept step
  cases (listenerCb_run (w := w)).symm.trans ran
  rfl

/-- A new connection is as every connection is between two steps. -/
theorem conn_fresh : Conn p (freshConn p) := by
  constructor <;> simp [freshConn]

/-- Every step keeps the memory in order. -/
theorem Ok.step (ok : Ok w) {act : Action Ptr Unit} (step : echo.Step w act v) : Ok v := by
  -- One case for each action; the connections it does not concern are left alone.
  rcases act.accept_or_dispatch_or_network with ⟨how, rfl⟩ | ⟨p, rfl⟩ | network
  · cases step_accept step
    refine ⟨fun q c live => ?_, fun q late => ?_⟩
    · rcases World.live_of_put live with ⟨rfl, rfl⟩ | live
      · exact conn_fresh
      · exact ok.conns q c live
    · have later : w.accepted + 1 ≤ q := late
      have other : q ≠ w.accepted := by omega
      simpa [accepted, other] using ok.fresh q (by omega)
  · obtain ⟨b, was, only⟩ := step_dispatch ok step
    have here := (ok.conns p b was).dispatched
    refine ⟨fun q c live => ?_, fun q late => ?_⟩
    · by_cases same : q = p
      · subst same
        cases only.live.symm.trans live
        exact here
      · exact ok.conns q c (by simpa [only.heap, same] using live)
    · rw [only.accepted] at late
      have gone := ok.fresh q late
      have other : q ≠ p := by
        rintro rfl
        cases was.symm.trans gone
      simpa [only.heap, other] using gone
  · obtain ⟨-, same, kept, gone⟩ := Program.step_network network step
    refine ⟨fun q c live => ?_, fun q late => (gone q (ok.fresh q (same ▸ late))).1⟩
    cases was : w.heap q with
    | none => cases (gone q was).1.symm.trans live
    | some b =>
      obtain ⟨c', live', change⟩ := kept q b was
      cases live'.symm.trans live
      exact (ok.conns q b was).change change

/-- Before anything is accepted the memory is in order. -/
theorem ok_start : Ok echo.start where
  conns p b live := by cases live
  fresh p _ := rfl

/-- Every run leads from a memory in order to a memory in order. -/
theorem Ok.run {actions : List (Action Ptr Unit)} (ok : Ok w) (run : echo.Run w actions v) : Ok v :=
  run.preserves Ok (fun _ => True) (fun _ before step => before.step step)
    (fun _ _ => trivial) ok

end LinuxPro.Echo
