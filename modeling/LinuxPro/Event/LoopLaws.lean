import LinuxPro.Event.BuffereventLaws
import LinuxPro.Event.Loop

/-! What the event loop does in each phase of a dispatch, and to a connection's queues. -/

namespace LinuxPro

/-- Activity on the sockets, as opposed to code of the application. -/
def Action.IsNetwork {Ptr Listen : Type} : Action Ptr Listen → Prop
  | .accept _ | .dispatch _ => False
  | .receive .. | .send .. | .report .. => True

/-- Whatever happens next is an acceptance, a dispatch, or activity on a socket. -/
theorem Action.accept_or_dispatch_or_network {Ptr Listen : Type} (act : Action Ptr Listen) :
    (∃ how, act = .accept how) ∨ (∃ p, act = .dispatch p) ∨ act.IsNetwork := by
  cases act <;> simp [IsNetwork]

namespace Program

variable {Ptr DataCb EventCb Listen : Type} [DecidableEq Ptr]
  {prog : Program Ptr DataCb EventCb Listen}
  {w : World Ptr DataCb EventCb} {p : Ptr} {b : Bufferevent Ptr DataCb EventCb}

/-- No read callback is called on a bufferevent that is gone. -/
theorem runReadcb_gone (gone : w.heap p = none) : (prog.runReadcb p).run w = .ok ((), w) := by
  simp [runReadcb, gone]

/-- No write callback is called on a bufferevent that is gone. -/
theorem runWritecb_gone (gone : w.heap p = none) : (prog.runWritecb p).run w = .ok ((), w) := by
  simp [runWritecb, gone]

/-- No event callback is called on a bufferevent that is gone. -/
theorem runEventcb_gone (gone : w.heap p = none) : (prog.runEventcb p).run w = .ok ((), w) := by
  simp [runEventcb, gone]

/-- Without a pending or an installed read callback nothing is called. -/
theorem runReadcb_idle (live : w.heap p = some b)
    (idle : b.readPending = false ∨ b.readcb = none) : (prog.runReadcb p).run w = .ok ((), w) := by
  -- Either half of the test is enough to return at once.
  rcases idle with idle | idle
  · simp [runReadcb, live, idle]
  · cases pending : b.readPending <;> simp [runReadcb, live, idle, pending]

/-- Without a pending or an installed write callback nothing is called. -/
theorem runWritecb_idle (live : w.heap p = some b)
    (idle : b.writePending = false ∨ b.writecb = none) :
    (prog.runWritecb p).run w = .ok ((), w) := by
  rcases idle with idle | idle
  · simp [runWritecb, live, idle]
  · cases pending : b.writePending <;> simp [runWritecb, live, idle, pending]

/-- Without a pending report or an installed event callback nothing is called. -/
theorem runEventcb_idle (live : w.heap p = some b)
    (idle : b.eventPending = {} ∨ b.eventcb = none) : (prog.runEventcb p).run w = .ok ((), w) := by
  rcases idle with idle | idle
  · cases installed : b.eventcb <;> simp [runEventcb, live, idle, installed]
  · simp [runEventcb, live, idle]

/-- A pending read callback is called once its mark has been cleared. -/
theorem runReadcb_call (live : w.heap p = some b) (pending : b.readPending = true) {cb : DataCb}
    (installed : b.readcb = some cb) {ctx : Option Ptr} (context : b.ctx = ctx) :
    (prog.runReadcb p).run w =
      (prog.data cb p ctx).run (w.put p { b with readPending := false }) := by
  simp [runReadcb, live, pending, installed, ← context]

/-- A pending write callback is called once its mark has been cleared. -/
theorem runWritecb_call (live : w.heap p = some b) (pending : b.writePending = true) {cb : DataCb}
    (installed : b.writecb = some cb) {ctx : Option Ptr} (context : b.ctx = ctx) :
    (prog.runWritecb p).run w =
      (prog.data cb p ctx).run (w.put p { b with writePending := false }) := by
  simp [runWritecb, live, pending, installed, ← context]

/-- A pending event callback is called with the reports once they have been cleared. -/
theorem runEventcb_call (live : w.heap p = some b) (pending : b.eventPending ≠ {}) {cb : EventCb}
    (installed : b.eventcb = some cb) {ctx : Option Ptr} (context : b.ctx = ctx) :
    (prog.runEventcb p).run w =
      (prog.event cb p b.eventPending ctx).run (w.put p { b with eventPending := {} }) := by
  simp [runEventcb, live, pending, installed, ← context]

/-- The memory after a chunk was read from the socket of a live bufferevent. -/
def received (w : World Ptr DataCb EventCb) (p : Ptr) (b : Bufferevent Ptr DataCb EventCb)
    (chunk : Bytes) : World Ptr DataCb EventCb :=
  { w.put p { b with input := b.input ++ chunk, readPending := true } with
    received := Function.update w.received p (w.received p ++ chunk) }

/-- The bufferevent after bytes were written to its socket. -/
def drained (b : Bufferevent Ptr DataCb EventCb) (count : Nat) :
    Bufferevent Ptr DataCb EventCb :=
  { b with
    output := b.output.drop count
    writePending := b.writePending ||
      (b.writecb.isSome && decide ((b.output.drop count).length ≤ b.writeLow)) }

/-- The memory after bytes were written to the socket of a live bufferevent. -/
def written (w : World Ptr DataCb EventCb) (p : Ptr) (b : Bufferevent Ptr DataCb EventCb)
    (count : Nat) : World Ptr DataCb EventCb :=
  { w.put p (drained b count) with
    sent := Function.update w.sent p (w.sent p ++ b.output.take count) }

/-- The bufferevent after events were reported on its connection. -/
def reported (b : Bufferevent Ptr DataCb EventCb) (what : BevEvents) (stopped : EvMask) :
    Bufferevent Ptr DataCb EventCb :=
  { b with eventPending := b.eventPending ||| what, enabled := b.enabled.without stopped }

/-- Reading from a live connection appends to its input. -/
theorem receive_run (live : w.heap p = some b) (chunk : Bytes) :
    (receive p chunk).run w = .ok ((), received w p b chunk) := by
  simp [receive, live, received]

/-- Writing to a live connection removes from its output. -/
theorem send_run (live : w.heap p = some b) (count : Nat) :
    (send p count).run w = .ok ((), written w p b count) := by
  simp [send, live, written, drained]

/-- Reports on a live connection are added to those that are pending. -/
theorem report_run (live : w.heap p = some b) (what : BevEvents) (stopped : EvMask) :
    (report p what stopped).run w = .ok ((), w.put p (reported b what stopped)) := by
  simp [report, live, reported]

variable {start v : World Ptr DataCb EventCb}

/-- Reading from the socket of a live bufferevent runs. -/
theorem exec_receive (live : w.heap p = some b) (chunk : Bytes) :
    (prog.machine start).exec w (.receive p chunk) = .ok (received w p b chunk) := by
  simp [machine, perform, receive_run live, Except.map]

/-- Writing to the socket of a live bufferevent runs. -/
theorem exec_send (live : w.heap p = some b) (count : Nat) :
    (prog.machine start).exec w (.send p count) = .ok (written w p b count) := by
  simp [machine, perform, send_run live, Except.map]

/-- Reporting events on a live bufferevent runs. -/
theorem exec_report (live : w.heap p = some b) (what : BevEvents) (stopped : EvMask) :
    (prog.machine start).exec w (.report p what stopped) =
      .ok (w.put p (reported b what stopped)) := by
  simp [machine, perform, report_run live, Except.map]

/-- What reading from a socket does. -/
theorem step_receive {chunk : Bytes} (step : (prog.machine start).Step w (.receive p chunk) v) :
    ∃ b, w.heap p = some b ∧ b.enabled.read = true ∧ v = received w p b chunk := by
  -- The guard names the live bufferevent the code then finds.
  obtain ⟨⟨b, live, on, -⟩, ran⟩ := step
  refine ⟨b, live, on, ?_⟩
  simpa [exec_receive live] using ran.symm

/-- What writing to a socket does. -/
theorem step_send {count : Nat} (step : (prog.machine start).Step w (.send p count) v) :
    ∃ b, w.heap p = some b ∧ b.enabled.write = true ∧ v = written w p b count := by
  obtain ⟨⟨b, live, on, -⟩, ran⟩ := step
  refine ⟨b, live, on, ?_⟩
  simpa [exec_send live] using ran.symm

/-- What a report does. -/
theorem step_report {what : BevEvents} {stopped : EvMask}
    (step : (prog.machine start).Step w (.report p what stopped) v) :
    ∃ b, w.heap p = some b ∧ (what.hangup = false → stopped = {}) ∧
      v = w.put p (reported b what stopped) := by
  obtain ⟨⟨b, live, excused⟩, ran⟩ := step
  refine ⟨b, live, excused, ?_⟩
  simpa [exec_report live] using ran.symm

/-- What accepting a connection does is what the listener's callback does. -/
theorem step_accept {how : Listen} (step : (prog.machine start).Step w (.accept how) v) :
    (prog.accept how).run w = .ok ((), v) := by
  -- The callback has no result besides the memory it leaves.
  have ran := step.2
  simp only [machine, perform] at ran
  cases done : (prog.accept how).run w with
  | error fault => simp [done, Except.map] at ran
  | ok result =>
    simp only [done, Except.map, Except.ok.injEq] at ran
    rw [← ran]

/-- What activity on a socket can do to one bufferevent. -/
inductive Change (act : Action Ptr Listen) (q : Ptr) (b : Bufferevent Ptr DataCb EventCb) :
    Bufferevent Ptr DataCb EventCb → Prop where
  /-- The bufferevent is left alone. -/
  | same : Change act q b b
  /-- A chunk arrives. -/
  | receive {chunk : Bytes} (arrives : act = .receive q chunk) (on : b.enabled.read = true) :
      Change act q b { b with input := b.input ++ chunk, readPending := true }
  /-- Some output leaves. -/
  | send {count : Nat} (leaves : act = .send q count) : Change act q b (drained b count)
  /-- Events are reported. -/
  | report {what : BevEvents} {stopped : EvMask} (reports : act = .report q what stopped) :
      Change act q b (reported b what stopped)

/-- Activity on a socket changes the bufferevents in one of a few ways, and nothing else. -/
theorem step_network {act : Action Ptr Listen} (network : act.IsNetwork)
    (step : (prog.machine start).Step w act v) :
    v.calls = w.calls ∧ v.accepted = w.accepted ∧
      (∀ q b, w.heap q = some b → ∃ c, v.heap q = some c ∧ Change act q b c) ∧
      (∀ q, w.heap q = none → v.heap q = none ∧ v.received q = w.received q) := by
  -- Each of the three actions stores one bufferevent under the pointer it names.
  have stored : ∀ (p : Ptr) (b c : Bufferevent Ptr DataCb EventCb), w.heap p = some b →
      Change act p b c → v.heap = Function.update w.heap p (some c) →
      (∀ q b, w.heap q = some b → ∃ c, v.heap q = some c ∧ Change act q b c) ∧
        ∀ q, w.heap q = none → v.heap q = none := by
    intro p b c live change heap
    rw [heap]
    refine ⟨fun q b' live' => ?_, fun q gone => ?_⟩
    · by_cases here : q = p
      · subst here
        cases live.symm.trans live'
        exact ⟨c, by simp, change⟩
      · exact ⟨b', by simp [here, live'], .same⟩
    · have other : q ≠ p := by
        rintro rfl
        cases live.symm.trans gone
      simp [other, gone]
  cases act with
  | accept _ => exact network.elim
  | dispatch _ => exact network.elim
  | receive p chunk =>
    obtain ⟨b, live, on, rfl⟩ := step_receive step
    obtain ⟨kept, gone⟩ := stored p b _ live (.receive rfl on) rfl
    refine ⟨rfl, rfl, kept, fun q dead => ⟨gone q dead, ?_⟩⟩
    have other : q ≠ p := by
      rintro rfl
      cases live.symm.trans dead
    simp [received, other]
  | send p count =>
    obtain ⟨b, live, -, rfl⟩ := step_send step
    obtain ⟨kept, gone⟩ := stored p b _ live (.send rfl) rfl
    exact ⟨rfl, rfl, kept, fun q dead => ⟨gone q dead, rfl⟩⟩
  | report p what stopped =>
    obtain ⟨b, live, -, rfl⟩ := step_report step
    obtain ⟨kept, gone⟩ := stored p b _ live (.report rfl) rfl
    exact ⟨rfl, rfl, kept, fun q dead => ⟨gone q dead, rfl⟩⟩

end Program

end LinuxPro
