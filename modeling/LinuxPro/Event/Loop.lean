import LinuxPro.Event.Bufferevent
import LinuxPro.Lib.Machine

/-! The event loop: socket activity, deferred callbacks, and the order they are dispatched in. -/

namespace LinuxPro

/-- What the event loop and the network may do next. -/
inductive Action (Ptr Listen : Type) where
  /-- The listener hands over a new connection. -/
  | accept (how : Listen)
  /-- A chunk of bytes is read from a socket. -/
  | receive (bev : Ptr) (chunk : Bytes)
  /-- A number of bytes is written to a socket. -/
  | send (bev : Ptr) (count : Nat)
  /-- Events are reported on a connection, with the directions libevent switches off for them. -/
  | report (bev : Ptr) (what : BevEvents) (stopped : EvMask)
  /-- The pending deferred callbacks of a bufferevent are dispatched. -/
  | dispatch (bev : Ptr)

/-- The code an application supplies: its listener and what its callbacks do. -/
structure Program (Ptr DataCb EventCb Listen : Type) where
  /-- The listener's callback. -/
  accept : Listen → EventM Ptr DataCb EventCb Unit
  /-- Read and write callbacks, called with a bufferevent and its context. -/
  data : DataCb → Ptr → Option Ptr → EventM Ptr DataCb EventCb Unit
  /-- Event callbacks, called with a bufferevent, the reports and its context. -/
  event : EventCb → Ptr → BevEvents → Option Ptr → EventM Ptr DataCb EventCb Unit

namespace Program

variable {Ptr DataCb EventCb Listen : Type} [DecidableEq Ptr]
  (prog : Program Ptr DataCb EventCb Listen)

/-- Run the deferred read callback, if one is pending and installed. -/
def runReadcb (p : Ptr) : EventM Ptr DataCb EventCb Unit := do
  -- A bufferevent that is gone by now has had its pending callbacks cancelled.
  let some b := (← get).heap p | return
  let (true, some cb) := (b.readPending, b.readcb) | return
  update p fun b => { b with readPending := false }
  prog.data cb p b.ctx

/-- Run the deferred write callback, if one is pending and installed. -/
def runWritecb (p : Ptr) : EventM Ptr DataCb EventCb Unit := do
  let some b := (← get).heap p | return
  let (true, some cb) := (b.writePending, b.writecb) | return
  update p fun b => { b with writePending := false }
  prog.data cb p b.ctx

/-- Run the deferred event callback, if reports are pending and one is installed. -/
def runEventcb (p : Ptr) : EventM Ptr DataCb EventCb Unit := do
  let some b := (← get).heap p | return
  let some cb := b.eventcb | return
  if b.eventPending = {} then return
  update p fun b => { b with eventPending := {} }
  prog.event cb p b.eventPending b.ctx

/-- Dispatch the deferred callbacks of one bufferevent, in the order read, write, event. -/
def dispatch (p : Ptr) : EventM Ptr DataCb EventCb Unit := do
  prog.runReadcb p
  prog.runWritecb p
  prog.runEventcb p

/-- A chunk is appended to the input, and the read callback becomes pending. -/
def receive (p : Ptr) (chunk : Bytes) : EventM Ptr DataCb EventCb Unit := do
  update p fun b => { b with input := b.input ++ chunk, readPending := true }
  modify fun w =>
    { w with received := Function.update w.received p (w.received p ++ chunk) }

/-- Bytes leave from the front of the output, and crossing the low watermark is notified. -/
def send (p : Ptr) (count : Nat) : EventM Ptr DataCb EventCb Unit := do
  let b ← deref p
  let rest := b.output.drop count
  update p fun b =>
    { b with
      output := rest
      writePending := b.writePending ||
        (b.writecb.isSome && decide (rest.length ≤ b.writeLow)) }
  modify fun w =>
    { w with sent := Function.update w.sent p (w.sent p ++ b.output.take count) }

/-- Reports make the event callback pending, and may switch directions off. -/
def report (p : Ptr) (what : BevEvents) (stopped : EvMask) : EventM Ptr DataCb EventCb Unit :=
  update p fun b =>
    { b with eventPending := b.eventPending ||| what, enabled := b.enabled.without stopped }

/-- When the loop or the network may perform an action. -/
def Enabled (w : World Ptr DataCb EventCb) : Action Ptr Listen → Prop
  | .accept _ => True
  -- Only a live connection with reading switched on is read from, and then something arrives.
  | .receive p chunk => ∃ b, w.heap p = some b ∧ b.enabled.read = true ∧ chunk ≠ []
  -- Only bytes that are queued can leave.
  | .send p count => ∃ b, w.heap p = some b ∧ b.enabled.write = true ∧ count ≤ b.output.length
  -- Directions are switched off only together with an end of file or an error.
  | .report p what stopped => ∃ b, w.heap p = some b ∧ (what.hangup = false → stopped = {})
  | .dispatch p => ∃ b, w.heap p = some b

/-- Whether a live bufferevent passes a test is decided by looking it up. -/
instance {β : Type} (found : Option β) (test : β → Prop) [DecidablePred test] :
    Decidable (∃ b, found = some b ∧ test b) :=
  match found with
  | none => isFalse (by simp)
  | some b => decidable_of_iff (test b) (by simp)

/-- Whether a bufferevent is live is decided by looking it up. -/
instance {β : Type} (found : Option β) : Decidable (∃ b, found = some b) :=
  match found with
  | none => isFalse (by simp)
  | some b => isTrue ⟨b, rfl⟩

/-- Whether an action may be performed can be decided. -/
instance (w : World Ptr DataCb EventCb) (act : Action Ptr Listen) : Decidable (Enabled w act) :=
  match act with
  | .accept _ => isTrue trivial
  | .receive p chunk =>
    inferInstanceAs (Decidable (∃ b, w.heap p = some b ∧ b.enabled.read = true ∧ chunk ≠ []))
  | .send p count =>
    inferInstanceAs (Decidable
      (∃ b, w.heap p = some b ∧ b.enabled.write = true ∧ count ≤ b.output.length))
  | .report p what stopped =>
    inferInstanceAs (Decidable
      (∃ b, w.heap p = some b ∧ (what.hangup = false → stopped = {})))
  | .dispatch p => inferInstanceAs (Decidable (∃ b, w.heap p = some b))

/-- The code an action runs. -/
def perform : Action Ptr Listen → EventM Ptr DataCb EventCb Unit
  | .accept how => prog.accept how
  | .receive p chunk => receive p chunk
  | .send p count => send p count
  | .report p what stopped => report p what stopped
  | .dispatch p => prog.dispatch p

/-- The application run by the event loop, from a given memory on. -/
def machine (start : World Ptr DataCb EventCb) :
    Machine (World Ptr DataCb EventCb) (Action Ptr Listen) (Fault Ptr) where
  start := start
  enabled := Enabled
  exec w a := ((prog.perform a).run w).map Prod.snd

/-- The guards of the event loop can be decided. -/
instance (start : World Ptr DataCb EventCb) (w : World Ptr DataCb EventCb)
    (act : Action Ptr Listen) : Decidable ((prog.machine start).enabled w act) :=
  inferInstanceAs (Decidable (Enabled w act))

end Program

end LinuxPro
