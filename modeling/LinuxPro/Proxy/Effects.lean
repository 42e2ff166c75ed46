import LinuxPro.Event.BuffereventLaws
import LinuxPro.Proxy.Callbacks

/-! What each callback of the proxy does to the memory when its bufferevents are live. -/

namespace LinuxPro.Proxy

variable {w : State} {x y : Ptr} {a b : Bev}

/-- The low mark lies strictly below the high one. -/
theorem half_lt_maxOutput : maxOutput / 2 < maxOutput := by
  decide

/-- The test by which `readcb` decides to choke the side it reads from. -/
def Full (a b : Bev) : Prop :=
  maxOutput ≤ b.output.length + a.input.length

/-- The limit is decided by comparing lengths. -/
instance (a b : Bev) : Decidable (Full a b) :=
  inferInstanceAs (Decidable (_ ≤ _))

/-- The side that was read from, once its input has been handed over. -/
def handedOver (a b : Bev) : Bev :=
  -- Reading stops when the other side has reached its limit.
  if Full a b then
    { a with input := [], enabled := a.enabled.without evRead, readOffBy := some .readcb }
  else { a with input := [] }

/-- The side that is written to, once it has received the input of the other. -/
def takenOver (x : Ptr) (a b : Bev) : Bev :=
  -- At its limit the side is told to report when it has drained again.
  if Full a b then
    { b with
      output := b.output ++ a.input
      readcb := some .readcb
      writecb := some .drainedWritecb
      eventcb := some .eventcb
      ctx := some x
      writeLow := maxOutput / 2
      writeHigh := maxOutput }
  else { b with output := b.output ++ a.input }

/-- The side that stays behind to flush its output after the other has gone away. -/
def flushing (x : Ptr) (a b : Bev) : Bev :=
  { takenOver x a b with
    readcb := none
    writecb := some .closeOnFinishedWritecb
    eventcb := some .eventcb
    ctx := none
    enabled := (takenOver x a b).enabled.without evRead }

section Fields

variable (x : Ptr) (a b : Bev)

-- Handing over the input empties it and may stop the reading; the rest of the side stays as it was.

@[simp] theorem handedOver_input : (handedOver a b).input = [] := by
  unfold handedOver; split <;> rfl

@[simp] theorem handedOver_output : (handedOver a b).output = a.output := by
  unfold handedOver; split <;> rfl

/-- Reading goes on exactly when the other side is below its limit. -/
@[simp] theorem handedOver_read :
    (handedOver a b).enabled.read = (a.enabled.read && !decide (Full a b)) := by
  unfold handedOver; split <;> simp_all [EvMask.without, evRead]

@[simp] theorem handedOver_write : (handedOver a b).enabled.write = a.enabled.write := by
  unfold handedOver; split <;> simp [EvMask.without, evRead]

/-- The one who stops the reading is `readcb` itself. -/
@[simp] theorem handedOver_readOffBy :
    (handedOver a b).readOffBy = if Full a b then some .readcb else a.readOffBy := by
  unfold handedOver; split <;> simp_all

@[simp] theorem handedOver_ctx : (handedOver a b).ctx = a.ctx := by
  unfold handedOver; split <;> rfl

@[simp] theorem handedOver_readcb : (handedOver a b).readcb = a.readcb := by
  unfold handedOver; split <;> rfl

@[simp] theorem handedOver_writecb : (handedOver a b).writecb = a.writecb := by
  unfold handedOver; split <;> rfl

@[simp] theorem handedOver_eventcb : (handedOver a b).eventcb = a.eventcb := by
  unfold handedOver; split <;> rfl

@[simp] theorem handedOver_writeLow : (handedOver a b).writeLow = a.writeLow := by
  unfold handedOver; split <;> rfl

@[simp] theorem handedOver_writePending : (handedOver a b).writePending = a.writePending := by
  unfold handedOver; split <;> rfl

@[simp] theorem handedOver_eventPending : (handedOver a b).eventPending = a.eventPending := by
  unfold handedOver; split <;> rfl

/-- Reading appends the whole input to the partner's output. -/
@[simp] theorem takenOver_output : (takenOver x a b).output = b.output ++ a.input := by
  unfold takenOver; split <;> rfl

-- Below the limit nothing but the output changes, and at it the callbacks are replaced as well.

@[simp] theorem takenOver_input : (takenOver x a b).input = b.input := by
  unfold takenOver; split <;> rfl

@[simp] theorem takenOver_enabled : (takenOver x a b).enabled = b.enabled := by
  unfold takenOver; split <;> rfl

@[simp] theorem takenOver_readOffBy : (takenOver x a b).readOffBy = b.readOffBy := by
  unfold takenOver; split <;> rfl

@[simp] theorem takenOver_ctx :
    (takenOver x a b).ctx = if Full a b then some x else b.ctx := by
  unfold takenOver; split <;> rfl

@[simp] theorem takenOver_readcb :
    (takenOver x a b).readcb = if Full a b then some .readcb else b.readcb := by
  unfold takenOver; split <;> rfl

@[simp] theorem takenOver_writecb :
    (takenOver x a b).writecb = if Full a b then some .drainedWritecb else b.writecb := by
  unfold takenOver; split <;> rfl

@[simp] theorem takenOver_eventcb :
    (takenOver x a b).eventcb = if Full a b then some .eventcb else b.eventcb := by
  unfold takenOver; split <;> rfl

@[simp] theorem takenOver_writeLow :
    (takenOver x a b).writeLow = if Full a b then maxOutput / 2 else b.writeLow := by
  unfold takenOver; split <;> rfl

@[simp] theorem takenOver_writePending : (takenOver x a b).writePending = b.writePending := by
  unfold takenOver; split <;> rfl

@[simp] theorem takenOver_eventPending : (takenOver x a b).eventPending = b.eventPending := by
  unfold takenOver; split <;> rfl

end Fields

/-- The record `readcb` leaves of its invocation. -/
abbrev readCall (x y : Ptr) (a : Bev) : Call Ptr DataCb EventCb :=
  .data .readcb x (some y) a.input.length

/-- With both ends live, `readcb` moves the input over and chokes a side at its limit. -/
theorem readcb_run (source : w.heap x = some a) (target : w.heap y = some b) (apart : x ≠ y) :
    (readcb x (some y)).run w =
      .ok ((), ((w.enter (readCall x y a)).put x (handedOver a b)).put y (takenOver x a b)) := by
  -- Every call finds its pointer live, and the length test picks one of two final memories.
  by_cases full : maxOutput ≤ b.output.length + a.input.length
  · simp [readcb, Full, handedOver, takenOver, full, evbufferGetLength, evbufferAddBuffer,
      evbufferStore, buffereventSetcb, buffereventSetwatermark, buffereventDisable, blame, source, target, apart,
      apart.symm, World.put_put_put]
  · simp [readcb, Full, handedOver, takenOver, full, evbufferGetLength, evbufferAddBuffer,
      evbufferStore, source, target, apart.symm]

/-- The side whose output has drained, with nothing left to report. -/
abbrev awake (y : Ptr) (a : Bev) : Bev :=
  { a with
    readcb := some .readcb
    writecb := none
    eventcb := some .eventcb
    ctx := some y
    writeLow := 0
    writeHigh := 0 }

/-- The side that may read again. -/
abbrev unblocked (b : Bev) : Bev :=
  { b with enabled := b.enabled ||| evRead, readOffBy := none }

/-- The record `drained_writecb` leaves of its invocation. -/
abbrev drainCall (x y : Ptr) (a : Bev) : Call Ptr DataCb EventCb :=
  .data .drainedWritecb x (some y) a.input.length

/-- With both ends live, `drained_writecb` lets the partner read again. -/
theorem drainedWritecb_run (near : w.heap x = some a) (far : w.heap y = some b) (apart : x ≠ y) :
    (drainedWritecb x (some y)).run w =
      .ok ((), ((w.enter (drainCall x y a)).put x (awake y a)).put y (unblocked b)) := by
  simp [drainedWritecb, buffereventSetcb, buffereventSetwatermark, buffereventEnable, evRead,
    drainCall, awake, unblocked, near, far, apart.symm]

/-- A side with output left ignores the notification that some of it was written. -/
theorem closeOnFinishedWritecb_run_busy (live : w.heap y = some b) (left : b.output ≠ [])
    (ctx : Option Ptr) :
    (closeOnFinishedWritecb y ctx).run w =
      .ok ((), w.enter (.data .closeOnFinishedWritecb y ctx b.input.length)) := by
  simp [closeOnFinishedWritecb, evbufferGetLength, live, left]

/-- A side whose output has been written is released. -/
theorem closeOnFinishedWritecb_run_done (live : w.heap y = some b) (done : b.output = [])
    (ctx : Option Ptr) :
    (closeOnFinishedWritecb y ctx).run w =
      .ok ((), (w.enter (.data .closeOnFinishedWritecb y ctx b.input.length)).drop y) := by
  simp [closeOnFinishedWritecb, evbufferGetLength, live, done]

/-- Reports other than an end of file or an error change nothing. -/
theorem eventcb_run_other (live : w.heap x = some a) {what : BevEvents}
    (other : what.hangup = false) (ctx : Option Ptr) :
    (eventcb x what ctx).run w = .ok ((), w.enter (.event .eventcb x what ctx)) := by
  simp [eventcb, live, other]

/-- A side that has no partner any more is released as soon as its peer goes away. -/
theorem eventcb_run_alone (live : w.heap x = some a) {what : BevEvents}
    (gone : what.hangup = true) :
    (eventcb x what none).run w = .ok ((), (w.enter (.event .eventcb x what none)).drop x) := by
  simp [eventcb, live, gone]

/-- The memory after `readcb` has run as a deferred callback. -/
abbrev relayed (w : State) (x y : Ptr) (a b : Bev) : State :=
  ((w.enter (readCall x y a)).put x (handedOver { a with readPending := false } b)).put y
    (takenOver x a b)

/-- The memory after `drained_writecb` has run as a deferred callback. -/
abbrev resumed (w : State) (x y : Ptr) (a b : Bev) : State :=
  ((w.enter (drainCall x y a)).put x (awake y { a with writePending := false })).put y
    (unblocked b)

/-- The memory after an event callback has flushed the input of the side that went away. -/
abbrev flushed (w : State) (x y : Ptr) (what : BevEvents) (a : Bev) : State :=
  (w.enter (.event .eventcb x what (some y))).enter (readCall x y a)

/-- With output left, the partner of a side that went away stays to flush it. -/
theorem eventcb_run_flush (near : w.heap x = some a) (far : w.heap y = some b) (apart : x ≠ y)
    {what : BevEvents} (gone : what.hangup = true) (left : b.output ++ a.input ≠ []) :
    (eventcb x what (some y)).run w =
      .ok ((), ((flushed w x y what a).put y (flushing x a b)).drop x) := by
  -- The nested `readcb` decides what is left, and its memory is the one the rest works on.
  have nested := readcb_run (w := w.enter (.event .eventcb x what (some y))) near far apart
  simp [eventcb, near, gone, nested, evbufferGetLength, buffereventSetcb, buffereventDisable, apart,
    left, flushing, World.drop_put_put]

/-- With nothing left to write, both sides are released together. -/
theorem eventcb_run_close (near : w.heap x = some a) (far : w.heap y = some b) (apart : x ≠ y)
    {what : BevEvents} (gone : what.hangup = true) (empty : b.output ++ a.input = []) :
    (eventcb x what (some y)).run w = .ok ((), ((flushed w x y what a).drop y).drop x) := by
  have nested := readcb_run (w := w.enter (.event .eventcb x what (some y))) near far apart
  simp [eventcb, near, gone, nested, evbufferGetLength, empty, apart, World.drop_drop_put]

/-- One end of a pair that was just accepted. -/
def freshEnd (partner : Ptr) : Bev :=
  { readcb := some .readcb
    eventcb := some .eventcb
    ctx := some partner
    enabled := evRead ||| evWrite }

/-- A connected pair starts out with each end wired to the other. -/
theorem acceptCb_run_connected :
    (acceptCb true).run w = .ok ((), (({ w with accepted := w.accepted + 1 } : State).put
      ⟨w.accepted, .bIn⟩ (freshEnd ⟨w.accepted, .bOut⟩)).put
      ⟨w.accepted, .bOut⟩ (freshEnd ⟨w.accepted, .bIn⟩)) := by
  -- Both objects are distinct, so the four calls on each of them do not interfere.
  have apart : (⟨w.accepted, .bIn⟩ : Ptr) ≠ ⟨w.accepted, .bOut⟩ := by simp
  simp [acceptCb, buffereventSocketNew, buffereventSetcb, buffereventEnable, evRead, evWrite,
    World.put_put_put _ _ _ apart, freshEnd]
  -- Writing is on from the beginning, so enabling it again changes nothing.
  rfl

/-- Without a connection to the server both ends are released again. -/
theorem acceptCb_run_failed :
    (acceptCb false).run w = .ok ((), (((({ w with accepted := w.accepted + 1 } : State).put
      ⟨w.accepted, .bIn⟩ {}).put ⟨w.accepted, .bOut⟩ {}).drop
      ⟨w.accepted, .bOut⟩).drop ⟨w.accepted, .bIn⟩) := by
  simp [acceptCb, buffereventSocketNew]

end LinuxPro.Proxy
