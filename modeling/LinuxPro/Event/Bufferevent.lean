import Mathlib.Logic.Function.Basic

/-! Bufferevents of libevent: two byte queues, enabled directions, a watermark and callbacks. -/

namespace LinuxPro

/-- The contents of a byte queue, oldest byte first. -/
abbrev Bytes := List UInt8

/-- A mask of the directions `EV_READ` and `EV_WRITE`. -/
structure EvMask where
  /-- The bit `EV_READ`. -/
  read : Bool := false
  /-- The bit `EV_WRITE`. -/
  write : Bool := false
  deriving DecidableEq

/-- The mask `EV_READ`. -/
def evRead : EvMask := { read := true }

/-- The mask `EV_WRITE`. -/
def evWrite : EvMask := { write := true }

/-- Masks are joined bit by bit. -/
instance : OrOp EvMask where
  or left right := ⟨left.read || right.read, left.write || right.write⟩

/-- The directions of the first mask that the second does not name. -/
def EvMask.without (mask other : EvMask) : EvMask :=
  ⟨mask.read && !other.read, mask.write && !other.write⟩

/-- The bits of the `what` argument of an event callback. -/
structure BevEvents where
  /-- The bit `BEV_EVENT_EOF`. -/
  eof : Bool := false
  /-- The bit `BEV_EVENT_ERROR`. -/
  error : Bool := false
  /-- The bit `BEV_EVENT_CONNECTED`. -/
  connected : Bool := false
  deriving DecidableEq

/-- Reports that arrive before the callback runs are joined bit by bit. -/
instance : OrOp BevEvents where
  or left right :=
    ⟨left.eof || right.eof, left.error || right.error, left.connected || right.connected⟩

/-- The test `what & (BEV_EVENT_EOF | BEV_EVENT_ERROR)`. -/
def BevEvents.hangup (what : BevEvents) : Bool :=
  what.eof || what.error

/-- A joined report hangs up when either of its parts does. -/
@[simp] theorem BevEvents.or_hangup (left right : BevEvents) :
    (left ||| right).hangup = (left.hangup || right.hangup) := by
  -- The two bits that matter are joined one by one.
  cases left; cases right
  simp only [BevEvents.hangup, HOr.hOr, OrOp.or]
  grind

/-- Reading is enabled by a joined mask when either part enables it. -/
@[simp] theorem EvMask.or_read (left right : EvMask) :
    (left ||| right).read = (left.read || right.read) := rfl

/-- Writing is enabled by a joined mask when either part enables it. -/
@[simp] theorem EvMask.or_write (left right : EvMask) :
    (left ||| right).write = (left.write || right.write) := rfl

/-- A connection with its two queues, as `struct bufferevent` keeps it. -/
structure Bufferevent (Ptr DataCb EventCb : Type) where
  /-- Bytes read from the socket and not yet taken by a callback. -/
  input : Bytes := []
  /-- Bytes handed over by a callback and not yet written to the socket. -/
  output : Bytes := []
  /-- The enabled directions, of which writing is on from the beginning. -/
  enabled : EvMask := evWrite
  /-- The low watermark of the output queue. -/
  writeLow : Nat := 0
  /-- The high watermark of the output queue, which libevent stores and never reads. -/
  writeHigh : Nat := 0
  /-- The installed read callback. -/
  readcb : Option DataCb := none
  /-- The installed write callback. -/
  writecb : Option DataCb := none
  /-- The installed event callback. -/
  eventcb : Option EventCb := none
  /-- The context passed to all three callbacks. -/
  ctx : Option Ptr := none
  /-- Whether the deferred read callback is pending. -/
  readPending : Bool := false
  /-- Whether the deferred write callback is pending. -/
  writePending : Bool := false
  /-- The reports the deferred event callback is pending for. -/
  eventPending : BevEvents := {}
  /-- The history of which callback switched reading off, until it is switched on again. -/
  readOffBy : Option DataCb := none

/-- One invocation of a callback, as a history of the run records it. -/
inductive Call (Ptr DataCb EventCb : Type) where
  /-- A read or write callback entered with this context and this much input queued. -/
  | data (cb : DataCb) (bev : Ptr) (ctx : Option Ptr) (input : Nat)
  /-- An event callback entered with these reports and this context. -/
  | event (cb : EventCb) (bev : Ptr) (what : BevEvents) (ctx : Option Ptr)

/-- What goes wrong when a callback uses a pointer it must not use. -/
inductive Fault (Ptr : Type) where
  /-- The pointer does not lead to a live bufferevent. -/
  | useAfterFree (bev : Ptr)
  /-- The pointer is released although it no longer leads to a live bufferevent. -/
  | doubleFree (bev : Ptr)

/-- The event loop's memory, together with what the sockets and callbacks have seen so far. -/
structure World (Ptr DataCb EventCb : Type) where
  /-- The live bufferevents. -/
  heap : Ptr → Option (Bufferevent Ptr DataCb EventCb)
  /-- How many connections the listener has accepted. -/
  accepted : Nat
  /-- All bytes ever read from each socket. -/
  received : Ptr → Bytes
  /-- All bytes ever written to each socket. -/
  sent : Ptr → Bytes
  /-- All pointers ever passed to `bufferevent_free`, latest first. -/
  freed : List Ptr
  /-- All callbacks ever entered, latest first. -/
  calls : List (Call Ptr DataCb EventCb)

/-- The memory before anything was accepted. -/
def World.empty (Ptr DataCb EventCb : Type) : World Ptr DataCb EventCb where
  heap := fun _ => none
  accepted := 0
  received := fun _ => []
  sent := fun _ => []
  freed := []
  calls := []

/-- Code that works on the event loop's memory and may fault. -/
abbrev EventM (Ptr DataCb EventCb : Type) :=
  StateT (World Ptr DataCb EventCb) (Except (Fault Ptr))

/-- One of the two queues of a bufferevent, as `struct evbuffer *` refers to it. -/
inductive Evbuffer (Ptr : Type) where
  /-- The queue `bufferevent_get_input` returns. -/
  | input (bev : Ptr)
  /-- The queue `bufferevent_get_output` returns. -/
  | output (bev : Ptr)

section Api

variable {Ptr DataCb EventCb : Type} [DecidableEq Ptr]

/-- Store a bufferevent under its pointer. -/
def World.put (w : World Ptr DataCb EventCb) (p : Ptr) (b : Bufferevent Ptr DataCb EventCb) :
    World Ptr DataCb EventCb :=
  { w with heap := Function.update w.heap p (some b) }

/-- Release the bufferevent under a pointer, dropping its queues and its pending callbacks. -/
def World.drop (w : World Ptr DataCb EventCb) (p : Ptr) : World Ptr DataCb EventCb :=
  { w with heap := Function.update w.heap p none, freed := p :: w.freed }

/-- Note that a callback was entered. -/
def World.enter (w : World Ptr DataCb EventCb) (call : Call Ptr DataCb EventCb) :
    World Ptr DataCb EventCb :=
  { w with calls := call :: w.calls }

/-- Read through a pointer. -/
def deref (p : Ptr) : EventM Ptr DataCb EventCb (Bufferevent Ptr DataCb EventCb) := do
  match (← get).heap p with
  | some b => return b
  -- The memory of a released bufferevent may not be touched.
  | none => throw (.useAfterFree p)

/-- Write through a pointer. -/
def update (p : Ptr) (f : Bufferevent Ptr DataCb EventCb → Bufferevent Ptr DataCb EventCb) :
    EventM Ptr DataCb EventCb Unit := do
  let b ← deref p
  modify fun w => w.put p (f b)

/-- Enter a read or write callback, which is only possible on a live bufferevent. -/
def enterData (cb : DataCb) (p : Ptr) (ctx : Option Ptr) : EventM Ptr DataCb EventCb Unit := do
  let b ← deref p
  modify fun w => w.enter (.data cb p ctx b.input.length)

/-- Enter an event callback, which is only possible on a live bufferevent. -/
def enterEvent (cb : EventCb) (p : Ptr) (what : BevEvents) (ctx : Option Ptr) :
    EventM Ptr DataCb EventCb Unit := do
  let _ ← deref p
  modify fun w => w.enter (.event cb p what ctx)

/-- `bufferevent_socket_new`, at a pointer the caller knows to be unused. -/
def buffereventSocketNew (p : Ptr) : EventM Ptr DataCb EventCb Ptr := do
  modify fun w => w.put p {}
  return p

/-- `bufferevent_free`. -/
def buffereventFree (p : Ptr) : EventM Ptr DataCb EventCb Unit := do
  match (← get).heap p with
  | some _ => modify fun w => w.drop p
  | none => throw (.doubleFree p)

/-- `bufferevent_setcb`. -/
def buffereventSetcb (p : Ptr) (readcb writecb : Option DataCb) (eventcb : Option EventCb)
    (ctx : Option Ptr) : EventM Ptr DataCb EventCb Unit :=
  update p fun b =>
    -- All three callbacks are replaced at once, and those not given are removed.
    { b with readcb := readcb, writecb := writecb, eventcb := eventcb, ctx := ctx }

/-- `bufferevent_setwatermark` for `EV_WRITE`. -/
def buffereventSetwatermark (p : Ptr) (low high : Nat) : EventM Ptr DataCb EventCb Unit :=
  update p fun b => { b with writeLow := low, writeHigh := high }

/-- `bufferevent_enable`. -/
def buffereventEnable (p : Ptr) (mask : EvMask) : EventM Ptr DataCb EventCb Unit :=
  update p fun b =>
    { b with
      enabled := b.enabled ||| mask
      -- Only reading has a history.
      readOffBy := if mask.read then none else b.readOffBy }

/-- `bufferevent_disable`. -/
def buffereventDisable (p : Ptr) (mask : EvMask) : EventM Ptr DataCb EventCb Unit :=
  update p fun b => { b with enabled := b.enabled.without mask }

/-- Record the callback that has just switched reading off. -/
def blame (p : Ptr) (cb : DataCb) : EventM Ptr DataCb EventCb Unit :=
  update p fun b => { b with readOffBy := some cb }

/-- `bufferevent_get_input`. -/
def buffereventGetInput (p : Ptr) : EventM Ptr DataCb EventCb (Evbuffer Ptr) := do
  let _ ← deref p
  return .input p

/-- `bufferevent_get_output`. -/
def buffereventGetOutput (p : Ptr) : EventM Ptr DataCb EventCb (Evbuffer Ptr) := do
  let _ ← deref p
  return .output p

/-- The bytes an evbuffer holds. -/
def evbufferBytes (buf : Evbuffer Ptr) : EventM Ptr DataCb EventCb Bytes :=
  match buf with
  | .input p => return (← deref p).input
  | .output p => return (← deref p).output

/-- Replace the bytes an evbuffer holds. -/
def evbufferStore (buf : Evbuffer Ptr) (bytes : Bytes) : EventM Ptr DataCb EventCb Unit :=
  match buf with
  | .input p => update p fun b => { b with input := bytes }
  | .output p => update p fun b => { b with output := bytes }

/-- `evbuffer_get_length`. -/
def evbufferGetLength (buf : Evbuffer Ptr) : EventM Ptr DataCb EventCb Nat :=
  return (← evbufferBytes buf).length

/-- `evbuffer_drain`, which removes bytes from the front. -/
def evbufferDrain (buf : Evbuffer Ptr) (len : Nat) : EventM Ptr DataCb EventCb Unit := do
  evbufferStore buf ((← evbufferBytes buf).drop len)

/-- `evbuffer_add_buffer`, which moves all bytes of one queue to the end of another. -/
def evbufferAddBuffer (dst src : Evbuffer Ptr) : EventM Ptr DataCb EventCb Unit := do
  let moved ← evbufferBytes src
  -- The source is emptied first, as the two may be queues of one bufferevent.
  evbufferStore src []
  evbufferStore dst ((← evbufferBytes dst) ++ moved)

end Api

end LinuxPro
