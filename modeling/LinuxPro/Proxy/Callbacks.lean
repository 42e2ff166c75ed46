import LinuxPro.Event.Loop

/-! The callbacks of the relaying proxy, written against the bufferevent calls they make. -/

namespace LinuxPro.Proxy

/-- Which of the two bufferevents of an accepted connection is meant. -/
inductive End where
  /-- The bufferevent `b_in` on the accepted socket. -/
  | bIn
  /-- The bufferevent `b_out` on the connection to the server. -/
  | bOut
  deriving DecidableEq

/-- A pointer to a bufferevent, named by the connection it was allocated for. -/
structure Ptr where
  /-- The number of the accepted connection. -/
  conn : Nat
  /-- Which end of it the bufferevent serves. -/
  side : End
  deriving DecidableEq

/-- The read and write callbacks of the proxy. -/
inductive DataCb where
  | readcb
  | drainedWritecb
  | closeOnFinishedWritecb
  deriving DecidableEq

/-- The event callbacks of the proxy. -/
inductive EventCb where
  | eventcb
  deriving DecidableEq

/-- A bufferevent of the proxy. -/
abbrev Bev := Bufferevent Ptr DataCb EventCb

/-- The memory of the proxy. -/
abbrev State := World Ptr DataCb EventCb

/-- Code of the proxy. -/
abbrev ProxyM := EventM Ptr DataCb EventCb

/-- The output length at which the other side is choked, `MAX_OUTPUT`. -/
def maxOutput : Nat := 512 * 1024

/-- Hand everything that was read to the partner, and stop reading once it has too much. -/
def readcb (bev : Ptr) (ctx : Option Ptr) : ProxyM Unit := do
  enterData .readcb bev ctx
  let src ← buffereventGetInput bev
  let len ← evbufferGetLength src
  match ctx with
  -- Without a partner there is nobody to hand the bytes to.
  | none => evbufferDrain src len
  | some partner =>
    let dst ← buffereventGetOutput partner
    evbufferAddBuffer dst src
    if (← evbufferGetLength dst) ≥ maxOutput then
      -- The partner is given data faster than it can pass it on.
      buffereventSetcb partner (some .readcb) (some .drainedWritecb) (some .eventcb) (some bev)
      buffereventSetwatermark partner (maxOutput / 2) maxOutput
      buffereventDisable bev evRead
      blame bev .readcb

/-- The output has drained, so the partner that was choked for it may read again. -/
def drainedWritecb (bev : Ptr) (ctx : Option Ptr) : ProxyM Unit := do
  enterData .drainedWritecb bev ctx
  buffereventSetcb bev (some .readcb) none (some .eventcb) ctx
  buffereventSetwatermark bev 0 0
  match ctx with
  | none => return
  | some partner => buffereventEnable partner evRead

/-- The last output has been written, so the connection is closed. -/
def closeOnFinishedWritecb (bev : Ptr) (ctx : Option Ptr) : ProxyM Unit := do
  enterData .closeOnFinishedWritecb bev ctx
  let b ← buffereventGetOutput bev
  if (← evbufferGetLength b) = 0 then
    buffereventFree bev

/-- A peer that has gone away is flushed to the other side, which is closed after it. -/
def eventcb (bev : Ptr) (what : BevEvents) (ctx : Option Ptr) : ProxyM Unit := do
  enterEvent .eventcb bev what ctx
  if what.hangup then
    match ctx with
    | none => pure ()
    | some partner =>
      -- Flush all pending data.
      readcb bev ctx
      if (← evbufferGetLength (← buffereventGetOutput partner)) ≠ 0 then
        -- There is still data to flush from the other side, which is closed when that is done.
        buffereventSetcb partner none (some .closeOnFinishedWritecb) (some .eventcb) none
        buffereventDisable partner evRead
      else
        -- There is nothing left to say to the other side.
        buffereventFree partner
    buffereventFree bev

/-- A client is accepted and paired with a connection to the server. -/
def acceptCb (connected : Bool) : ProxyM Unit := do
  -- Every acceptance allocates two objects that no pointer leads to yet.
  let conn := (← get).accepted
  modify fun w => { w with accepted := conn + 1 }
  let bIn ← buffereventSocketNew ⟨conn, .bIn⟩
  let bOut ← buffereventSocketNew ⟨conn, .bOut⟩
  -- The answer of `bufferevent_socket_connect` is the network's.
  if !connected then
    buffereventFree bOut
    buffereventFree bIn
  else
    buffereventSetcb bIn (some .readcb) none (some .eventcb) (some bOut)
    buffereventSetcb bOut (some .readcb) none (some .eventcb) (some bIn)
    buffereventEnable bIn (evRead ||| evWrite)
    buffereventEnable bOut (evRead ||| evWrite)

/-- The proxy, as the event loop runs it. -/
def program : Program Ptr DataCb EventCb Bool where
  accept := acceptCb
  data
    | .readcb => readcb
    | .drainedWritecb => drainedWritecb
    | .closeOnFinishedWritecb => closeOnFinishedWritecb
  event
    | .eventcb => eventcb

/-- The proxy from its start on, when nothing has been accepted. -/
def proxy : Machine State (Action Ptr Bool) (Fault Ptr) :=
  program.machine (World.empty Ptr DataCb EventCb)

/-- The guards of the proxy's steps can be decided. -/
instance (w : State) (act : Action Ptr Bool) : Decidable (proxy.enabled w act) :=
  inferInstanceAs (Decidable (Program.Enabled w act))

end LinuxPro.Proxy
