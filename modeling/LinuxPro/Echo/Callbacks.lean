import LinuxPro.Event.Loop

/-! The callbacks of the echo server, written against the bufferevent calls they make. -/

namespace LinuxPro.Echo

/-- A pointer to a bufferevent, named by the number of the accepted connection. -/
abbrev Ptr := Nat

/-- The read and write callbacks of the echo server. -/
inductive DataCb where
  | readcb
  | drainedWritecb
  deriving DecidableEq

/-- The echo server has no event callback. -/
abbrev EventCb := Empty

/-- A bufferevent of the echo server. -/
abbrev Bev := Bufferevent Ptr DataCb EventCb

/-- The memory of the echo server. -/
abbrev State := World Ptr DataCb EventCb

/-- Code of the echo server. -/
abbrev EchoM := EventM Ptr DataCb EventCb

/-- The output length that `readcb` asks to be notified at. -/
def lowMark : Nat := 38

/-- Send everything that was read back, and stop reading until it has drained. -/
def readcb (bev : Ptr) (ctx : Option Ptr) : EchoM Unit := do
  enterData .readcb bev ctx
  let src ← buffereventGetInput bev
  let dst ← buffereventGetOutput bev
  evbufferAddBuffer dst src
  -- The context passed on is the bufferevent itself, whatever it was before.
  buffereventSetcb bev (some .readcb) (some .drainedWritecb) none (some bev)
  buffereventSetwatermark bev lowMark 0
  buffereventDisable bev evRead

/-- The output has drained, so reading may go on. -/
def drainedWritecb (bev : Ptr) (ctx : Option Ptr) : EchoM Unit := do
  enterData .drainedWritecb bev ctx
  -- The callback stays installed, with a watermark that only an empty queue reaches.
  buffereventSetcb bev (some .readcb) (some .drainedWritecb) none ctx
  buffereventSetwatermark bev 0 0
  match ctx with
  | none => return
  | some partner => buffereventEnable partner evRead

/-- A client is accepted. -/
def listenerCb (_ : Unit) : EchoM Unit := do
  let conn := (← get).accepted
  modify fun w => { w with accepted := conn + 1 }
  let bIn ← buffereventSocketNew conn
  buffereventSetcb bIn (some .readcb) none none (some bIn)
  buffereventEnable bIn (evRead ||| evWrite)

/-- The echo server, as the event loop runs it. -/
def program : Program Ptr DataCb EventCb Unit where
  accept := listenerCb
  data
    | .readcb => readcb
    | .drainedWritecb => drainedWritecb
  event cb := nomatch cb

/-- The echo server from its start on, when nothing has been accepted. -/
def echo : Machine State (Action Ptr Unit) (Fault Ptr) :=
  program.machine (World.empty Ptr DataCb EventCb)

/-- The guards of the echo server's steps can be decided. -/
instance (w : State) (act : Action Ptr Unit) : Decidable (echo.enabled w act) :=
  inferInstanceAs (Decidable (Program.Enabled w act))

end LinuxPro.Echo
