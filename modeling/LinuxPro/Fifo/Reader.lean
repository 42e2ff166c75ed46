import LinuxPro.Lib.Buffer
import LinuxPro.Lib.Machine
import LinuxPro.Tls.Server

/-! The reader of a named pipe, which prints what arrives until the pipe is closed. -/

namespace LinuxPro.Fifo

open Tls (ReadResult)

/-- What the reader prints. -/
inductive Output where
  /-- That it was called, for this descriptor and these events. -/
  | called (fd : Int32) (event : Int16)
  /-- `perror` of a failed read. -/
  | readFailed
  | connectionClosed
  /-- The array, after a read with this result. -/
  | read (len : Int32) (buf : Chars)
  deriving DecidableEq

/-- What the reader has done so far. -/
structure State where
  output : List Output := []
  /-- Whether the event of the pipe is still added. -/
  added : Bool := true
  /-- Whether `event_base_loopbreak` was called. -/
  broken : Bool := false

/-- Code of the reader. -/
abbrev ReaderM := StateM State

/-- Print on either of the two streams. -/
def print (output : Output) : ReaderM Unit :=
  modify fun s => { s with output := s.output ++ [output] }

/-- `event_del` of the event of the pipe. -/
def eventDel : ReaderM Unit :=
  modify fun s => { s with added := false }

/-- `event_base_loopbreak`. -/
def eventBaseLoopbreak : ReaderM Unit :=
  modify fun s => { s with broken := true }

/-- One call of the callback, with what it finds in its array and what the pipe answers. -/
structure Call where
  fd : Int32
  event : Int16
  /-- The array is not initialised, so it holds what the stack held. -/
  buf : Buffer 255
  /-- The answer of `read`, which is asked for one byte less than the array holds. -/
  answer : ReadResult 254

/-- The callback for the pipe. -/
def fifoRead (call : Call) : ReaderM Unit := do
  print (.called call.fd call.event)
  let buf := call.buf.bytes.store call.answer.data
  let len := call.answer.result
  -- Both a failure and the end of the pipe stop the reader.
  if len ≤ 0 then
    if len = -1 then
      print .readFailed
    else if len = 0 then
      print .connectionClosed
    eventDel
    eventBaseLoopbreak
  else
    -- There is room for this zero since one byte less was asked for.
    let buf := buf.set len.toInt.toNat 0
    print (.read len buf)

/-- The reader, which is called as long as its event is added and the loop runs. -/
def reader : Machine State Call Empty where
  start := {}
  enabled s _ := s.added = true ∧ s.broken = false
  exec s call := .ok ((fifoRead call).run s).2

end LinuxPro.Fifo
