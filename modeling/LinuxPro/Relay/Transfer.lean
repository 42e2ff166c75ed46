import LinuxPro.Lib.Machine
import LinuxPro.Tls.Server
import Mathlib.Logic.Function.Basic

/-! The loop of the TLS relay that forwards between a client and a server through one array. -/

namespace LinuxPro.Relay

open Tls (ReadResult)

/-- The two parties the relay stands between. -/
inductive Side where
  | client
  | server
  deriving DecidableEq, Repr

/-- The party that what is read from this one is forwarded to. -/
def Side.other : Side → Side
  | client => server
  | server => client

/-- The size of the array `buffer`. -/
def bufferSize : Nat := 4096

/-- What the calls made in one pass through the loop answer, over a TLS layer with some state. -/
structure Pass (σ : Type) where
  /-- The result of `select`. -/
  select : Int32
  /-- Which of the two sockets `select` left in the set. -/
  ready : Side → Bool
  /-- What `SSL_read` answers on the connection to a party, and what it does to the layer. -/
  read : Side → σ → ReadResult bufferSize × σ
  /-- The result of `SSL_write` on the connection to a party. -/
  write : Side → Int32

/-- Why the loop was left, which is what the relay warns of. -/
inductive Cause where
  | selectFailed
  | readFailed (side : Side)
  | writeFailed (side : Side)
  deriving DecidableEq, Repr

/-- The array as it was handed to `printf`, with the count printed before it. -/
structure Print where
  side : Side
  count : Int32
  buffer : Chars
  deriving DecidableEq

/-- The variables of `transfer`, the TLS layer it works on, and what has happened so far. -/
structure State (σ : Type) where
  ret : Int32
  buffer : Chars
  tls : σ
  /-- The bytes that were read from each party. -/
  received : Side → Chars
  /-- The bytes that were written to each party by calls that wrote all they were given. -/
  sent : Side → Chars
  printed : List Print
  /-- Why the loop was left, if it was. -/
  left : Option Cause

variable {σ : Type}

/-- Code of the loop. -/
abbrev RelayM (σ : Type) := StateM (State σ)

/-- `memset` of the whole array to zero. -/
def clearBuffer : RelayM σ Unit :=
  modify fun s => { s with buffer := .bzero bufferSize }

/-- `SSL_read` into the array, with its result in `ret`. -/
def sslRead (pass : Pass σ) (side : Side) : RelayM σ Unit :=
  modify fun s =>
    let (answer, tls) := pass.read side s.tls
    { s with
      ret := answer.result
      buffer := s.buffer.store answer.data
      tls := tls
      received := Function.update s.received side (s.received side ++ answer.data) }

/-- `SSL_write` of the first bytes of the array, which sends them all if it returns their number. -/
def sslWrite (pass : Pass σ) (side : Side) (len : Int32) : RelayM σ Int32 := do
  -- What a shorter write has sent is not counted, as the loop is left behind it.
  if pass.write side = len then
    modify fun s =>
      { s with
        sent := Function.update s.sent side (s.sent side ++ s.buffer.take len.toInt.toNat) }
  return pass.write side

/-- `printf` of how many bytes were forwarded, and of the array. -/
def print (side : Side) : RelayM σ Unit :=
  modify fun s => { s with printed := s.printed ++ [⟨side, s.ret, s.buffer⟩] }

/-- The block of the loop for one party, which returns why the loop is left if it is. -/
def forward (pass : Pass σ) (side : Side) : RelayM σ (Option Cause) := do
  -- The whole array is cleared, but the read may fill it.
  clearBuffer
  sslRead pass side
  let ret := (← get).ret
  if ret > 0 then
    if ret ≠ (← sslWrite pass side.other ret) then
      return some (.writeFailed side.other)
    else
      print side
      return none
  else
    return some (.readFailed side)

/-- The block for one party, which is entered if its socket is in the set. -/
def forwardIfReady (pass : Pass σ) (side : Side) : RelayM σ (Option Cause) :=
  if pass.ready side then forward pass side else return none

/-- One pass through the loop. -/
def loopBody (pass : Pass σ) : RelayM σ (Option Cause) := do
  modify fun s => { s with ret := pass.select }
  let ret := (← get).ret
  if ret < 0 then
    return some .selectFailed
  -- The time has run out, and the loop goes round.
  else if ret = 0 then
    return none
  else
    -- A `break` in the first block leaves the loop without the second.
    match ← forwardIfReady pass .client with
    | some cause => return some cause
    | none => forwardIfReady pass .server

/-- One pass through the loop, and whether it was the last. -/
def runPass (pass : Pass σ) (s : State σ) : State σ :=
  let (left, t) := (loopBody pass).run s
  { t with left := left }

/-- The variables when the loop is entered, with a new TLS layer. -/
def begins (tls : σ) : State σ where
  ret := 0
  buffer := .bzero bufferSize
  tls := tls
  received := fun _ => []
  sent := fun _ => []
  printed := []
  left := none

/-- The function `transfer`, as a machine that makes one pass after the other until it returns. -/
def transfer (tls : σ) : Machine (State σ) (Pass σ) Empty where
  start := begins tls
  -- Behind the loop no further pass is made.
  enabled s _ := s.left = none
  exec s pass := .ok (runPass pass s)

end LinuxPro.Relay
