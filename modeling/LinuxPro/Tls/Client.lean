import LinuxPro.Tls.Server

/-! The TLS client, from the handshake on. -/

namespace LinuxPro.Tls.Client

/-- The text the client sends. -/
def answer : Chars := .ofString "from client->server"

/-- What the client prints. -/
inductive Output where
  /-- The errors of a handshake that returned minus one. -/
  | connectErrors
  /-- The cipher and the certificates. -/
  | connected
  | received (buffer : Chars) (len : Int32)
  | receiveFailed
  | sendFailed (buffer : Chars)
  | sendSucceeded (buffer : Chars) (len : Int32)
  deriving DecidableEq

/-- The variables of `main` from the handshake on, and what the client has done. -/
structure State where
  buffer : Chars
  len : Int32
  output : List Output
  /-- The bytes handed to `SSL_write`. -/
  written : List Chars
  /-- Whether the connection was shut down and everything freed. -/
  finished : Bool

/-- Code of the client. -/
abbrev ClientM := StateM State

/-- `printf` of a message. -/
def print (output : Output) : ClientM Unit :=
  modify fun s => { s with output := s.output ++ [output] }

/-- Assign to the whole of `buffer`. -/
def setBuffer (change : Chars → Chars) : ClientM Unit :=
  modify fun s => { s with buffer := change s.buffer }

/-- The calls behind the label `finish`. -/
def finish : ClientM Unit :=
  modify fun s => { s with finished := true }

/-- `SSL_read` into `buffer`, with its result in `len`. -/
def sslRead (read : ReadResult maxBuf) : ClientM Unit :=
  modify fun s => { s with buffer := s.buffer.store read.data, len := read.result }

/-- `SSL_write` of the text in `buffer`, with its result in `len`. -/
def sslWrite (written : Int32) : ClientM Unit :=
  modify fun s =>
    { s with
      written := s.written ++ [s.buffer.take s.buffer.strlen]
      len := written }

/-- Clear `buffer` and receive a message in it. -/
def receive (read : ReadResult maxBuf) : ClientM Unit := do
  setBuffer fun _ => .bzero (maxBuf + 1)
  sslRead read

/-- Send the answer through `buffer`, and report how that went. -/
def send (written : Int32) : ClientM Unit := do
  setBuffer fun _ => .bzero (maxBuf + 1)
  setBuffer fun buffer => buffer.strcpy answer
  sslWrite written
  let s ← get
  if s.len < 0 then
    print (.sendFailed s.buffer)
  else
    print (.sendSucceeded s.buffer s.len)

/-- The client, over the results of `SSL_connect`, `SSL_read` and `SSL_write`. -/
def main (connect : Int32) (read : ReadResult maxBuf) (written : Int32) : ClientM Unit := do
  -- The client goes on to read even if the handshake has failed.
  print (if connect = -1 then .connectErrors else .connected)
  receive read
  let s ← get
  if s.len > 0 then
    print (.received s.buffer s.len)
    send written
  else
    print .receiveFailed
  finish

/-- The variables when the client has connected, with `buffer` and `len` as they were found. -/
def begins (buffer : Chars) (len : Int32) : State where
  buffer := buffer
  len := len
  output := []
  written := []
  finished := false

end LinuxPro.Tls.Client
