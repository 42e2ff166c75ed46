import LinuxPro.Lib.CString
import Mathlib.Control.Monad.Basic

/-! The accept loop of the TLS server, over everything that OpenSSL and the network may answer. -/

namespace LinuxPro.Tls

/-- How many bytes of a message are read at once, `MAXBUF`. -/
def maxBuf : Nat := 1024

/-- The size of `struct sockaddr`. -/
def sizeofSockaddr : UInt32 := 16

/-- The text the server greets a client with. -/
def greeting : Chars := .ofString "server->client"

/-- What `SSL_read` answered: its result, and the bytes it stored. -/
structure ReadResult (size : Nat) where
  result : Int32
  data : Chars
  /-- No more is stored than was asked for. -/
  fits : data.length ≤ size
  /-- A positive result counts the bytes, and nothing is stored with any other. -/
  counts : data.length = result.toInt.toNat

/-- An accepted connection, with what OpenSSL will answer on it. -/
structure Conn where
  /-- The descriptor `accept` returned. -/
  fd : Int32
  /-- The address length `accept` stored. -/
  addrLen : UInt32
  /-- The result of `SSL_accept`. -/
  handshake : Int32
  /-- The result of `SSL_write`. -/
  written : Int32
  /-- The answer of `SSL_read`. -/
  read : ReadResult maxBuf

/-- What the listening socket answers to one `accept`. -/
inductive Incoming where
  /-- A connection was accepted. -/
  | connection (conn : Conn)
  /-- The call failed with this error number. -/
  | failed (errno : Int32)

/-- What the server tells the operator. -/
inductive Message where
  | gotConnection (fd : Int32)
  | sendFailed (buf : Chars)
  | sendSucceeded (buf : Chars) (len : UInt32)
  | received (buf : Chars) (len : UInt32)
  | receiveFailed
  deriving DecidableEq

/-- The calls the server makes, in the order it makes them. -/
inductive Call where
  /-- Wait for a connection, with this length for its address. -/
  | accept (len : UInt32)
  | perror (text : String)
  | sslNew (ssl : Nat)
  | sslSetFd (ssl : Nat) (fd : Int32)
  | sslAccept (ssl : Nat)
  | sslWrite (ssl : Nat) (data : Chars)
  | sslRead (ssl : Nat) (size : Nat)
  | sslShutdown (ssl : Nat)
  | sslFree (ssl : Nat)
  | close (fd : Int32)
  | closeListener
  | sslCtxFree
  | exit (code : Int32)
  | printf (message : Message)
  deriving DecidableEq

/-- The variables of `main` that outlive one turn of the loop, and the calls made so far. -/
structure Server where
  /-- The variable `len`, of the unsigned type `socklen_t`. -/
  len : UInt32
  /-- The array `buf`. -/
  buf : Chars
  /-- How many SSL objects were created, which numbers the next one. -/
  created : Nat
  calls : List Call

/-- Code of the accept loop. -/
abbrev ServerM := StateM Server

/-- Make a call that changes none of the variables. -/
def call (made : Call) : ServerM Unit :=
  modify fun s => { s with calls := s.calls ++ [made] }

/-- Assign to `len`. -/
def setLen (len : UInt32) : ServerM Unit :=
  modify fun s => { s with len := len }

/-- Assign to the whole of `buf`. -/
def setBuf (change : Chars → Chars) : ServerM Unit :=
  modify fun s => { s with buf := change s.buf }

/-- `SSL_new`, which never returns the same object twice. -/
def sslNew : ServerM Nat := do
  let ssl := (← get).created
  modify fun s => { s with created := ssl + 1 }
  call (.sslNew ssl)
  return ssl

/-- Whether the loop goes on after a connection, or is left by `break`. -/
inductive Turn where
  | goOn
  | leave
  deriving DecidableEq

/-- What the loop does with one accepted connection. -/
def session (conn : Conn) : ServerM Turn := do
  let ssl ← sslNew
  call (.sslSetFd ssl conn.fd)
  call (.sslAccept ssl)
  -- Any other failure of the handshake is taken for success.
  if conn.handshake = -1 then
    call (.perror "accept")
    call (.close conn.fd)
    return .leave
  setBuf fun _ => .bzero (maxBuf + 1)
  setBuf fun buf => buf.strcpy greeting
  let buf := (← get).buf
  call (.sslWrite ssl (buf.take buf.strlen))
  -- The signed result is converted to the unsigned type of the variable.
  setLen conn.written.toUInt32
  -- The variable is unsigned, so that this is a test for zero.
  if (← get).len ≤ 0 then
    call (.printf (.sendFailed buf))
  else
    call (.printf (.sendSucceeded buf (← get).len))
    setBuf fun _ => .bzero (maxBuf + 1)
    call (.sslRead ssl maxBuf)
    setBuf fun buf => buf.store conn.read.data
    setLen conn.read.result.toUInt32
    if (← get).len > 0 then
      call (.printf (.received (← get).buf (← get).len))
    else
      call (.printf .receiveFailed)
  -- The label `finish`, which both outcomes of the write lead to.
  call (.sslShutdown ssl)
  call (.sslFree ssl)
  call (.close conn.fd)
  return .goOn

/-- Where the server is once there is nothing left to accept. -/
inductive Status where
  /-- It waits for the next connection. -/
  | waiting
  /-- It has left the loop and returned from `main`. -/
  | returned
  /-- It has called `exit`. -/
  | exited
  deriving DecidableEq

/-- The accept loop, over the answers of the listening socket. -/
def acceptLoop : List Incoming → ServerM Status
  | [] => do
    setLen sizeofSockaddr
    call (.accept (← get).len)
    return .waiting
  | incoming :: rest => do
    setLen sizeofSockaddr
    call (.accept (← get).len)
    match incoming with
    | .failed errno =>
      -- A failed `accept` ends the program with its error number.
      call (.perror "accept")
      call (.exit errno)
      return .exited
    | .connection conn =>
      setLen conn.addrLen
      call (.printf (.gotConnection conn.fd))
      match ← session conn with
      | .goOn => acceptLoop rest
      | .leave =>
        -- Behind the loop the listener is closed, and `main` returns.
        call .closeListener
        call .sslCtxFree
        return .returned

end LinuxPro.Tls
