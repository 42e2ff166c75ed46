import LinuxPro.Lib.CString
import Mathlib.Control.Monad.Basic
import Mathlib.Logic.Function.Basic

/-!
The parts of libevent's HTTP client that the client program calls, with the faults of misuse.

A pointer to a text is `none` for `NULL`, and otherwise the bytes before the terminating zero.
-/

namespace LinuxPro.Http

/-- The parts of a parsed uri that the client uses. -/
structure Uri where
  /-- The host, which a relative reference does not have. -/
  host : Option Chars
  /-- The port, or minus one. -/
  port : Int
  path : Option Chars
  query : Option Chars
  deriving DecidableEq

/-- Which of its two kinds of request the client makes. -/
inductive Flag where
  /-- `REQUEST_GET_FLAG`. -/
  | get
  /-- `REQUEST_POST_FLAG`. -/
  | post
  deriving DecidableEq

/-- A request object, from its creation on. -/
structure Request where
  /-- Which of the two callbacks is called when the request completes. -/
  callback : Flag
  /-- The connection the request was made on. -/
  conn : Option Nat := none
  method : Option Flag := none
  target : Chars := []
  outputBuffer : Chars := []
  outputHeaders : List (Chars × Chars) := []
  deriving DecidableEq

/-- What a server answered. -/
structure Response where
  code : Int
  inputHeaders : List (Chars × Chars)

/-- The two fields a `http_request_post` has on top of a `http_request_get`. -/
structure PostPart where
  contentType : Option Chars
  postData : Option Chars

/-- What a libevent or libc function was given that it must not be given. -/
inductive Fault where
  /-- A uri function was called on `NULL`. -/
  | nullUri
  /-- A uri function was called on a uri that was freed. -/
  | freedUri
  /-- `evhttp_connection_base_new` was called without an address. -/
  | nullHost
  /-- A connection was used that is not there. -/
  | noConnection
  /-- A request was used that is not there, or `NULL` was read through as one. -/
  | noRequest
  /-- `strlen` was called on `NULL`. -/
  | nullText
  /-- A header was added with `NULL` for its value. -/
  | nullHeader
  /-- Fields of a `http_request_post` were read from a `http_request_get`. -/
  | notPost

/-- The request object as `start_url_request` found it, for the history of a run. -/
structure Entry where
  flag : Flag
  /-- The uri, unless the pointer is `NULL` or was freed. -/
  uri : Option Uri
  post : Option PostPart

/-- The memory of the client: its one request object, and what libevent holds for it. -/
structure Client where
  /-- The field `uri` of the request object. -/
  uri : Option Nat := none
  /-- The field `cn` of the request object. -/
  cn : Option Nat := none
  /-- The field `req` of the request object. -/
  req : Option Nat := none
  /-- The fields that only a `http_request_post` has. -/
  post : Option PostPart := none
  /-- The uris that were parsed and not freed. -/
  uris : Nat → Option Uri := fun _ => none
  nextUri : Nat := 0
  /-- The connections that are open, with the address and port they lead to. -/
  connections : Nat → Option (Chars × Int) := fun _ => none
  nextConn : Nat := 0
  requests : Nat → Option Request := fun _ => none
  nextReq : Nat := 0
  /-- The requests that were made and have not completed. -/
  outstanding : List Nat := []
  /-- Whether `event_base_loopexit` was called. -/
  exitRequested : Bool := false
  /-- The history of calls of `start_url_request`, latest first. -/
  entries : List Entry := []
  /-- The history of texts formatted into an allocated array: its size, and the bytes written. -/
  formatted : List (Nat × Nat) := []

/-- Code of the client. -/
abbrev ClientM := StateT Client (Except Fault)

/-- Read through a pointer to a uri. -/
def derefUri (uri : Option Nat) : ClientM Uri := do
  match uri with
  | none => throw .nullUri
  | some p =>
    match (← get).uris p with
    | none => throw .freedUri
    | some found => return found

/-- `evhttp_uri_parse`, which gives `NULL` for `NULL` and for text that is no uri. -/
def evhttpUriParse (parse : Chars → Option Uri) (text : Option Chars) : ClientM (Option Nat) := do
  match text.bind parse with
  | none => return none
  | some parsed =>
    let p := (← get).nextUri
    modify fun s => { s with uris := Function.update s.uris p (some parsed), nextUri := p + 1 }
    return some p

/-- `evhttp_uri_free`. -/
def evhttpUriFree (uri : Option Nat) : ClientM Unit := do
  -- A uri that is freed a second time is caught here.
  let _ ← derefUri uri
  match uri with
  | none => return
  | some p => modify fun s => { s with uris := Function.update s.uris p none }

/-- `evhttp_uri_get_host`. -/
def evhttpUriGetHost (uri : Option Nat) : ClientM (Option Chars) :=
  return (← derefUri uri).host

/-- `evhttp_uri_get_port`. -/
def evhttpUriGetPort (uri : Option Nat) : ClientM Int :=
  return (← derefUri uri).port

/-- `evhttp_uri_get_path`. -/
def evhttpUriGetPath (uri : Option Nat) : ClientM (Option Chars) :=
  return (← derefUri uri).path

/-- `evhttp_uri_get_query`. -/
def evhttpUriGetQuery (uri : Option Nat) : ClientM (Option Chars) :=
  return (← derefUri uri).query

/-- `strlen`, which must not be called on `NULL`. -/
def strlen (text : Option Chars) : ClientM Nat :=
  match text with
  | none => throw .nullText
  | some text => return text.length

/-- `evhttp_connection_base_new`. -/
def evhttpConnectionBaseNew (host : Option Chars) (port : Int) : ClientM Nat := do
  let some address := host | throw .nullHost
  let cn := (← get).nextConn
  modify fun s =>
    { s with
      connections := Function.update s.connections cn (some (address, port))
      nextConn := cn + 1 }
  return cn

/-- `evhttp_connection_free`, which drops the requests that are queued on the connection. -/
def evhttpConnectionFree (cn : Nat) : ClientM Unit := do
  let some _ := (← get).connections cn | throw .noConnection
  modify fun s =>
    { s with
      -- No callback is called for a request that is dropped.
      connections := Function.update s.connections cn none
      outstanding := s.outstanding.filter fun r =>
        (s.requests r).bind (fun q => q.conn) ≠ some cn }

/-- `evhttp_request_new`. -/
def evhttpRequestNew (callback : Flag) : ClientM Nat := do
  let req := (← get).nextReq
  modify fun s =>
    { s with
      requests := Function.update s.requests req (some { callback := callback })
      nextReq := req + 1 }
  return req

/-- Change a request object. -/
def updateRequest (req : Option Nat) (f : Request → Request) : ClientM Unit := do
  let some r := req | throw .noRequest
  let some q := (← get).requests r | throw .noRequest
  modify fun s => { s with requests := Function.update s.requests r (some (f q)) }

/-- `evhttp_make_request`, after which the request is outstanding. -/
def evhttpMakeRequest (cn req : Option Nat) (method : Flag) (target : Chars) : ClientM Unit := do
  let some c := cn | throw .noConnection
  let some _ := (← get).connections c | throw .noConnection
  -- From here on the request belongs to the connection, and goes with it.
  updateRequest req fun q => { q with conn := some c, method := some method, target := target }
  modify fun s => { s with outstanding := s.outstanding ++ req.toList }

/-- `evbuffer_add` to the output buffer of a request. -/
def evbufferAdd (req : Option Nat) (data : Chars) : ClientM Unit :=
  updateRequest req fun q => { q with outputBuffer := q.outputBuffer ++ data }

/-- `evhttp_add_header` to the output headers of a request. -/
def evhttpAddHeader (req : Option Nat) (key : Chars) (value : Option Chars) : ClientM Unit := do
  let some value := value | throw .nullHeader
  updateRequest req fun q => { q with outputHeaders := q.outputHeaders ++ [(key, value)] }

/-- A letter in lower case, for bytes that are letters. -/
def lower (byte : UInt8) : UInt8 :=
  if 65 ≤ byte ∧ byte ≤ 90 then byte + 32 else byte

/-- What `%s` prints for a pointer to text. -/
def printed (text : Option Chars) : Chars := text.getD (.ofString "(null)")

/-- `evhttp_find_header`, which ignores the case of the key and takes the first match. -/
def evhttpFindHeader (headers : List (Chars × Chars)) (key : Chars) : Option Chars :=
  -- The headers are in the order in which they arrived.
  (headers.find? fun header => header.1.map lower = key.map lower).map Prod.snd

/-- `event_base_loopexit`. -/
def eventBaseLoopexit : ClientM Unit :=
  modify fun s => { s with exitRequested := true }

end LinuxPro.Http
