import LinuxPro.Http.Libevent
import LinuxPro.Lib.Buffer
import LinuxPro.Lib.Exact

/-! The request handler of the HTTP server, which echoes it through arrays of fixed size. -/

namespace LinuxPro.Httpd

open Http (printed)

/-- The functions of libevent that are called on the uri, of which nothing is assumed here. -/
structure Evhttp where
  /-- `evhttp_decode_uri`. -/
  decodeUri : Chars → Chars
  /-- `evhttp_parse_query`. -/
  parseQuery : Chars → List (Chars × Chars)
  /-- `evhttp_find_header`. -/
  findHeader : List (Chars × Chars) → Chars → Option Chars

/-- A request as libevent hands it to the handler. -/
structure Request where
  uri : Chars
  /-- The uri is a text, which ends before the first zero. -/
  printable : ∀ byte ∈ uri, byte ≠ 0
  /-- The body, of any length and content. -/
  inputBuffer : Chars

/-- The arrays among the handler's local variables. -/
inductive Variable where
  | output
  | tmp
  | postData
  deriving DecidableEq

/-- Which of the arrays code ran past the end of, and how. -/
structure Fault where
  place : Variable
  kind : BufferFault
  deriving DecidableEq

/-- What a client is sent. -/
structure Reply where
  code : Nat
  reason : Chars
  headers : List (Chars × Chars)
  body : Chars
  deriving DecidableEq

/-- The local variables of the handler, and what it has done for the request. -/
structure Frame where
  output : Buffer 2048
  tmp : Buffer 1024
  postData : Buffer 512
  params : List (Chars × Chars)
  /-- What `evhttp_find_header` was asked for and has found, in order. -/
  lookups : List (Chars × Option Chars)
  outputHeaders : List (Chars × Chars)
  replies : List Reply

/-- Code of the handler. -/
abbrev HandlerM := StateT Frame (Except Fault)

/-- An operation on one of the arrays. -/
def on {α : Type} (place : Variable) (outcome : Except BufferFault α) : HandlerM α :=
  match outcome with
  | .ok value => return value
  | .error kind => throw ⟨place, kind⟩

/-- `sprintf` of a text into `tmp`. -/
def sprintf (text : Chars) : HandlerM Unit := do
  let tmp ← on .tmp ((← get).tmp.strcpy text)
  modify fun frame => { frame with tmp := tmp }

/-- `strcat` of the text in `tmp` to `output`. -/
def strcat : HandlerM Unit := do
  let text ← on .tmp (← get).tmp.text
  let output ← on .output ((← get).output.strcat text)
  modify fun frame => { frame with output := output }

/-- Format a labelled value with a newline behind it, and append that to `output`. -/
def echo (label value : Chars) : HandlerM Unit := do
  sprintf (label ++ value ++ .ofString "\n")
  strcat

/-- `evhttp_find_header` among the parameters, whose result is used as a text. -/
def findParam (evhttp : Evhttp) (key : Chars) : HandlerM (Option Chars) := do
  let found := (evhttp.findHeader (← get).params key).map Chars.text
  modify fun frame => { frame with lookups := frame.lookups ++ [(key, found)] }
  return found

/-- `evbuffer_copyout` of the whole body into `post_data`. -/
def evbufferCopyout (inputBuffer : Chars) : HandlerM Unit := do
  let postData ← on .postData ((← get).postData.store inputBuffer)
  modify fun frame => { frame with postData := postData }

/-- `evhttp_add_header`. -/
def evhttpAddHeader (key value : Chars) : HandlerM Unit :=
  modify fun frame => { frame with outputHeaders := frame.outputHeaders ++ [(key, value)] }

/-- `evhttp_send_reply`, with the headers that were added. -/
def evhttpSendReply (code : Nat) (reason body : Chars) : HandlerM Unit :=
  modify fun frame =>
    { frame with replies := frame.replies ++ [⟨code, reason, frame.outputHeaders, body⟩] }

/-- The uri after `evhttp_decode_uri`, as the text before the first zero that this produced. -/
def decodedUri (evhttp : Evhttp) (uri : Chars) : Chars := (evhttp.decodeUri uri).text

/-- `MYHTTPD_SIGNATURE`. -/
def signature : Chars := .ofString "myhttpd v 0.0.1"

/-- The request handler. -/
def httpdHandler (evhttp : Evhttp) (req : Request) : HandlerM Unit := do
  let uri := req.uri
  echo (.ofString "uri=") uri
  echo (.ofString "uri=") req.uri
  let decoded := decodedUri evhttp uri
  echo (.ofString "decoded_uri=") decoded
  -- What is parsed here has been decoded already.
  modify fun frame => { frame with params := evhttp.parseQuery decoded }
  echo (.ofString "q=") (printed (← findParam evhttp (.ofString "q")))
  echo (.ofString "s=") (printed (← findParam evhttp (.ofString "s")))
  -- As many bytes are copied as the body has, whatever the size of the array.
  evbufferCopyout req.inputBuffer
  echo (.ofString "post_data=") (← on .postData (← get).postData.text)
  evhttpAddHeader (.ofString "Server") signature
  evhttpAddHeader (.ofString "Content-Type") (.ofString "text/plain; charset=UTF-8")
  evhttpAddHeader (.ofString "Connection") (.ofString "close")
  let text ← on .output (← get).output.text
  evhttpSendReply 200 (.ofString "OK") (.ofString "It works!\n" ++ text ++ .ofString "\n")

/-- The local variables when the handler is entered, with `tmp` as it was found. -/
def begins (tmp : Buffer 1024) : Frame where
  output := .zeros 2048
  tmp := tmp
  postData := .zeros 512
  params := []
  lookups := []
  outputHeaders := []
  replies := []

end LinuxPro.Httpd
