import LinuxPro.Http.Query

/-! The management HTTP server, which dispatches by the method and the start of the uri. -/

namespace LinuxPro.Mgr

open Http (evhttpParseQuery)

/-- The method of a request, as `evhttp_request_get_command` gives it. -/
inductive Command where
  | get
  | post
  | head
  | put
  | delete
  | options
  | trace
  | connect
  | patch
  /-- Any other value. -/
  | unknown
  deriving DecidableEq

/-- A request as libevent hands it to the server. -/
structure Request where
  command : Command
  uri : Chars
  inputHeaders : List (Chars × Chars)
  deriving DecidableEq

/-- What a client is sent. -/
structure Reply where
  code : Nat
  reason : Chars
  body : Chars
  deriving DecidableEq

/-- What the server has done so far. -/
structure State where
  /-- The replies sent, each with the request it is for. -/
  replies : List (Request × Reply) := []
  log : List Chars := []

/-- Code of the server. -/
abbrev ServerM := StateM State

/-- `LOG` of a text. -/
def log (text : Chars) : ServerM Unit :=
  modify fun s => { s with log := s.log ++ [text] }

/-- `evhttp_send_reply`. -/
def evhttpSendReply (req : Request) (code : Nat) (reason body : Chars) : ServerM Unit :=
  modify fun s => { s with replies := s.replies ++ [(req, ⟨code, reason, body⟩)] }

/-- `GET_TARG_POSITION`. -/
def getTargPosition : Chars := .ofString "/Target/GetPosition"

/-- `GET_TARG_POSITION_SIZE`. -/
def getTargPositionSize : Nat := 19

/-- `GET_TARG_BASICINFO`. -/
def getTargBasicinfo : Chars := .ofString "/Target/GetInfo"

/-- `GET_TARG_BASICINFO_SIZE`. -/
def getTargBasicinfoSize : Nat := 15

/-- The status code `HTTP_OK`. -/
def httpOk : Nat := 200

/-- The status code `HTTP_NOTIMPLEMENTED`. -/
def httpNotimplemented : Nat := 501

/-- The position handler, which does not look at the parameters and leaves the output as it is. -/
def decodeGetTargPosition (_params : List (Chars × Chars)) (str : Chars) : Nat × Chars :=
  (httpOk, str)

/-- The loop that logs the headers of a request. -/
def logHeaders : List (Chars × Chars) → ServerM Unit
  | [] => return
  | header :: rest => do
    log (header.1 ++ .ofString " :  " ++ header.2)
    logHeaders rest

/-- The branch of the get handler on what the uri begins with, for the code and the output. -/
def dispatchGet (uri : Chars) (params : List (Chars × Chars)) (strOut : Chars) :
    ServerM (Nat × Chars) := do
  -- No more bytes are compared than the name has, so that a longer path matches too.
  if Chars.strncmp uri getTargPosition getTargPositionSize = 0 then
    return decodeGetTargPosition params strOut
  else if Chars.strncmp uri getTargBasicinfo getTargBasicinfoSize = 0 then
    log (.ofString "Expand Get Target Info Interface, havn't implemented!")
    return (httpNotimplemented, strOut ++ .ofString "Get Target Info not implemented")
  else
    log (.ofString "Reserved!")
    return (httpNotimplemented, strOut ++ .ofString "not implemented")

/-- The handler of get requests. -/
def handleRequestGet (req : Request) : ServerM Unit := do
  let uri := req.uri
  log (.ofString "Received a GET request for " ++ uri ++ .ofString " headers:")
  logHeaders req.inputHeaders
  let params := evhttpParseQuery uri
  -- The uri is handed over with its query.
  let (code, strOut) ← dispatchGet uri params []
  -- The reason is the same for every code.
  evhttpSendReply req code (.ofString "OK") strOut

/-- The handler of post requests. -/
def handleRequestPost (_req : Request) : ServerM Unit :=
  log (.ofString "handle_request_post Reserved!")

/-- The callback for every request. -/
def dumpRequestCb (req : Request) : ServerM Unit :=
  match req.command with
  | .get => do
    log (.ofString "CMD Type GET \n")
    handleRequestGet req
  | .post => do
    log (.ofString "CMD Type POST \n")
    handleRequestPost req
  -- The other methods are only logged, and get no reply.
  | .head => log (.ofString "CMD Type HEAD \n")
  | .put => log (.ofString "CMD Type PUT \n")
  | .delete => log (.ofString "CMD Type DELETE \n")
  | .options => log (.ofString "CMD Type OPTIONS \n")
  | .trace => log (.ofString "CMD Type TRACE \n")
  | .connect => log (.ofString "CMD Type CONNECT \n")
  | .patch => log (.ofString "CMD Type PATCH \n")
  | .unknown => log (.ofString "CMD Type UnKnow \n")

/-- The server over a sequence of requests. -/
def serve : List Request → ServerM Unit
  | [] => return
  | req :: rest => do
    dumpRequestCb req
    serve rest

end LinuxPro.Mgr
