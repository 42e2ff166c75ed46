import LinuxPro.Http.Libevent
import LinuxPro.Lib.Machine

/-! The HTTP client: one request object, restarted by every redirect until the loop is left. -/

namespace LinuxPro.Http

/-- The content type of a post whose caller gave none, `HTTP_CONTENT_TYPE_URL_ENCODED`. -/
def urlEncoded : Chars := .ofString "application/x-www-form-urlencoded"

/-- The status code `HTTP_OK`. -/
def httpOk : Int := 200

/-- The status code `HTTP_MOVEPERM`. -/
def httpMoveperm : Int := 301

/-- The status code `HTTP_MOVETEMP`. -/
def httpMovetemp : Int := 302

/-- Make the post request for the uri of the request object. -/
def makePost : ClientM Unit := do
  let path ← evhttpUriGetPath (← get).uri
  -- The query of the uri is not part of the target.
  evhttpMakeRequest (← get).cn (← get).req .post (path.getD (.ofString "/"))
  let some post := (← get).post | throw .notPost
  -- The length is taken without a test for `NULL`.
  let _ ← strlen post.postData
  evbufferAdd (← get).req (post.postData.getD [])
  evhttpAddHeader (← get).req (.ofString "Content-Type") post.contentType

/--
Make the get request for the uri of the request object.

The length of the array and of the text that is formatted into it are recorded, and the code goes on
with the whole text also where it does not fit.
-/
def makeGet : ClientM Unit := do
  let query ← evhttpUriGetQuery (← get).uri
  let path ← evhttpUriGetPath (← get).uri
  -- The one more is for the terminator, and there is none for the question mark.
  let len := (query.map List.length).getD 0 + (path.map List.length).getD 0 + 1
  if len > 1 then
    let pathQuery := printed path ++ .ofString "?" ++ printed query
    -- The array has the size computed above, whatever the formatted text needs.
    modify fun s => { s with formatted := (len, pathQuery.length + 1) :: s.formatted }
    evhttpMakeRequest (← get).cn (← get).req .get pathQuery
  else
    evhttpMakeRequest (← get).cn (← get).req .get (.ofString "/")

/-- The request object as it is now, for the history. -/
def enterStart (flag : Flag) : ClientM Unit :=
  modify fun s =>
    { s with entries := { flag := flag, uri := s.uri.bind s.uris, post := s.post } :: s.entries }

/-- Replace the connection by one for the uri of the request object, and create a request. -/
def reconnect (flag : Flag) : ClientM Unit := do
  match (← get).cn with
  | none => pure ()
  -- What is queued on the old connection is dropped with it.
  | some cn => evhttpConnectionFree cn
  let port ← evhttpUriGetPort (← get).uri
  let host ← evhttpUriGetHost (← get).uri
  let cn ← evhttpConnectionBaseNew host (if port = -1 then 80 else port)
  modify fun s => { s with cn := some cn }
  let req ← evhttpRequestNew flag
  modify fun s => { s with req := some req }

/-- Make the request that was created on the connection that was opened. -/
def makeRequest (flag : Flag) : ClientM Unit := do
  match flag with
  | .post => makePost
  | .get => makeGet
  let host ← evhttpUriGetHost (← get).uri
  evhttpAddHeader (← get).req (.ofString "Host") host

/-- Open a connection for the uri of the request object and make the request on it. -/
def startUrlRequest (flag : Flag) : ClientM Unit := do
  enterStart flag
  reconnect flag
  makeRequest flag

section Parse

variable (parse : Chars → Option Uri)

/-- What both callbacks do, up to the kind of request that a redirect starts. -/
def httpRequsetCb (flag : Flag) (req : Option Response) : ClientM Unit := do
  -- The status code is read through the pointer before anything else is looked at.
  let some response := req | throw .noRequest
  if response.code = httpOk then
    eventBaseLoopexit
  else if response.code = httpMoveperm then
    -- A permanent redirect is only printed, so that nothing is outstanding any more.
    pure ()
  else if response.code = httpMovetemp then
    let newLocation := evhttpFindHeader response.inputHeaders (.ofString "Location")
    let newUri ← evhttpUriParse parse newLocation
    -- The old uri is freed before it is known whether there is a new one.
    evhttpUriFree (← get).uri
    modify fun s => { s with uri := newUri }
    startUrlRequest flag
  else
    eventBaseLoopexit

/-- The callback of a post request. -/
def httpRequsetPostCb (req : Option Response) : ClientM Unit := httpRequsetCb parse .post req

/-- The callback of a get request. -/
def httpRequsetGetCb (req : Option Response) : ClientM Unit := httpRequsetCb parse .get req

/-- Print the parts of a uri, each of which is read through the pointer. -/
def printUriPartsInfo (uri : Option Nat) : ClientM Unit := do
  let _ ← derefUri uri

/-- Fill in a request object that was allocated with all its fields zero. -/
def httpRequestNew (url : Chars) (flag : Flag) (contentType data : Option Chars) :
    ClientM Unit := do
  let uri ← evhttpUriParse parse (some url)
  modify fun s => { s with uri := uri }
  printUriPartsInfo (← get).uri
  match flag with
  | .get => pure ()
  | .post =>
    modify fun s =>
      { s with post := some { contentType := some (contentType.getD urlEncoded), postData := data } }

/-- Create the request object and start its first request. -/
def startHttpRequset (url : Chars) (flag : Flag) (contentType data : Option Chars) :
    ClientM Unit := do
  httpRequestNew parse url flag contentType data
  startUrlRequest flag

/-- The client once its first request is under way, or the fault that kept it from there. -/
def start (url : Chars) (flag : Flag) (contentType data : Option Chars) : Except Fault Client :=
  ((startHttpRequset parse url flag contentType data).run {}).map Prod.snd

/-- One outstanding request completes, with a response or, on a transport failure, with `NULL`. -/
structure Completion where
  request : Nat
  response : Option Response

/-- Libevent takes a completed request off its connection and calls its callback. -/
def complete (done : Completion) : ClientM Unit := do
  let some q := (← get).requests done.request | throw .noRequest
  -- The request is off the connection before its callback runs.
  modify fun s => { s with outstanding := s.outstanding.erase done.request }
  match q.callback with
  | .post => httpRequsetPostCb parse done.response
  | .get => httpRequsetGetCb parse done.response

/-- The client from a given state on, as its outstanding requests complete. -/
def client (begins : Client) : Machine Client Completion Fault where
  start := begins
  enabled s done := done.request ∈ s.outstanding
  exec s done := ((complete parse done).run s).map Prod.snd

end Parse

end LinuxPro.Http
