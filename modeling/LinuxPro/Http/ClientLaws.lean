import LinuxPro.Http.Client
import LinuxPro.Lib.Fault
import Mathlib.Algebra.Order.Group.Nat

/-! What the client's functions do when they are given what they need, and where they fault. -/

namespace LinuxPro.Http

variable {s t : Client} {flag : Flag} {p c r : Nat} {u : Uri} {host : Chars} {q : Request}
  {parse : Chars → Option Uri}

/-- Reading through a pointer gives the live uri it leads to. -/
@[simp] theorem derefUri_run (p : Nat) (s : Client) :
    (derefUri (some p)).run s = (s.uris p).elim (.error .freedUri) fun u => .ok (u, s) := by
  cases live : s.uris p <;> simp [derefUri, live]

/-- Reading through `NULL` faults. -/
@[simp] theorem derefUri_null (s : Client) : (derefUri none).run s = .error .nullUri := by
  simp [derefUri]

/-- Parsing allocates a uri that no pointer leads to yet, or gives `NULL`. -/
@[simp] theorem evhttpUriParse_run (text : Option Chars) (s : Client) :
    (evhttpUriParse parse text).run s = (text.bind parse).elim (.ok (none, s)) fun u =>
      .ok (some s.nextUri,
        { s with uris := Function.update s.uris s.nextUri (some u), nextUri := s.nextUri + 1 }) := by
  cases parsed : text.bind parse <;> simp [evhttpUriParse, parsed]

/-- Only a live uri can be freed. -/
@[simp] theorem evhttpUriFree_run (p : Nat) (s : Client) :
    (evhttpUriFree (some p)).run s = (s.uris p).elim (.error .freedUri) fun _ =>
      .ok ((), { s with uris := Function.update s.uris p none }) := by
  cases live : s.uris p <;> simp [evhttpUriFree, live]

/-- Changing a request object that exists. -/
@[simp] theorem updateRequest_run (r : Nat) (f : Request → Request) (s : Client) :
    (updateRequest (some r) f).run s = (s.requests r).elim (.error .noRequest) fun q =>
      .ok ((), { s with requests := Function.update s.requests r (some (f q)) }) := by
  cases known : s.requests r <;> simp [updateRequest, known]

/-- The size of the array that `start_url_request` allocates for the target of a get request. -/
def pathQueryLen (u : Uri) : Nat :=
  (u.query.map List.length).getD 0 + (u.path.map List.length).getD 0 + 1

/-- The text that is formatted into that array. -/
def pathQuery (u : Uri) : Chars :=
  printed u.path ++ .ofString "?" ++ printed u.query

/-- The target of a request for a uri. -/
def target (u : Uri) : Flag → Chars
  | .get => if pathQueryLen u > 1 then pathQuery u else .ofString "/"
  | .post => u.path.getD (.ofString "/")

/-- The arrays that a request for a uri formats its target into. -/
def formats (u : Uri) : Flag → List (Nat × Nat)
  | .get => if pathQueryLen u > 1 then [(pathQueryLen u, (pathQuery u).length + 1)] else []
  | .post => []

/-- The memory after a request for a uri was made, with what the request says. -/
def made (flag : Flag) (u : Uri) (s : Client) (c r : Nat) (q : Request) (body : Chars)
    (headers : List (Chars × Chars)) : Client :=
  { s with
    requests := Function.update s.requests r
      (some { q with
        conn := some c
        method := some flag
        target := target u flag
        outputBuffer := q.outputBuffer ++ body
        outputHeaders := q.outputHeaders ++ headers })
    outstanding := s.outstanding ++ [r]
    formatted := formats u flag ++ s.formatted }

/-- A get request is made for the path and the query. -/
theorem makeGet_run (uri : s.uri = some p) (live : s.uris p = some u) (cn : s.cn = some c)
    {address : Chars × Int} (opened : s.connections c = some address) (req : s.req = some r)
    (known : s.requests r = some q) : makeGet.run s = .ok ((), made .get u s c r q [] []) := by
  -- Only the target and the array it is formatted into depend on whether there is anything to say.
  by_cases content : 0 < (u.query.map List.length).getD 0 ∨ 0 < (u.path.map List.length).getD 0
  · simp [makeGet, evhttpUriGetQuery, evhttpUriGetPath, evhttpMakeRequest, made, target, formats,
      pathQuery, pathQueryLen, uri, live, cn, opened, req, known, content]
  · simp [makeGet, evhttpUriGetQuery, evhttpUriGetPath, evhttpMakeRequest, made, target, formats,
      pathQueryLen, uri, live, cn, opened, req, known, content]

/-- A post request is made for the path, and carries the data and its content type. -/
theorem makePost_run (uri : s.uri = some p) (live : s.uris p = some u) (cn : s.cn = some c)
    {address : Chars × Int} (opened : s.connections c = some address) (req : s.req = some r)
    (known : s.requests r = some q) {contentType data : Chars}
    (post : s.post = some ⟨some contentType, some data⟩) :
    makePost.run s = .ok ((),
      made .post u s c r q data [(.ofString "Content-Type", contentType)]) := by
  simp [makePost, evhttpUriGetPath, evhttpMakeRequest, made, target, formats, strlen, evbufferAdd,
    evhttpAddHeader, uri, live, cn, opened, req, known, post]

/-- The memory with one more call of `start_url_request` on record. -/
def entered (flag : Flag) (s : Client) : Client :=
  { s with entries := { flag := flag, uri := s.uri.bind s.uris, post := s.post } :: s.entries }

/-- The memory after the old connection was freed, if there was one. -/
def disconnected (s : Client) : Client :=
  match s.cn with
  | none => s
  | some cn =>
    { s with
      connections := Function.update s.connections cn none
      outstanding := s.outstanding.filter fun r =>
        (s.requests r).bind (fun q => q.conn) ≠ some cn }

/-- The memory after a connection was opened and a request was created for it. -/
def connected (flag : Flag) (host : Chars) (port : Int) (s : Client) : Client :=
  { s with
    cn := some s.nextConn
    connections := Function.update s.connections s.nextConn (some (host, port))
    nextConn := s.nextConn + 1
    req := some s.nextReq
    requests := Function.update s.requests s.nextReq (some { callback := flag })
    nextReq := s.nextReq + 1 }

/-- The data that a request carries. -/
def body (s : Client) : Flag → Chars
  | .get => []
  | .post => (s.post.bind fun post => post.postData).getD []

/-- The headers that a request carries besides the host. -/
def contentHeaders (s : Client) : Flag → List (Chars × Chars)
  | .get => []
  | .post => [(.ofString "Content-Type", (s.post.bind fun post => post.contentType).getD [])]

/-- The request object holds a uri to connect to. -/
structure Ready (s : Client) (p : Nat) (u : Uri) (host : Chars) : Prop where
  uri : s.uri = some p
  live : s.uris p = some u
  named : u.host = some host
  /-- The connection that is about to be freed is still open. -/
  opened : ∀ c, s.cn = some c → ∃ address, s.connections c = some address

/-- The request object holds what a request of this kind carries. -/
def Carries (s : Client) (flag : Flag) : Prop :=
  flag = .post → ∃ contentType data, s.post = some ⟨some contentType, some data⟩

/-- The memory halfway through `start_url_request`, with a connection and an empty request. -/
def halfway (flag : Flag) (u : Uri) (host : Chars) (s : Client) : Client :=
  connected flag host (if u.port = -1 then 80 else u.port) (disconnected (entered flag s))

/-- The first half of `start_url_request` runs when there is a host to connect to. -/
theorem startUrlRequest_half (ready : Ready s p u host) (flag : Flag) :
    (startUrlRequest flag).run s = (makeRequest flag).run (halfway flag u host s) := by
  obtain ⟨uri, live, named, opened⟩ := ready
  -- The old connection is freed only if there is one.
  cases cn : s.cn with
  | none =>
    simp [startUrlRequest, enterStart, reconnect, evhttpUriGetPort, evhttpUriGetHost,
      evhttpConnectionBaseNew, evhttpRequestNew, halfway, connected, disconnected, entered, cn,
      uri, live, named]
  | some c =>
    obtain ⟨address, still⟩ := opened c cn
    simp [startUrlRequest, enterStart, reconnect, evhttpUriGetPort, evhttpUriGetHost,
      evhttpConnectionBaseNew, evhttpConnectionFree, evhttpRequestNew, halfway, connected,
      disconnected, entered, cn, uri, live, named, still]

/-- The connection and the request found halfway are the new ones. -/
theorem halfway_new (flag : Flag) (u : Uri) (host : Chars) (s : Client) :
    (halfway flag u host s).cn = some s.nextConn ∧
      (halfway flag u host s).connections s.nextConn =
        some (host, if u.port = -1 then 80 else u.port) ∧
      (halfway flag u host s).req = some s.nextReq ∧
      (halfway flag u host s).requests s.nextReq = some { callback := flag } ∧
      (halfway flag u host s).post = s.post := by
  -- Freeing the old connection does not touch what is numbered after it.
  cases cn : s.cn <;> simp [halfway, connected, disconnected, entered, cn]

/-- The uri found halfway is the one the request object came with. -/
theorem Ready.halfway (ready : Ready s p u host) (flag : Flag) :
    Ready (halfway flag u host s) p u host := by
  obtain ⟨uri, live, named, -⟩ := ready
  obtain ⟨cn, opened, -⟩ := halfway_new flag u host s
  refine ⟨?_, ?_, named, ?_⟩
  · cases same : s.cn <;> simp [Http.halfway, connected, disconnected, entered, same, uri]
  · cases same : s.cn <;> simp [Http.halfway, connected, disconnected, entered, same, live]
  · intro c new
    cases cn.symm.trans new
    exact ⟨_, opened⟩

/-- The memory after `start_url_request` has made a request for a uri with this host. -/
def launched (flag : Flag) (u : Uri) (host : Chars) (s : Client) : Client :=
  made flag u (halfway flag u host s) s.nextConn s.nextReq { callback := flag } (body s flag)
    (contentHeaders s flag ++ [(.ofString "Host", host)])

/-- A request object that holds all it should is turned into a request. -/
theorem startUrlRequest_run (ready : Ready s p u host) (carries : Carries s flag) :
    (startUrlRequest flag).run s = .ok ((), launched flag u host s) := by
  rw [startUrlRequest_half ready flag]
  obtain ⟨cn, opened, req, known, post⟩ := halfway_new flag u host s
  obtain ⟨uri, live, named, -⟩ := ready.halfway flag
  -- The host is added as the last header, however the request was made.
  cases flag with
  | get =>
    have making := makeGet_run uri live cn opened req known
    simp only [makeRequest, StateT.run_bind, making, ok_bind]
    simp [evhttpUriGetHost, evhttpAddHeader, launched, made, body, contentHeaders, uri, live,
      named, req]
  | post =>
    obtain ⟨contentType, data, carried⟩ := carries rfl
    have making := makePost_run uri live cn opened req known (post.trans carried)
    simp only [makeRequest, StateT.run_bind, making, ok_bind]
    simp [evhttpUriGetHost, evhttpAddHeader, launched, made, body, contentHeaders, carried, uri,
      live, named, req]

/-- A post without data faults when the data is measured. -/
theorem startUrlRequest_dataless (ready : Ready s p u host) {contentType : Option Chars}
    (post : s.post = some ⟨contentType, none⟩) :
    (startUrlRequest .post).run s = .error .nullText := by
  -- The request is made before the missing data is measured.
  rw [startUrlRequest_half ready .post]
  obtain ⟨cn, opened, req, known, same⟩ := halfway_new .post u host s
  obtain ⟨uri, live, named, -⟩ := ready.halfway .post
  simp [makeRequest, makePost, evhttpUriGetPath, evhttpMakeRequest, strlen, uri, live, cn, opened,
    req, known, same.trans post]

/-- What is known of the memory after a request was started while none was outstanding. -/
structure Launch (flag : Flag) (u : Uri) (host : Chars) (s t : Client) : Prop where
  uri : t.uri = s.uri
  uris : t.uris = s.uris
  nextUri : t.nextUri = s.nextUri
  post : t.post = s.post
  exit : t.exitRequested = s.exitRequested
  /-- The connection is a new one, to the host and port of the uri. -/
  cn : t.cn = some s.nextConn
  address : t.connections s.nextConn = some (host, if u.port = -1 then 80 else u.port)
  nextConn : t.nextConn = s.nextConn + 1
  nextReq : t.nextReq = s.nextReq + 1
  /-- The request is a new one, and the only one outstanding. -/
  outstanding : t.outstanding = [s.nextReq]
  request : ∃ q, t.requests s.nextReq = some q ∧ q.callback = flag ∧ q.conn = some s.nextConn
  /-- The call is on record with what the request object held. -/
  entries : t.entries = { flag := flag, uri := s.uri.bind s.uris, post := s.post } :: s.entries

/-- Starting a request does what is expected of it. -/
theorem launch_launched (idle : s.outstanding = []) :
    Launch flag u host s (launched flag u host s) := by
  -- Whether there is a connection to free makes no difference to any of it.
  cases cn : s.cn with
  | none =>
    constructor <;> simp [launched, made, halfway, connected, disconnected, entered, cn, idle]
  | some c =>
    constructor <;> simp [launched, made, halfway, connected, disconnected, entered, cn, idle]

/-- Without a uri no request is started. -/
theorem startUrlRequest_null (uri : s.uri = none)
    (opened : ∀ c, s.cn = some c → ∃ address, s.connections c = some address) :
    (startUrlRequest flag).run s = .error .nullUri := by
  -- The port is asked for first, and that already reads through the pointer.
  cases cn : s.cn with
  | none => simp [startUrlRequest, enterStart, reconnect, evhttpUriGetPort, uri, cn]
  | some c =>
    obtain ⟨address, still⟩ := opened c cn
    simp [startUrlRequest, enterStart, reconnect, evhttpConnectionFree, evhttpUriGetPort, uri, cn,
      still]

/-- Without a host no request is started. -/
theorem startUrlRequest_nameless (uri : s.uri = some p) (live : s.uris p = some u)
    (nameless : u.host = none)
    (opened : ∀ c, s.cn = some c → ∃ address, s.connections c = some address) :
    (startUrlRequest flag).run s = .error .nullHost := by
  -- The uri is there, but opening a connection needs a host.
  cases cn : s.cn with
  | none =>
    simp [startUrlRequest, enterStart, reconnect, evhttpUriGetPort, evhttpUriGetHost,
      evhttpConnectionBaseNew, uri, live, nameless, cn]
  | some c =>
    obtain ⟨address, still⟩ := opened c cn
    simp [startUrlRequest, enterStart, reconnect, evhttpConnectionFree, evhttpUriGetPort,
      evhttpUriGetHost, evhttpConnectionBaseNew, uri, live, nameless, cn, still]

end LinuxPro.Http
