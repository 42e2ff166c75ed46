import LinuxPro.Http.Completion
import LinuxPro.Lib.Earlier
import Mathlib.Logic.Basic

/-! Which completions the client accounts for: each ends the loop or starts the next request. -/

namespace LinuxPro.Http

variable {s t begins : Client} {flag : Flag} {parse : Chars → Option Uri} {url : Chars}
  {contentType data : Option Chars} {response : Response} {done : Completion}
  {completions : List Completion}

/-- The loop was asked to end, and no request is outstanding. -/
def Ended (t : Client) : Prop :=
  t.exitRequested = true ∧ t.outstanding = []

/-- One request is outstanding, on a new connection for the uri that the response led to. -/
structure Restarted (parse : Chars → Option Uri) (done : Completion) (s t : Client) : Prop where
  running : t.exitRequested = false
  outstanding : t.outstanding = [s.nextReq]
  request : ∃ q, t.requests s.nextReq = some q ∧ q.conn = some s.nextConn
  cn : t.cn = some s.nextConn
  uri : ∃ response u host, done.response = some response ∧
    (location response).bind parse = some u ∧ u.host = some host ∧
    t.uri = some s.nextUri ∧ t.uris s.nextUri = some u ∧
    t.connections s.nextConn = some (host, if u.port = -1 then 80 else u.port)

/-- What the client owes to every completion of a sequence. -/
structure Accounts (parse : Chars → Option Uri) (begins : Client)
    (completions : List Completion) : Prop where
  /-- Each completion that is handled ends in exactly one of two ways. -/
  handled : ∀ before done after s, completions = before ++ done :: after →
    (client parse begins).Run begins before s → (client parse begins).enabled s done →
    ∃ t, (client parse begins).exec s done = .ok t ∧ Xor (Ended t) (Restarted parse done s t)
  /-- In every state reached one request is outstanding, or the loop was asked to end. -/
  pending : ∀ before after s, completions = before ++ after →
    (client parse begins).Run begins before s →
    s.outstanding.length = 1 ∨ s.exitRequested = true

/-- There is a response, it is no permanent redirect, and a temporary one names a host. -/
def Settles (parse : Chars → Option Uri) (done : Completion) : Prop :=
  ∃ response, done.response = some response ∧ response.code ≠ httpMoveperm ∧
    LeadsOn parse response

/-- Such a completion can be survived. -/
theorem Settles.survives (settles : Settles parse done) : Survives parse done := by
  obtain ⟨response, answered, -, leads⟩ := settles
  exact ⟨response, answered, leads⟩

/-- A new request does not leave the client waiting for nothing. -/
theorem Launch.restarted {p : Nat} {u : Uri} {host : Chars}
    (answered : done.response = some response) (parsed : (location response).bind parse = some u)
    (named : u.host = some host) (other : p ≠ s.nextUri) (running : s.exitRequested = false)
    (launch : Launch flag u host (relocated (dequeued s) p u) t) : Restarted parse done s t := by
  -- The old uri was freed under another number, so the new one is still there.
  obtain ⟨q, known, -, conn⟩ := launch.request
  refine ⟨launch.exit.trans running, launch.outstanding, ⟨q, known, conn⟩, launch.cn,
    ⟨response, u, host, answered, parsed, named, launch.uri, ?_, launch.address⟩⟩
  rw [launch.uris]
  simp [relocated, other.symm]

/-- The two ways a completion can end exclude each other. -/
theorem Restarted.not_ended (restarted : Restarted parse done s t) : ¬ Ended t := by
  intro ended
  have stopped := ended.1
  rw [restarted.running] at stopped
  cases stopped

/-- A completion that settles ends in exactly one of the two ways. -/
theorem After.accounted (answered : done.response = some response)
    (stays : response.code ≠ httpMoveperm) (running : s.exitRequested = false)
    (after : After parse flag response s t) : Xor (Ended t) (Restarted parse done s t) := by
  -- The response decides which of the two ways it is.
  cases after with
  | moved code => exact absurd code stays
  | final _ _ =>
    have ended : Ended { dequeued s with exitRequested := true } := ⟨rfl, rfl⟩
    exact .inl ⟨ended, fun restarted => restarted.not_ended ended⟩
  | redirect _ parsed named other launch =>
    have restarted := launch.restarted answered parsed named other running
    exact .inr ⟨restarted, restarted.not_ended⟩

/-- Either way one request is outstanding, or the loop was asked to end. -/
theorem pending_of_accounted (accounted : Xor (Ended t) (Restarted parse done s t)) :
    t.outstanding.length = 1 ∨ t.exitRequested = true := by
  rcases accounted with ⟨ended, -⟩ | ⟨restarted, -⟩
  · exact .inr ended.1
  · exact .inl (by rw [restarted.outstanding]; rfl)

/-- A permanent redirect ends in neither of the two ways. -/
theorem moved_unaccounted (running : s.exitRequested = false) :
    ¬ Xor (Ended (dequeued s)) (Restarted parse done s (dequeued s)) := by
  -- Either way would leave something outstanding or the exit requested.
  intro accounted
  rcases pending_of_accounted accounted with one | stopped
  · cases one
  · rw [show (dequeued s).exitRequested = s.exitRequested from rfl, running] at stopped
    cases stopped

/-- A completion that is handled and accounted for settles. -/
theorem settles_of_accounted (ok : Ok flag s) (step : (client parse begins).Step s done t)
    (accounted : Xor (Ended t) (Restarted parse done s t)) : Settles parse done := by
  -- What the handling has led to tells which response it was given.
  obtain ⟨response, answered, leads, after⟩ := step_after ok step
  refine ⟨response, answered, ?_, leads⟩
  have running := (exec_eq ok step.1).2
  cases after with
  | moved _ => exact absurd accounted (moved_unaccounted running)
  | final stays _ => exact stays
  | redirect code _ _ _ _ =>
    rw [code]
    decide

/--
The client accounts for a sequence of completions exactly when each of them settles.

A transport failure completes a request with `NULL`, which is read through.
A permanent redirect is only noted, after which nothing is outstanding and nobody ends the loop.
A temporary redirect without a place to go to frees the uri and then reads through `NULL`.
A get request that formats its target past the end of the array is taken here to go on as if the
text had fitted: what is written is recorded in `formatted` and is no outcome of a completion.
-/
theorem accounts_iff (started : start parse url flag contentType data = .ok begins)
    (driven : Driven parse begins completions) :
    Accounts parse begins completions ↔ ∀ done ∈ completions, Settles parse done := by
  obtain ⟨u, host, -, -, ok, launch, -⟩ := ok_start started
  constructor
  · intro accounts
    refine forall_of_earlier fun before done after split earlier => ?_
    -- The completions before were survived, so this one is handled.
    obtain ⟨s, run⟩ := ok.survives_run (split ▸ driven) fun d member =>
      (earlier d member).survives
    have enabled := driven before done after s split run
    obtain ⟨t, ran, accounted⟩ := accounts.handled before done after s split run enabled
    exact settles_of_accounted (ok.run run) ⟨enabled, ran⟩ accounted
  · intro settles
    refine ⟨?_, ?_⟩
    · intro before done after s split run enabled
      obtain ⟨response, answered, stays, leads⟩ := settles done (by simp [split])
      have okay := ok.run run
      obtain ⟨t, ran, after⟩ := exec_survives okay enabled answered leads
      exact ⟨t, ran, after.accounted answered stays (exec_eq okay enabled).2⟩
    · intro before after s split run
      have both := run.preserves
        (fun s => Ok flag s ∧ (s.outstanding.length = 1 ∨ s.exitRequested = true)) (Settles parse)
        (fun {s done t} settled before step => by
          obtain ⟨response, answered, stays, leads⟩ := settled
          obtain ⟨response', answered', -, after⟩ := step_after before.1 step
          cases answered.symm.trans answered'
          exact ⟨before.1.step step, pending_of_accounted
            (after.accounted answered stays (exec_eq before.1 step.1).2)⟩)
        (fun d member => settles d (by simp [split, member]))
        ⟨ok, .inl (by rw [launch.outstanding]; rfl)⟩
      exact both.2

/-- A url with a host. -/
def homeUrl : Chars := .ofString "http://a/"

/-- What the url parses to. -/
def homeUri : Uri where
  host := some (.ofString "a")
  port := -1
  path := some (.ofString "/")
  query := none

/-- A parser that knows the one url. -/
def parseHome (text : Chars) : Option Uri :=
  if text = homeUrl then some homeUri else none

/-- The client with its first request, for the url, under way. -/
def atHome : Client := launched .get homeUri (.ofString "a") (prepared homeUri .get none none)

/-- The client starts with a get request for the url. -/
theorem start_home : start parseHome homeUrl .get none none = .ok atHome :=
  start_ok (by simp [parseHome]) rfl (by simp)

/-- A single completion of the first request is what libevent may come up with. -/
theorem driven_home (parse : Chars → Option Uri) (response : Option Response) :
    Driven parse atHome [⟨0, response⟩] := by
  -- There is one completion, and it is that of the first request.
  intro before done after s split run
  match before, split with
  | [], split =>
    cases split
    cases run
    show 0 ∈ atHome.outstanding
    decide
  | _ :: [], split => cases split
  | _ :: _ :: _, split => cases split

/-- A redirect to the url it came from. -/
def homeAgain : Completion where
  request := 0
  response := some ⟨httpMovetemp, [(.ofString "location", homeUrl)]⟩

/-- The redirect leads back to the url. -/
theorem homeAgain_survives : Survives parseHome homeAgain :=
  ⟨_, rfl, fun _ => ⟨homeUrl, by decide, homeUri, .ofString "a", by simp [parseHome], rfl⟩⟩

/-- A redirect that was handled left the request with the next number outstanding. -/
theorem outstanding_of_redirect (ok : Ok flag s) (answered : done.response = some response)
    (code : response.code = httpMovetemp) (step : (client parse begins).Step s done t) :
    t.outstanding = [s.nextReq] := by
  -- The other two outcomes have other status codes.
  obtain ⟨response', answered', -, after⟩ := step_after ok step
  cases answered.symm.trans answered'
  cases after with
  | moved other => exact absurd (code.symm.trans other) (by decide)
  | final _ ends => exact absurd code ends
  | redirect _ _ _ _ launch => exact launch.outstanding

/--
A redirect and the page it leads to are both accounted for.

Both of its get requests format `/?(null)` into an array of two bytes, which is not looked at here.
-/
theorem accounts_redirect_then_page : ∃ begins,
    start parseHome homeUrl .get none none = .ok begins ∧
    Accounts parseHome begins [homeAgain, ⟨1, some ⟨httpOk, []⟩⟩] := by
  have driven : Driven parseHome atHome [homeAgain, ⟨1, some ⟨httpOk, []⟩⟩] := by
    obtain ⟨u, host, -, -, ok, -⟩ := ok_start start_home
    intro before done after s split run
    -- The first request has the number zero, and the redirect starts the one after it.
    match before, split with
    | [], split =>
      cases split
      cases run
      show 0 ∈ atHome.outstanding
      decide
    | [_], split =>
      cases split
      cases run with
      | cons step tail =>
        cases tail
        show 1 ∈ s.outstanding
        rw [outstanding_of_redirect ok rfl rfl step]
        decide
    | _ :: _ :: [], split => cases split
    | _ :: _ :: _ :: _, split => cases split
  refine ⟨_, start_home, (accounts_iff start_home driven).mpr ?_⟩
  intro done member
  obtain ⟨response, answered, leads⟩ := homeAgain_survives
  rcases List.mem_cons.mp member with rfl | last
  · exact ⟨response, answered, by cases answered; decide, leads⟩
  · rw [List.mem_singleton.mp last]
    exact ⟨_, rfl, by decide, fun code => absurd code (by decide)⟩

/-- A permanent redirect leaves the client with nothing outstanding and no exit requested. -/
theorem moved_permanently_stalls : ¬ ∀ parse url flag contentType data begins completions,
    start parse url flag contentType data = .ok begins → Driven parse begins completions →
    Accounts parse begins completions := by
  intro claim
  have driven := driven_home parseHome (some ⟨httpMoveperm, []⟩)
  have accounts := claim parseHome homeUrl .get none none atHome _ start_home driven
  obtain ⟨u, host, -, -, ok, -⟩ := ok_start start_home
  have enabled := driven [] _ [] atHome rfl (.nil atHome)
  -- The redirect is handled without a fault, and that is all that happens.
  have leads : LeadsOn parseHome ⟨httpMoveperm, []⟩ := fun code => absurd code (by decide)
  obtain ⟨t, ran, after⟩ := exec_survives ok enabled rfl leads
  have run : (client parseHome atHome).Run atHome [⟨0, some ⟨httpMoveperm, []⟩⟩] t :=
    Machine.Step.run ⟨enabled, ran⟩
  have pending := accounts.pending _ [] t (List.append_nil _).symm run
  cases after with
  | moved _ => exact absurd pending (by decide)
  | final stays _ => exact stays rfl
  | redirect code _ _ _ _ => exact absurd code (by decide)

end LinuxPro.Http
