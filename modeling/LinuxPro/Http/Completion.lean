import LinuxPro.Http.ClientLaws
import Mathlib.Data.List.Induction

/-! How the client starts, and what the completion of its request does to it. -/

namespace LinuxPro.Http

variable {s t begins : Client} {flag : Flag} {parse : Chars → Option Uri} {url : Chars}
  {contentType data : Option Chars} {u : Uri} {host : Chars}

/-- The request object that is filled in for a url that parses. -/
def prepared (u : Uri) (flag : Flag) (contentType data : Option Chars) : Client where
  uri := some 0
  uris := Function.update (fun _ => none) 0 (some u)
  nextUri := 1
  post := match flag with
    | .get => none
    | .post => some { contentType := some (contentType.getD urlEncoded), postData := data }

/-- A url that parses gives a request object. -/
theorem httpRequestNew_run (parsed : parse url = some u) :
    (httpRequestNew parse url flag contentType data).run {} =
      .ok ((), prepared u flag contentType data) := by
  cases flag with
  | get => simp [httpRequestNew, evhttpUriParse, printUriPartsInfo, prepared, parsed]
  | post => simp [httpRequestNew, evhttpUriParse, printUriPartsInfo, prepared, parsed]

/-- A url that does not parse is printed through `NULL`. -/
theorem httpRequestNew_null (unparsed : parse url = none) :
    (httpRequestNew parse url flag contentType data).run {} = .error .nullUri := by
  simp [httpRequestNew, evhttpUriParse, printUriPartsInfo, unparsed]

/-- A text that names a host to connect to. -/
def NamesHost (parse : Chars → Option Uri) (text : Chars) : Prop :=
  ∃ u host, parse text = some u ∧ u.host = some host

/-- A post that was given data carries it, with a content type whether or not one was given. -/
theorem carries_prepared (posts : flag = .post → ∃ text, data = some text) :
    Carries (prepared u flag contentType data) flag := by
  intro isPost
  obtain ⟨text, rfl⟩ := posts isPost
  subst isPost
  exact ⟨_, _, rfl⟩

/-- The client starts when its url names a host and a post has data. -/
theorem start_ok (parsed : parse url = some u) (named : u.host = some host)
    (posts : flag = .post → ∃ text, data = some text) :
    start parse url flag contentType data =
      .ok (launched flag u host (prepared u flag contentType data)) := by
  -- The request object is fresh, so no connection has to be freed.
  have ready : Ready (prepared u flag contentType data) 0 u host :=
    ⟨rfl, by simp [prepared], named, by simp [prepared]⟩
  simp [start, startHttpRequset, httpRequestNew_run parsed,
    startUrlRequest_run ready (carries_prepared posts), Except.map]

/-- The client does not start otherwise. -/
theorem start_fault (bad : ¬ (NamesHost parse url ∧ (flag = .post → ∃ text, data = some text))) :
    ∃ fault, start parse url flag contentType data = .error fault := by
  cases parsed : parse url with
  | none =>
    refine ⟨.nullUri, ?_⟩
    simp [start, startHttpRequset, httpRequestNew_null parsed, Except.map]
  | some u =>
    have here : (prepared u flag contentType data).uris 0 = some u := by simp [prepared]
    cases named : u.host with
    | none =>
      have faults : (startUrlRequest flag).run (prepared u flag contentType data) =
          .error .nullHost := startUrlRequest_nameless rfl here named (by simp [prepared])
      refine ⟨.nullHost, ?_⟩
      simp [start, startHttpRequset, httpRequestNew_run parsed, faults, Except.map]
    | some host =>
      -- What is left is a post without data, which is measured after the request was made.
      have names : NamesHost parse url := ⟨u, host, parsed, named⟩
      have dataless : flag = .post ∧ data = none := by
        cases flag <;> cases data <;> simp_all
      obtain ⟨rfl, rfl⟩ := dataless
      have faults : (startUrlRequest .post).run (prepared u .post contentType none) =
          .error .nullText :=
        startUrlRequest_dataless ⟨rfl, here, named, by simp [prepared]⟩ rfl
      refine ⟨.nullText, ?_⟩
      simp [start, startHttpRequset, httpRequestNew_run parsed, faults, Except.map]

/-- The place a redirect leads to. -/
def location (response : Response) : Option Chars :=
  evhttpFindHeader response.inputHeaders (.ofString "Location")

/-- A response that, if it is a redirect, names a host to go to. -/
def LeadsOn (parse : Chars → Option Uri) (response : Response) : Prop :=
  response.code = httpMovetemp → ∃ text, location response = some text ∧ NamesHost parse text

/-- What holds of the client between any two completions. -/
structure Ok (flag : Flag) (s : Client) : Prop where
  uri : ∃ p u, s.uri = some p ∧ s.uris p = some u ∧ p < s.nextUri
  opened : ∃ c address, s.cn = some c ∧ s.connections c = some address
  carries : Carries s flag
  /-- At most one request is outstanding, and then the loop goes on. -/
  pending : s.outstanding = [] ∨ ∃ r q, s.outstanding = [r] ∧ s.requests r = some q ∧
    q.callback = flag ∧ s.exitRequested = false

variable {response : Response} {done : Completion}

/-- A completion without a response is read through `NULL`. -/
theorem httpRequsetCb_null : (httpRequsetCb parse flag none).run s = .error .noRequest := by
  simp [httpRequsetCb]

/-- A permanent redirect is only noted. -/
theorem httpRequsetCb_moved (moved : response.code = httpMoveperm) :
    (httpRequsetCb parse flag (some response)).run s = .ok ((), s) := by
  simp [httpRequsetCb, moved, httpMoveperm, httpOk]

/-- Every response that is no redirect ends the loop. -/
theorem httpRequsetCb_final (stays : response.code ≠ httpMoveperm)
    (ends : response.code ≠ httpMovetemp) :
    (httpRequsetCb parse flag (some response)).run s =
      .ok ((), { s with exitRequested := true }) := by
  by_cases fine : response.code = httpOk
  · simp [httpRequsetCb, eventBaseLoopexit, fine]
  · simp [httpRequsetCb, eventBaseLoopexit, fine, stays, ends]

/-- The memory with the uri replaced by another, and the old one freed. -/
def relocated (s : Client) (p : Nat) (u : Uri) : Client :=
  { s with
    uri := some s.nextUri
    uris := Function.update (Function.update s.uris s.nextUri (some u)) p none
    nextUri := s.nextUri + 1 }

/-- A redirect to a place that parses frees the old uri and starts a request for the new one. -/
theorem httpRequsetCb_redirect (moved : response.code = httpMovetemp) {p : Nat} {old : Uri}
    (uri : s.uri = some p) (live : s.uris p = some old) (earlier : p < s.nextUri)
    (parsed : (location response).bind parse = some u) :
    (httpRequsetCb parse flag (some response)).run s =
      (startUrlRequest flag).run (relocated s p u) := by
  have other : p ≠ s.nextUri := Nat.ne_of_lt earlier
  rw [location] at parsed
  simp [httpRequsetCb, moved, httpMovetemp, httpMoveperm, httpOk, parsed, uri, live, other,
    relocated]

/-- A redirect to nowhere frees the old uri and goes on without one. -/
theorem httpRequsetCb_nowhere (moved : response.code = httpMovetemp) {p : Nat} {old : Uri}
    (uri : s.uri = some p) (live : s.uris p = some old)
    (unparsed : (location response).bind parse = none) :
    (httpRequsetCb parse flag (some response)).run s = (startUrlRequest flag).run
      { s with uri := none, uris := Function.update s.uris p none } := by
  rw [location] at unparsed
  simp [httpRequsetCb, moved, httpMovetemp, httpMoveperm, httpOk, unparsed, uri, live]

/-- The client is in order once a request was started. -/
theorem Launch.ok (launch : Launch flag u host s t) {p : Nat} (uri : s.uri = some p)
    (live : s.uris p = some u) (earlier : p < s.nextUri) (carries : Carries s flag)
    (running : s.exitRequested = false) : Ok flag t := by
  -- The new request is the only one that is outstanding.
  obtain ⟨q, known, callback, -⟩ := launch.request
  refine ⟨⟨p, u, launch.uri.trans uri, by rw [launch.uris]; exact live,
    by rw [launch.nextUri]; exact earlier⟩, ⟨_, _, launch.cn, launch.address⟩, ?_, .inr ⟨_, q,
    launch.outstanding, known, callback, launch.exit.trans running⟩⟩
  intro isPost
  rw [launch.post]
  exact carries isPost

/-- The client is in order once it has started. -/
theorem ok_start (started : start parse url flag contentType data = .ok begins) :
    ∃ u host, parse url = some u ∧ u.host = some host ∧ Ok flag begins ∧
      Launch flag u host (prepared u flag contentType data) begins ∧
      Carries (prepared u flag contentType data) flag := by
  -- A start that succeeded was given what it needs, since otherwise it faults.
  by_cases good : NamesHost parse url ∧ (flag = .post → ∃ text, data = some text)
  · obtain ⟨⟨u, host, parsed, named⟩, posts⟩ := good
    cases (start_ok parsed named posts).symm.trans started
    have launch : Launch flag u host (prepared u flag contentType data)
        (launched flag u host (prepared u flag contentType data)) := launch_launched rfl
    have carries : Carries (prepared u flag contentType data) flag := carries_prepared posts
    exact ⟨u, host, parsed, named, launch.ok rfl (by simp [prepared]) Nat.one_pos carries rfl,
      launch, carries⟩
  · have stops : ∃ fault, start parse url flag contentType data = .error fault := start_fault good
    obtain ⟨fault, faults⟩ := stops
    cases faults.symm.trans started

/-- The client with its request taken off the connection. -/
abbrev dequeued (s : Client) : Client := { s with outstanding := [] }

/-- The one outstanding request completes through the callback of its kind. -/
theorem exec_eq (ok : Ok flag s) (enabled : (client parse begins).enabled s done) :
    (client parse begins).exec s done =
      ((httpRequsetCb parse flag done.response).run (dequeued s)).map Prod.snd ∧
      s.exitRequested = false := by
  rcases ok.pending with none | ⟨r, q, one, known, callback, running⟩
  · simp [client, none] at enabled
  · have same : done.request = r := by simpa [client, one] using enabled
    refine ⟨?_, running⟩
    -- The two callbacks are one function at two kinds of request.
    cases flag <;>
      simp [client, complete, httpRequsetPostCb, httpRequsetGetCb, same, known, one, callback]

/-- A redirect that leads on starts one request, on a new connection for the new uri. -/
theorem redirect_run (ok : Ok flag s) (moved : response.code = httpMovetemp)
    (leads : LeadsOn parse response) :
    ∃ p u host t, (location response).bind parse = some u ∧ u.host = some host ∧
      (httpRequsetCb parse flag (some response)).run (dequeued s) = .ok ((), t) ∧
      p ≠ s.nextUri ∧ Launch flag u host (relocated (dequeued s) p u) t := by
  obtain ⟨text, found, u, host, parsed, named⟩ := leads moved
  obtain ⟨p, old, uri, live, earlier⟩ := ok.uri
  have other : p ≠ s.nextUri := Nat.ne_of_lt earlier
  have place : (location response).bind parse = some u := by simp [found, parsed]
  have ready : Ready (relocated (dequeued s) p u) s.nextUri u host := by
    refine ⟨rfl, by simp [relocated, other.symm], named, fun c same => ?_⟩
    obtain ⟨c', address, cn, opened⟩ := ok.opened
    cases cn.symm.trans same
    exact ⟨address, opened⟩
  have carries : Carries (relocated (dequeued s) p u) flag := ok.carries
  refine ⟨p, u, host, _, place, named, ?_, other, launch_launched rfl⟩
  rw [httpRequsetCb_redirect moved (s := dequeued s) uri live earlier place]
  exact startUrlRequest_run ready carries

/-- A redirect that leads nowhere ends in a fault. -/
theorem redirect_fault (ok : Ok flag s) (moved : response.code = httpMovetemp)
    (astray : ¬ LeadsOn parse response) :
    ∃ fault, (httpRequsetCb parse flag (some response)).run (dequeued s) = .error fault := by
  obtain ⟨p, old, uri, live, earlier⟩ := ok.uri
  obtain ⟨c, address, cn, opened⟩ := ok.opened
  have still : ∀ c', s.cn = some c' → ∃ address, s.connections c' = some address := by
    intro c' same
    cases cn.symm.trans same
    exact ⟨address, opened⟩
  cases parsed : (location response).bind parse with
  | none =>
    rw [httpRequsetCb_nowhere moved (s := dequeued s) uri live parsed]
    exact ⟨.nullUri, startUrlRequest_null rfl still⟩
  | some u =>
    -- The place parses, so it is its host that is missing.
    have nameless : u.host = none := by
      cases named : u.host with
      | none => rfl
      | some host =>
        obtain ⟨text, found, parsed'⟩ := Option.bind_eq_some_iff.mp parsed
        exact absurd (fun _ => ⟨text, found, u, host, parsed', named⟩) astray
    have other : p ≠ s.nextUri := Nat.ne_of_lt earlier
    rw [httpRequsetCb_redirect moved (s := dequeued s) uri live earlier parsed]
    exact ⟨.nullHost, startUrlRequest_nameless rfl (by simp [relocated, other.symm]) nameless still⟩

/-- A completion that the client survives: there is a response, and a redirect leads on. -/
def Survives (parse : Chars → Option Uri) (done : Completion) : Prop :=
  ∃ response, done.response = some response ∧ LeadsOn parse response

/-- What the completion of a request leads to, by the kind of the response. -/
inductive After (parse : Chars → Option Uri) (flag : Flag) (response : Response) (s : Client) :
    Client → Prop where
  /-- A permanent redirect leaves nothing outstanding. -/
  | moved (code : response.code = httpMoveperm) : After parse flag response s (dequeued s)
  /-- A final response ends the loop. -/
  | final (stays : response.code ≠ httpMoveperm) (ends : response.code ≠ httpMovetemp) :
      After parse flag response s { dequeued s with exitRequested := true }
  /-- A temporary redirect starts the next request. -/
  | redirect {t : Client} {p : Nat} {u : Uri} {host : Chars} (code : response.code = httpMovetemp)
      (parsed : (location response).bind parse = some u) (named : u.host = some host)
      (other : p ≠ s.nextUri) (launch : Launch flag u host (relocated (dequeued s) p u) t) :
      After parse flag response s t

/-- A completion that can be survived runs, to what its response leads to. -/
theorem exec_survives (ok : Ok flag s) (enabled : (client parse begins).enabled s done)
    (answered : done.response = some response) (leads : LeadsOn parse response) :
    ∃ t, (client parse begins).exec s done = .ok t ∧ After parse flag response s t := by
  -- The status code picks the branch, and each branch is known to return.
  rw [(exec_eq ok enabled).1, answered]
  by_cases moved : response.code = httpMoveperm
  · exact ⟨_, by simp [httpRequsetCb_moved moved, Except.map], .moved moved⟩
  by_cases redirect : response.code = httpMovetemp
  · obtain ⟨p, u, host, t, parsed, named, ran, other, launch⟩ := redirect_run ok redirect leads
    exact ⟨t, by simp [ran, Except.map], .redirect redirect parsed named other launch⟩
  · exact ⟨_, by simp [httpRequsetCb_final moved redirect, Except.map],
      .final moved redirect⟩

/-- A completion that cannot be survived faults. -/
theorem exec_faults (ok : Ok flag s) (enabled : (client parse begins).enabled s done)
    (fatal : ¬ Survives parse done) :
    ∃ fault, (client parse begins).exec s done = .error fault := by
  rw [(exec_eq ok enabled).1]
  cases answered : done.response with
  | none => exact ⟨.noRequest, by simp [httpRequsetCb_null, Except.map]⟩
  | some response =>
    have astray : ¬ LeadsOn parse response := fun leads => fatal ⟨response, answered, leads⟩
    -- Only a temporary redirect can lead astray.
    have redirect : response.code = httpMovetemp := by
      by_contra other
      exact astray fun code => absurd code other
    obtain ⟨fault, faults⟩ := redirect_fault ok redirect astray
    exact ⟨fault, by simp [faults, Except.map]⟩

/-- Every completion that was handled had a response, and led to what that response leads to. -/
theorem step_after (ok : Ok flag s) (step : (client parse begins).Step s done t) :
    ∃ response, done.response = some response ∧ LeadsOn parse response ∧
      After parse flag response s t := by
  -- A step that was made is one that was survived.
  by_cases survives : Survives parse done
  · obtain ⟨response, answered, leads⟩ := survives
    obtain ⟨t', ran, after⟩ := exec_survives ok step.1 answered leads
    cases ran.symm.trans step.2
    exact ⟨response, answered, leads, after⟩
  · obtain ⟨fault, faults⟩ := exec_faults ok step.1 survives
    cases faults.symm.trans step.2

/-- Whatever a response leads to, the client is in order. -/
theorem Ok.after (ok : Ok flag s) (running : s.exitRequested = false)
    (after : After parse flag response s t) : Ok flag t := by
  -- Only a redirect changes more than what is outstanding and whether the loop ends.
  cases after with
  | moved _ => exact ⟨ok.uri, ok.opened, ok.carries, .inl rfl⟩
  | final _ _ => exact ⟨ok.uri, ok.opened, ok.carries, .inl rfl⟩
  | redirect _ _ _ other launch =>
    refine launch.ok rfl ?_ (Nat.lt_succ_self _) ok.carries running
    simp [relocated, other.symm]

/-- Every completion that was handled leaves the client in order. -/
theorem Ok.step (ok : Ok flag s) (step : (client parse begins).Step s done t) : Ok flag t := by
  obtain ⟨response, -, -, after⟩ := step_after ok step
  exact ok.after (exec_eq ok step.1).2 after

/-- Every run of completions leaves the client in order. -/
theorem Ok.run {completions : List Completion} (ok : Ok flag s)
    (run : (client parse begins).Run s completions t) : Ok flag t :=
  run.preserves (Ok flag) (fun _ => True) (fun _ before step => before.step step)
    (fun _ _ => trivial) ok

/--
Libevent completes what is outstanding: each completion finds its request when its turn comes.

A sequence ends at the latest with the completion after which nothing is outstanding.
-/
def Driven (parse : Chars → Option Uri) (begins : Client) (completions : List Completion) : Prop :=
  ∀ before done after s, completions = before ++ done :: after →
    (client parse begins).Run begins before s → (client parse begins).enabled s done

/-- Completions that can be survived are handled one after the other. -/
theorem Ok.survives_run {before rest : List Completion} (ok : Ok flag begins)
    (driven : Driven parse begins (before ++ rest))
    (survives : ∀ done ∈ before, Survives parse done) :
    ∃ s, (client parse begins).Run begins before s := by
  -- The last completion is handled in the state that the earlier ones have led to.
  induction before using List.reverseRecOn generalizing rest with
  | nil => exact ⟨begins, .nil begins⟩
  | append_singleton before done ih =>
    have driven' : Driven parse begins (before ++ (done :: rest)) := by simpa using driven
    obtain ⟨s, run⟩ := ih driven' fun d member => survives d (by simp [member])
    have enabled := driven before done rest s (by simp) run
    obtain ⟨response, answered, leads⟩ := survives done (by simp)
    obtain ⟨t, ran, -⟩ := exec_survives (ok.run run) enabled answered leads
    exact ⟨t, run.append (Machine.Step.run ⟨enabled, ran⟩)⟩

end LinuxPro.Http
