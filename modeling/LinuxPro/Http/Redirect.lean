import LinuxPro.Http.Accounting

/-! Which urls, data and redirects give `start_url_request` a request object it can work with. -/

namespace LinuxPro.Http

variable {s t begins : Client} {flag : Flag} {parse : Chars → Option Uri} {url : Chars}
  {contentType data : Option Chars} {response : Response} {u : Uri} {host : Chars}
  {completions : List Completion}

/-- The request object holds a live uri with a host and, for a post, its data and content type. -/
structure Entry.WellFormed (entry : Entry) : Prop where
  uri : ∃ u host, entry.uri = some u ∧ u.host = some host
  post : entry.flag = .post → ∃ contentType data, entry.post = some ⟨some contentType, some data⟩

/-- A request that was started found the request object well formed. -/
theorem Launch.wellFormed (launch : Launch flag u host s t) {p : Nat} (uri : s.uri = some p)
    (live : s.uris p = some u) (named : u.host = some host) (carries : Carries s flag)
    (before : ∀ entry ∈ s.entries, entry.WellFormed) : ∀ entry ∈ t.entries, entry.WellFormed := by
  -- The call that was added saw the request object as it was at the start.
  intro entry member
  rw [launch.entries] at member
  rcases List.mem_cons.mp member with rfl | member
  · exact ⟨⟨u, host, by simp [uri, live], named⟩, carries⟩
  · exact before entry member

/-- Whatever a response leads to, every call so far found the request object well formed. -/
theorem After.wellFormed (ok : Ok flag s) (after : After parse flag response s t)
    (before : ∀ entry ∈ s.entries, entry.WellFormed) : ∀ entry ∈ t.entries, entry.WellFormed := by
  -- Only a redirect calls `start_url_request` again, with the new uri in place.
  cases after with
  | moved _ => exact before
  | final _ _ => exact before
  | redirect _ _ named other launch =>
    exact launch.wellFormed rfl (by simp [relocated, other.symm]) named ok.carries before

/--
The client meets no `NULL`, whatever the servers answer.

It starts, every completion that is handled runs to its end, and every call of `start_url_request` finds the request object well formed.
-/
def RedirectsSafely (parse : Chars → Option Uri) (url : Chars) (flag : Flag)
    (contentType data : Option Chars) (completions : List Completion) : Prop :=
  ∃ begins, start parse url flag contentType data = .ok begins ∧
    (∀ entry ∈ begins.entries, entry.WellFormed) ∧
    ∀ before done after s, completions = before ++ done :: after →
      (client parse begins).Run begins before s → (client parse begins).enabled s done →
      ∃ t, (client parse begins).exec s done = .ok t ∧ ∀ entry ∈ t.entries, entry.WellFormed

/--
The client meets no `NULL` exactly when every uri it is given has a host and a post has data.

Neither the url nor a redirect is checked before its uri is used, and data that is left out stays `NULL`.
A get request that formats its target past the end of the array meets no `NULL` by that: it is taken
here to go on as if the text had fitted, and what is written is recorded in `formatted`.
-/
theorem redirects_safely_iff (answered : ∀ done ∈ completions, done.response ≠ none)
    (driven : ∀ begins, start parse url flag contentType data = .ok begins →
      Driven parse begins completions) :
    RedirectsSafely parse url flag contentType data completions ↔
      NamesHost parse url ∧ (flag = .post → ∃ text, data = some text) ∧
        ∀ done ∈ completions, ∀ response, done.response = some response →
          LeadsOn parse response := by
  constructor
  · rintro ⟨begins, started, -, handled⟩
    have given : NamesHost parse url ∧ (flag = .post → ∃ text, data = some text) := by
      by_contra bad
      have stops : ∃ fault, start parse url flag contentType data = .error fault :=
        start_fault bad
      obtain ⟨fault, faults⟩ := stops
      cases faults.symm.trans started
    refine ⟨given.1, given.2, ?_⟩
    obtain ⟨u, host, -, -, ok, -⟩ := ok_start started
    refine forall_of_earlier fun before done after split earlier => ?_
    -- The completions before led on, so this one is handled, which only a survivor is.
    have survived : ∀ d ∈ before, Survives parse d := by
      intro d member
      cases given : d.response with
      | none => exact absurd given (answered d (by simp [split, member]))
      | some response => exact ⟨response, given, earlier d member response given⟩
    obtain ⟨s, run⟩ := ok.survives_run (split ▸ driven begins started) survived
    have enabled := driven begins started before done after s split run
    obtain ⟨t, ran, -⟩ := handled before done after s split run enabled
    intro response given
    by_contra astray
    have fatal : ¬ Survives parse done := by
      rintro ⟨response', given', leads⟩
      cases given.symm.trans given'
      exact astray leads
    obtain ⟨fault, faults⟩ := exec_faults (ok.run run) enabled fatal
    cases faults.symm.trans ran
  · rintro ⟨⟨u, host, parsed, named⟩, posts, leads⟩
    have started : start parse url flag contentType data = .ok _ := start_ok parsed named posts
    obtain ⟨u', host', parsed', named', ok, launch, carries⟩ := ok_start started
    have first := launch.wellFormed rfl (by simp [prepared]) named' carries (by simp [prepared])
    refine ⟨_, started, first, ?_⟩
    intro before done after s split run enabled
    -- Every step of the run adds at most one call, and that one finds what it needs.
    have both := run.preserves (fun s => Ok flag s ∧ ∀ entry ∈ s.entries, entry.WellFormed)
      (fun _ => True)
      (fun _ before step => by
        obtain ⟨response, -, -, after⟩ := step_after before.1 step
        exact ⟨before.1.step step, after.wellFormed before.1 before.2⟩)
      (fun _ _ => trivial) ⟨ok, first⟩
    have member : done ∈ completions := by simp [split]
    cases given : done.response with
    | none => exact absurd given (answered done member)
    | some response =>
      have onward := leads done member response given
      obtain ⟨t, ran, after⟩ := exec_survives both.1 enabled given onward
      exact ⟨t, ran, after.wellFormed both.1 both.2⟩

/--
A redirect that names its place is followed safely, as far as `NULL` is concerned.

Both of its get requests format `/?(null)` into an array of two bytes, which is not looked at here.
-/
theorem redirects_safely_home :
    RedirectsSafely parseHome homeUrl .get none none [homeAgain] := by
  -- The redirect leads back to where it came from.
  have answered : ∀ done ∈ [homeAgain], done.response ≠ none := by simp [homeAgain]
  have driven : ∀ begins, start parseHome homeUrl .get none none = .ok begins →
      Driven parseHome begins [homeAgain] := by
    intro begins started
    cases start_home.symm.trans started
    exact driven_home parseHome homeAgain.response
  refine (redirects_safely_iff answered driven).mpr
    ⟨⟨homeUri, .ofString "a", by simp [parseHome], rfl⟩, by simp, ?_⟩
  intro done member response given
  rw [List.mem_singleton.mp member] at given
  obtain ⟨response', given', leads⟩ := homeAgain_survives
  cases given.symm.trans given'
  exact leads

/-- A redirect without a place to go to is followed into `NULL`. -/
theorem redirect_without_location_faults : ¬ ∀ parse url flag contentType data completions,
    (∀ done ∈ completions, done.response ≠ none) →
    (∀ begins, start parse url flag contentType data = .ok begins →
      Driven parse begins completions) →
    RedirectsSafely parse url flag contentType data completions := by
  intro claim
  have driven := driven_home parseHome (some ⟨httpMovetemp, []⟩)
  obtain ⟨begins, started, -, handled⟩ := claim parseHome homeUrl .get none none
    [⟨0, some ⟨httpMovetemp, []⟩⟩] (by simp) (fun begins started => by
      cases start_home.symm.trans started
      exact driven)
  cases start_home.symm.trans started
  obtain ⟨u, host, -, -, ok, -⟩ := ok_start start_home
  have enabled := driven [] _ [] atHome rfl (.nil atHome)
  obtain ⟨t, ran, -⟩ := handled [] _ [] atHome rfl (.nil atHome) enabled
  -- Without the header there is no text to parse.
  have fatal : ¬ Survives parseHome ⟨0, some ⟨httpMovetemp, []⟩⟩ := by
    rintro ⟨response, given, leads⟩
    cases given
    obtain ⟨text, found, -⟩ := leads rfl
    cases found
  obtain ⟨fault, faults⟩ := exec_faults ok enabled fatal
  cases faults.symm.trans ran

end LinuxPro.Http
