import LinuxPro.Mgr.Server

/-! Which requests the management server replies to, and with what. -/

namespace LinuxPro.Mgr

variable {req : Request} {reqs : List Request} {s t : State} {uri literal : Chars}

/-- The three ways in which a get request is handled. -/
inductive Route where
  | position
  | info
  | other
  deriving DecidableEq

/-- The reply that belongs to each of them. -/
def replyOf : Route → Reply
  | .position => ⟨httpOk, .ofString "OK", []⟩
  | .info => ⟨httpNotimplemented, .ofString "OK", .ofString "Get Target Info not implemented"⟩
  | .other => ⟨httpNotimplemented, .ofString "OK", .ofString "not implemented"⟩

/-- The replies tell the routes apart. -/
theorem replyOf_injective : Function.Injective replyOf := by
  intro first second same
  cases first <;> cases second <;> first | rfl | exact absurd same (by decide)

/-- The path of a uri, which ends before the first question mark. -/
def path (uri : Chars) : Chars := uri.takeWhile (· ≠ Percent.mark)

/-- The route for a path, which has to be exactly the one that the route is named for. -/
def wanted (path : Chars) : Route :=
  if path = getTargPosition then .position
  else if path = getTargBasicinfo then .info
  else .other

/-- Every request gets exactly one reply, and a get request the one that its path asks for. -/
def Dispatches (reqs : List Request) : Prop :=
  ∀ before req after, reqs = before ++ req :: after → ∃ reply,
    ((serve (before ++ [req])).run {}).2.replies =
      ((serve before).run {}).2.replies ++ [(req, reply)] ∧
    (req.command = .get → reply = replyOf (wanted (path req.uri)))

/-- The route that is chosen for a uri, by what it begins with. -/
def chosen (uri : Chars) : Route :=
  if getTargPosition <+: uri then .position
  else if getTargBasicinfo <+: uri then .info
  else .other

/-- The replies that are sent for a request. -/
def sent (req : Request) : List (Request × Reply) :=
  if req.command = .get then [(req, replyOf (chosen req.uri))] else []

/-- The first comparison tests whether the uri begins with the name of the position handler. -/
theorem strncmp_position (uri : Chars) :
    Chars.strncmp uri getTargPosition getTargPositionSize = 0 ↔ getTargPosition <+: uri := by
  -- As many bytes are compared as the name has.
  exact Chars.strncmp_eq_zero_iff uri (Chars.printable_of_all (by decide))

/-- The second comparison tests whether the uri begins with the name of the other one. -/
theorem strncmp_basicinfo (uri : Chars) :
    Chars.strncmp uri getTargBasicinfo getTargBasicinfoSize = 0 ↔ getTargBasicinfo <+: uri := by
  exact Chars.strncmp_eq_zero_iff uri (Chars.printable_of_all (by decide))

/-- Logging the headers sends nothing. -/
theorem logHeaders_replies (headers : List (Chars × Chars)) (s : State) :
    ((logHeaders headers).run s).2.replies = s.replies := by
  induction headers generalizing s with
  | nil => rfl
  | cons header rest ih => exact ih _

/-- The code and the output are those of the route that is chosen, and nothing is sent. -/
theorem dispatchGet_run (uri : Chars) (params : List (Chars × Chars)) (s : State) :
    ∃ log, (dispatchGet uri params []).run s =
      pure (((replyOf (chosen uri)).code, (replyOf (chosen uri)).body), { s with log := log }) := by
  unfold dispatchGet chosen
  simp only [strncmp_position, strncmp_basicinfo]
  -- The two comparisons choose the route, and each branch returns its code and its text.
  split
  · exact ⟨_, rfl⟩
  split
  · exact ⟨_, rfl⟩
  · exact ⟨_, rfl⟩

/-- A get request is sent the reply of the route that is chosen for it. -/
theorem handleRequestGet_replies (req : Request) (s : State) :
    ((handleRequestGet req).run s).2.replies =
      s.replies ++ [(req, replyOf (chosen req.uri))] := by
  -- The branch is taken in the state that logging has left.
  obtain ⟨t, silent, ran⟩ : ∃ t : State, t.replies = s.replies ∧
      (handleRequestGet req).run s =
        (do
          let branch ← dispatchGet req.uri (Http.evhttpParseQuery req.uri) []
          evhttpSendReply req branch.1 (.ofString "OK") branch.2 : ServerM Unit).run t :=
    ⟨((logHeaders req.inputHeaders).run
      ((log (.ofString "Received a GET request for " ++ req.uri ++ .ofString " headers:")).run
        s).2).2, logHeaders_replies _ _, rfl⟩
  obtain ⟨log, branch⟩ := dispatchGet_run req.uri (Http.evhttpParseQuery req.uri) t
  have reason : (replyOf (chosen req.uri)).reason = .ofString "OK" := by
    cases chosen req.uri <;> rfl
  rw [ran, StateT.run_bind, branch, ← silent, ← reason]
  rfl

/-- Only a get request is sent a reply. -/
theorem dumpRequestCb_replies (req : Request) (s : State) :
    ((dumpRequestCb req).run s).2.replies = s.replies ++ sent req := by
  unfold dumpRequestCb sent
  cases command : req.command with
  -- The other methods are only logged, and a post request is logged twice.
  | get => exact handleRequestGet_replies req _
  | post => simp [handleRequestPost, log]; rfl
  | _ => simp [log]; rfl

/-- The requests of a sequence are served one after the other. -/
theorem serve_replies (reqs : List Request) (s : State) :
    ((serve reqs).run s).2.replies = s.replies ++ reqs.flatMap sent := by
  induction reqs generalizing s with
  | nil => simp [serve]; rfl
  | cons req rest ih =>
    -- The rest is served from the state that the first request leaves.
    have first := ih ((dumpRequestCb req).run s).2
    rw [dumpRequestCb_replies, List.append_assoc, ← List.flatMap_cons] at first
    exact first

/-- A text without a question mark begins a uri exactly if it begins its path. -/
theorem isPrefix_path_iff (unmarked : Percent.mark ∉ literal) :
    literal <+: path uri ↔ literal <+: uri := by
  constructor
  · -- The path is a beginning of the uri.
    intro begins
    exact begins.trans (List.takeWhile_prefix _)
  · -- The first question mark lies behind the text.
    rintro ⟨rest, rfl⟩
    have ordinary := Chars.ne_of_not_mem unmarked
    rw [path, List.takeWhile_append_of_pos ordinary]
    exact List.prefix_append _ _

/-- The names of the two handlers, neither of which begins the other. -/
theorem names_apart : ¬ getTargPosition <+: getTargBasicinfo ∧
    ¬ getTargBasicinfo <+: getTargPosition := by
  decide

/-- Whether a uri does not go beyond the name of a handler that it begins with. -/
def Exact (uri : Chars) : Prop :=
  ∀ name ∈ [getTargPosition, getTargBasicinfo], name <+: path uri → path uri = name

/-- The route that is chosen is the one wanted exactly if no handler's name is gone beyond. -/
theorem chosen_eq_wanted_iff (uri : Chars) : chosen uri = wanted (path uri) ↔ Exact uri := by
  have position : getTargPosition <+: path uri ↔ getTargPosition <+: uri :=
    isPrefix_path_iff (by decide)
  have info : getTargBasicinfo <+: path uri ↔ getTargBasicinfo <+: uri :=
    isPrefix_path_iff (by decide)
  unfold chosen wanted Exact
  simp only [List.forall_mem_cons, ← position, ← info]
  generalize path uri = path
  obtain ⟨apart, apart'⟩ := names_apart
  -- The path goes beyond a name, is one of them, or begins with neither.
  by_cases first : path = getTargPosition
  · simp [first, apart']
  by_cases second : path = getTargBasicinfo
  · have other : getTargBasicinfo ≠ getTargPosition := second ▸ first
    simp [second, apart, other]
  by_cases begins : getTargPosition <+: path
  · simp [first, second, begins]
  by_cases begins' : getTargBasicinfo <+: path
  · simp [first, second, begins, begins']
  · simp [first, second, begins, begins']

/-- What a request adds to the replies does not depend on those before it. -/
theorem serve_turn_iff (before : List Request) (req : Request) (reply : Reply) :
    ((serve (before ++ [req])).run {}).2.replies =
      ((serve before).run {}).2.replies ++ [(req, reply)] ↔ sent req = [(req, reply)] := by
  simp [serve_replies]

/-- Requests that are dispatched as they should be are get requests for exact paths. -/
theorem Dispatches.exact {reqs : List Request} (dispatches : Dispatches reqs) :
    ∀ req ∈ reqs, req.command = .get ∧ Exact req.uri := by
  intro req member
  obtain ⟨before, after, split⟩ := List.append_of_mem member
  obtain ⟨reply, replied, right⟩ := dispatches before req after split
  rw [serve_turn_iff, sent] at replied
  split at replied
  · -- Its reply is the one wanted, so that the route is.
    rename_i isGet
    simp only [List.cons.injEq, Prod.mk.injEq, true_and, and_true, right isGet] at replied
    exact ⟨isGet, (chosen_eq_wanted_iff req.uri).mp (replyOf_injective replied)⟩
  · -- Without a get request there is no reply.
    cases replied

/--
The server dispatches as it should exactly if all requests are get requests whose paths do not go
beyond the name of a handler.

Any other method is logged and gets no reply at all, and a longer path reaches the handler whose
name it begins with.
-/
theorem dispatches_iff (reqs : List Request) :
    Dispatches reqs ↔ ∀ req ∈ reqs, req.command = .get ∧ Exact req.uri := by
  constructor
  · exact Dispatches.exact
  · intro right before req after split
    obtain ⟨isGet, exact⟩ := right req (by simp [split])
    refine ⟨replyOf (chosen req.uri), (serve_turn_iff _ _ _).mpr (if_pos isGet), fun _ => ?_⟩
    rw [(chosen_eq_wanted_iff req.uri).mpr exact]

/-- A get request for a longer path than that of the position handler. -/
def longerPath : Request := ⟨.get, .ofString "/Target/GetPositions", []⟩

/-- A post request. -/
def posted : Request := ⟨.post, .ofString "/Target/GetPosition", []⟩

/-- The longer path reaches the position handler, and the post request gets no reply. -/
theorem longer_path_and_post_misrouted :
    ((serve [longerPath, posted]).run {}).2.replies = [(longerPath, replyOf .position)] ∧
      wanted (path longerPath.uri) = .other ∧ ¬ Dispatches [longerPath, posted] := by
  refine ⟨?_, by decide, ?_⟩
  · rw [serve_replies]
    decide
  · -- Already the second request is of the wrong method.
    intro dispatches
    exact absurd (dispatches.exact posted (by simp)).1 (by decide)

end LinuxPro.Mgr
