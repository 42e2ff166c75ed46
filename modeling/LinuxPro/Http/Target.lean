import LinuxPro.Http.Accounting
import LinuxPro.Lib.Percent

/-! The target that a request is made for, and the array it is formatted into. -/

namespace LinuxPro.Http

variable {s t : Client} {flag other : Flag} {u : Uri} {host path : Chars} {pointer : Nat}
  {query : Option Chars}

/-- A path, where none at all means the root. -/
def orRoot (path : Chars) : Chars := if path = [] then .ofString "/" else path

/-- The target that stands for a path and an optional query. -/
def wanted (path : Chars) : Option Chars → Chars
  | none => orRoot path
  | some query => orRoot path ++ Percent.mark :: query

/-- What a server takes the path and the query of a target for. -/
def splitTarget (target : Chars) : Chars × Option Chars :=
  (target.takeWhile (· ≠ Percent.mark),
    match target.dropWhile (· ≠ Percent.mark) with
    | [] => none
    | _ :: query => some query)

/-- Whether starting a request hands this target to libevent. -/
def HandsOver (flag : Flag) (s : Client) (target : Chars) : Prop :=
  ∃ t request, (startUrlRequest flag).run s = .ok ((), t) ∧
    t.requests s.nextReq = some request ∧ request.target = target

/-- Whether starting a request asks for a path and a query, within the arrays it allocates. -/
def AsksFor (flag : Flag) (s : Client) (path : Chars) (query : Option Chars) : Prop :=
  ∃ t request new, (startUrlRequest flag).run s = .ok ((), t) ∧
    t.requests s.nextReq = some request ∧ request.target = wanted path query ∧
    splitTarget request.target = (orRoot path, query) ∧ t.formatted = new ++ s.formatted ∧
    ∀ array ∈ new, array.2 ≤ array.1

/-- What starting a request does to the new request and to the arrays. -/
theorem launched_target (flag : Flag) (u : Uri) (host : Chars) (s : Client) :
    (∃ request, (launched flag u host s).requests s.nextReq = some request ∧
      request.target = target u flag) ∧
      (launched flag u host s).formatted = formats u flag ++ s.formatted := by
  cases cn : s.cn <;> simp [launched, made, halfway, connected, disconnected, entered, cn]

/-- The target of a request is what starting it hands over. -/
theorem handsOver_target (ready : Ready s pointer u host) (carries : Carries s flag) :
    HandsOver flag s (target u flag) := by
  obtain ⟨request, known, asked⟩ := (launched_target flag u host s).1
  exact ⟨_, request, startUrlRequest_run ready carries, known, asked⟩

/-- A request asks for what it should exactly if its target is the one wanted and fits its array. -/
theorem asksFor_iff (ready : Ready s pointer u host) (carries : Carries s flag) :
    AsksFor flag s path query ↔
      target u flag = wanted path query ∧ splitTarget (target u flag) = (orRoot path, query) ∧
        ∀ array ∈ formats u flag, array.2 ≤ array.1 := by
  obtain ⟨⟨request, known, asked⟩, arrays⟩ := launched_target flag u host s
  constructor
  · rintro ⟨t, request', new, ran, known', right⟩
    -- There is one outcome, which is known.
    rw [startUrlRequest_run ready carries] at ran
    cases ran
    rw [known] at known'
    cases known'
    rw [arrays, List.append_left_inj, asked] at right
    obtain ⟨same, split, rfl, fits⟩ := right
    exact ⟨same, split, fits⟩
  · -- The known outcome is as it should be.
    rintro ⟨same, split, fits⟩
    exact ⟨_, request, _, startUrlRequest_run ready carries, known, asked.trans same,
      asked ▸ split, arrays, fits⟩

/-- The array for the target of a get request is always too short for it. -/
theorem pathQueryLen_lt (named : u.path = some path) :
    pathQueryLen u < (pathQuery u).length + 1 := by
  -- The length counts the path, the query and a zero, but not the question mark.
  have mark : (Chars.ofString "?").length = 1 := by decide
  cases asked : u.query with
  | none => simp [pathQueryLen, pathQuery, printed, named, asked, mark]
  | some query =>
    simp only [pathQueryLen, pathQuery, printed, named, asked, mark, Option.map_some,
      Option.getD_some, List.length_append]
    omega

/-- There is nothing to format exactly if the path is empty and the query is absent or empty. -/
theorem pathQueryLen_le_one_iff (named : u.path = some path) :
    pathQueryLen u ≤ 1 ↔ path = [] ∧ (u.query = none ∨ u.query = some []) := by
  cases asked : u.query with
  | none => simp [pathQueryLen, named, asked]
  | some query => simp [pathQueryLen, named, asked, and_comm]

/-- A target without a question mark is all path. -/
theorem splitTarget_path {target : Chars} (unmarked : Percent.mark ∉ target) :
    splitTarget target = (target, none) := by
  have ordinary := Chars.ne_of_not_mem unmarked
  rw [splitTarget, List.takeWhile_eq_self_iff.mpr ordinary, List.dropWhile_eq_nil_iff.mpr ordinary]

/-- A get request asks for what it should only if there is nothing to format. -/
theorem get_right_iff (named : u.path = some path) :
    (target u .get = wanted path u.query ∧
      splitTarget (target u .get) = (orRoot path, u.query) ∧
      ∀ array ∈ formats u .get, array.2 ≤ array.1) ↔ u.query = none ∧ path = [] := by
  by_cases content : pathQueryLen u > 1
  · -- The formatted text does not fit, whatever it is.
    have nonempty : ¬ (u.query = none ∧ path = []) := by
      rintro ⟨absent, empty⟩
      exact Nat.not_le.mpr content ((pathQueryLen_le_one_iff named).mpr ⟨empty, .inl absent⟩)
    refine iff_of_false (fun ⟨_, _, fits⟩ => ?_) nonempty
    have short := fits _ (by rw [formats, if_pos content]; exact List.mem_singleton_self _)
    exact Nat.not_le.mpr (pathQueryLen_lt named) short
  · obtain ⟨rfl, asked⟩ := (pathQueryLen_le_one_iff named).mp (Nat.not_lt.mp content)
    -- The target is the root, which stands for an absent query only.
    have root : splitTarget (.ofString "/") = (.ofString "/", none) := by decide
    rcases asked with absent | empty
    · simp [target, formats, content, absent, wanted, orRoot, root]
    · simp [target, formats, content, empty, wanted, orRoot]

/-- A post request asks for what it should exactly if there is a path and no query. -/
theorem post_right_iff (named : u.path = some path) (unmarked : Percent.mark ∉ path) :
    (target u .post = wanted path u.query ∧
      splitTarget (target u .post) = (orRoot path, u.query) ∧
      ∀ array ∈ formats u .post, array.2 ≤ array.1) ↔ u.query = none ∧ path ≠ [] := by
  -- The target is the path as it is, with no query and no array.
  have asks : target u .post = path := by simp [target, named]
  rw [asks, splitTarget_path unmarked]
  have root : Chars.ofString "/" ≠ [] := by decide
  by_cases empty : path = []
  · cases u.query <;> simp [empty, wanted, orRoot, root]
  · cases u.query <;> simp [empty, wanted, orRoot, formats]

/-- The two kinds of request never ask for the same target. -/
theorem target_get_ne_post (named : u.path = some path) : target u .get ≠ target u .post := by
  intro same
  have asks : target u .post = path := by simp [target, named]
  rw [asks] at same
  by_cases content : pathQueryLen u > 1
  · -- The question mark alone makes the target of a get request longer than the path.
    have mark : (Chars.ofString "?").length = 1 := by decide
    have longer := congrArg List.length same
    rw [target, if_pos content] at longer
    simp only [pathQuery, named, printed, Option.getD_some, List.length_append, mark] at longer
    omega
  · -- The path is empty, and the target of a get request is the root.
    obtain ⟨rfl, _⟩ := (pathQueryLen_le_one_iff named).mp (Nat.not_lt.mp content)
    rw [target, if_neg content] at same
    cases same

/--
A request asks for the path and the query of its uri only if there is no query, and then a get
request only for the root and a post request only for anything else.

So there is no uri for which the two kinds of request ask for the same target.
-/
theorem asks_for_uri_iff (ready : Ready s pointer u host) (carries : Carries s flag)
    (named : u.path = some path) (unmarked : Percent.mark ∉ path) :
    (AsksFor flag s path u.query ↔ u.query = none ∧ (flag = .get ↔ path = [])) ∧
      ∀ other, other ≠ flag → Carries s other →
        ∃ mine theirs, HandsOver flag s mine ∧ HandsOver other s theirs ∧ mine ≠ theirs := by
  constructor
  · rw [asksFor_iff ready carries]
    cases flag with
    | get => simpa using get_right_iff named
    | post => simpa using post_right_iff named unmarked
  · intro other different carries'
    refine ⟨_, _, handsOver_target ready carries, handsOver_target ready carries', ?_⟩
    -- The flags differ, so that one of the targets is that of a get request.
    cases flag with
    | get =>
      cases other with
      | get => exact absurd rfl different
      | post => exact target_get_ne_post named
    | post =>
      cases other with
      | get => exact (target_get_ne_post named).symm
      | post => exact absurd rfl different

/-- A post request object for the url `http://a/`. -/
def postHome : Client := prepared homeUri .post none (some (.ofString "x=1"))

/-- A post request for a url with a path and no query asks for that path. -/
theorem asks_for_uri_post_home :
    AsksFor .post postHome (.ofString "/") none ∧
      ∃ mine theirs, HandsOver .post postHome mine ∧ HandsOver .get postHome theirs ∧
        mine ≠ theirs := by
  have ready : Ready postHome 0 homeUri (.ofString "a") :=
    ⟨rfl, rfl, rfl, by simp [postHome, prepared]⟩
  have carries : Carries postHome .post := carries_prepared fun _ => ⟨_, rfl⟩
  have both := asks_for_uri_iff ready carries rfl (by decide)
  exact ⟨both.1.mpr ⟨rfl, by decide⟩, both.2 .get (by decide) (by simp [Carries])⟩

/-- A get request for the same url formats eight characters and a zero into two bytes. -/
theorem get_home_overflows :
    HandsOver .get (prepared homeUri .get none none) (.ofString "/?(null)") ∧
      (∃ t, (startUrlRequest .get).run (prepared homeUri .get none none) = .ok ((), t) ∧
        t.formatted = [(2, 9)]) ∧
      ¬ AsksFor .get (prepared homeUri .get none none) (.ofString "/") none := by
  have ready : Ready (prepared homeUri .get none none) 0 homeUri (.ofString "a") :=
    ⟨rfl, rfl, rfl, by simp [prepared]⟩
  have carries : Carries (prepared homeUri .get none none) .get := by simp [Carries]
  refine ⟨handsOver_target ready carries, ⟨_, startUrlRequest_run ready carries, ?_⟩, ?_⟩
  · rw [(launched_target _ _ _ _).2]
    decide
  · -- The target that is handed over is not the root.
    rw [asksFor_iff ready carries]
    rintro ⟨same, _⟩
    exact absurd same (by decide)

end LinuxPro.Http
