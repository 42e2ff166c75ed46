import LinuxPro.Json.Callback
import LinuxPro.Lib.Fault

/-! That the callback and the choice of exceptions do not change which texts a parser accepts. -/

namespace LinuxPro.Json

/-- A parser that was given nothing but a text. -/
def plain (strtod : Chars → UInt64) : Settings Unit := ⟨strtod, none, true⟩

namespace Parser

variable {World α β γ δ : Type} {settings : Settings World}

/-! Code of the parser that only asks the callback. -/

/-- What the callback is told and keeps. -/
def state (parser : Parser World) : Int × World := (parser.depth, parser.world)

/-- A parser whose callback was asked something. -/
def told (parser : Parser World) (state : Int × World) : Parser World :=
  { parser with depth := state.1, world := state.2 }

/-- Code that leaves everything but the depth and the state of the callback as it is. -/
def tells (code : StateM (Int × World) α) : Parsing World α := fun parser =>
  .ok ((code parser.state).1, parser.told (code parser.state).2)

/-- The start of a container that would be kept. -/
theorem start_eq (event : ParseEvent) (empty : BasicJson) :
    start settings event empty true = tells (do
      let (keep, seen) ← ask settings.callback event .discarded
      deepen settings.callback 1
      return (keep, if keep then empty else seen)) := by
  -- Without a callback nothing is asked and the depth stays.
  unfold start
  cases present : settings.callback <;> rfl

/-- The end of a container that is kept. -/
theorem finish_eq (event : ParseEvent) (built : BasicJson) :
    finish settings event true built = tells (askEnd settings.callback event built) := by
  unfold finish
  cases present : settings.callback <;> rfl

/-- The end of a value that is kept. -/
theorem reportValue_eq (built : BasicJson) :
    reportValue settings true built = tells (report settings.callback built) := by
  unfold reportValue
  cases present : settings.callback <;> rfl

/-- The question about a key. -/
theorem keepTag_eq (key : Chars) :
    keepTag settings true key =
      tells (do return (← ask settings.callback .key (.string key)).1) := by
  unfold keepTag
  cases present : settings.callback <;> rfl

/-- Code that only asks, in front of other code. -/
theorem tells_bind (code : StateM (Int × World) α) (next : α → Parsing World β)
    (parser : Parser World) :
    (tells code >>= next) parser =
      next (code parser.state).1 (parser.told (code parser.state).2) := rfl

/-! Parsers side by side. -/

/-- Two parsers at the same place of the same text, neither of which met an error. -/
structure Beside (first : Parser Unit) (second : Parser World) : Prop where
  lastToken : second.lastToken = first.lastToken
  lexer : second.lexer = first.lexer
  unharmed : first.errored = false
  fine : second.errored = false

/--
How code of some parser ends when that of a plain one ends in a certain way.

They end alike unless the plain one throws and the other must not.
-/
def Follows (settings : Settings World) (agree : α → β → Prop) (failed : β → Prop)
    (one : Except Failure (α × Parser Unit)) (other : Except Failure (β × Parser World)) : Prop :=
  match one with
  | .ok (value, first) =>
    ∃ value' second, other = .ok (value', second) ∧ agree value value' ∧ first.Beside second
  | .error (.thrown exception) =>
    -- Where the other must not throw, it goes on with its error set.
    if settings.allowExceptions then other = .error (.thrown exception)
    else ∃ value' second, other = .ok (value', second) ∧ failed value' ∧ second.errored = true
  | .error .outOfFuel => other = .error .outOfFuel

/-- Both go on with a value. -/
theorem follows_pure {agree : α → β → Prop} {failed : β → Prop} {value : α} {value' : β}
    {first : Parser Unit} {second : Parser World} (equal : agree value value')
    (beside : first.Beside second) :
    Follows settings agree failed ((pure value : Parsing Unit α) first)
      ((pure value' : Parsing World β) second) :=
  ⟨value', second, rfl, equal, beside⟩

/-- Code in sequence, if the second part passes a failure of the first on. -/
theorem Follows.bind {agree : α → β → Prop} {failed : β → Prop} {agree' : γ → δ → Prop}
    {failed' : δ → Prop} {code : Parsing Unit α} {code' : Parsing World β}
    {next : α → Parsing Unit γ} {next' : β → Parsing World δ} {first : Parser Unit}
    {second : Parser World} (starts : Follows settings agree failed (code first) (code' second))
    (goes : ∀ value value' first second, agree value value' → first.Beside second →
      Follows settings agree' failed' (next value first) (next' value' second))
    (fails : settings.allowExceptions = false → ∀ value' second, failed value' →
      second.errored = true →
      ∃ result after, next' value' second = .ok (result, after) ∧ failed' result ∧
        after.errored = true) :
    Follows settings agree' failed' ((code >>= next) first) ((code' >>= next') second) := by
  show Follows _ _ _ (code first >>= fun ended => next ended.1 ended.2)
    (code' second >>= fun ended => next' ended.1 ended.2)
  unfold Follows at starts
  -- The first parts end alike, or the plain one throws, or both run out of fuel.
  split at starts
  · rename_i value middle run
    obtain ⟨value', after, run', equal, beside⟩ := starts
    rw [run, run', ok_bind, ok_bind]
    exact goes value value' middle after equal beside
  · rename_i exception run
    rw [run, error_bind]
    unfold Follows
    split at starts
    · rename_i allowed
      -- An exception of the first part is one of the whole.
      rw [starts, error_bind]
      simp [allowed]
    · rename_i forbidden
      obtain ⟨value', after, run', failure, errored⟩ := starts
      -- The other code goes on, and has to keep the error.
      rw [run', ok_bind]
      simp only [forbidden]
      exact fails (by simpa using forbidden) value' after failure errored
  · rename_i run
    rw [run, starts, error_bind, error_bind]
    rfl

/-- Both look at their state. -/
theorem follows_get_bind {agree : α → β → Prop} {failed : β → Prop}
    {next : Parser Unit → Parsing Unit α} {next' : Parser World → Parsing World β}
    {first : Parser Unit} {second : Parser World}
    (goes : Follows settings agree failed (next first first) (next' second second)) :
    Follows settings agree failed ((get >>= next) first) ((get >>= next') second) := goes

/-- Both read the next token, which is the same. -/
theorem follows_getToken_bind {agree : α → β → Prop} {failed : β → Prop}
    {next : Unit → Parsing Unit α} {next' : Unit → Parsing World β} {first : Parser Unit}
    {second : Parser World} (beside : first.Beside second)
    (goes : ∀ first second, first.Beside second →
      Follows settings agree failed (next () first) (next' () second)) :
    Follows settings agree failed ((getToken (plain settings.strtod) >>= next) first)
      ((getToken settings >>= next') second) := by
  refine goes _ _ ⟨?_, ?_, beside.unharmed, beside.fine⟩
  · show (second.lexer.scan _).1 = (first.lexer.scan _).1
    -- The same lexer gives the same token.
    rw [beside.lexer]
    rfl
  · show (second.lexer.scan _).2 = (first.lexer.scan _).2
    rw [beside.lexer]
    rfl

/-- What `expect` does, by whether it is met and whether it may throw. -/
theorem expect_eq (settings : Settings World) (type : TokenType) (parser : Parser World) :
    expect settings type parser =
      if parser.lastToken.type = type then .ok (true, parser)
      else if settings.allowExceptions then
        .error (.thrown (syntaxError { parser with errored := true, expected := type }))
      else .ok (false, { parser with errored := true, expected := type }) := by
  unfold expect
  show (if parser.lastToken.type = type then _ else _ : Parsing World Bool) parser = _
  -- The type of the token decides, and then the choice of exceptions.
  split
  · rfl
  · show (if settings.allowExceptions then _ else _ : Parsing World Bool) _ = _
    split <;> rfl

/-- An expectation that is met by both or by neither. -/
theorem follows_expect (type : TokenType) {first : Parser Unit} {second : Parser World}
    (beside : first.Beside second) :
    Follows settings (fun met met' => met = true ∧ met' = true) (fun met' => met' = false)
      (expect (plain settings.strtod) type first) (expect settings type second) := by
  rw [expect_eq, expect_eq, beside.lastToken]
  -- Both look at the same token.
  by_cases met : first.lastToken.type = type
  · rw [if_pos met, if_pos met]
    exact ⟨true, second, rfl, ⟨rfl, rfl⟩, beside⟩
  · rw [if_neg met, if_neg met, if_pos (show (plain settings.strtod).allowExceptions = true from rfl)]
    unfold Follows
    simp only
    split
    · -- The message is made from the place in the text alone.
      simp only [syntaxError, beside.lexer]
    · exact ⟨false, _, rfl, rfl, rfl⟩

/-- Code that leaves the place in the text and the error state as they are. -/
def Stays (code : Parsing World α) : Prop :=
  ∀ parser : Parser World, ∃ result after, code parser = .ok (result, after) ∧
    after.lastToken = parser.lastToken ∧ after.lexer = parser.lexer ∧
    after.errored = parser.errored

/-- A parser stays beside another one. -/
theorem Beside.stays {first : Parser Unit} {second after : Parser World}
    (beside : first.Beside second) (token : after.lastToken = second.lastToken)
    (lexer : after.lexer = second.lexer) (errored : after.errored = second.errored) :
    first.Beside after :=
  ⟨token.trans beside.lastToken, lexer.trans beside.lexer, beside.unharmed,
    errored.trans beside.fine⟩

/-- Asking the callback does not move the parser. -/
theorem stays_tells (code : StateM (Int × World) α) : Stays (tells code) :=
  fun _ => ⟨_, _, rfl, rfl, rfl, rfl⟩

/-- Doing nothing does not move the parser. -/
theorem stays_pure (value : α) : Stays (pure value : Parsing World α) :=
  fun parser => ⟨value, parser, rfl, rfl, rfl, rfl⟩

/-- Asking at the start of an array or object. -/
theorem stays_start (event : ParseEvent) (empty : BasicJson) (keep : Bool) :
    Stays (start settings event empty keep) := by
  -- Inside of what was refused nothing is asked.
  cases keep with
  | false => exact stays_pure _
  | true => exact @start_eq World settings event empty ▸ stays_tells _

/-- Asking at its end. -/
theorem stays_finish (event : ParseEvent) (keep : Bool) (built : BasicJson) :
    Stays (finish settings event keep built) := by
  cases keep with
  | false => exact stays_pure _
  | true => exact @finish_eq World settings event built ▸ stays_tells _

/-- Asking behind a value. -/
theorem stays_reportValue (keep : Bool) (built : BasicJson) :
    Stays (reportValue settings keep built) := by
  cases keep with
  | false => exact stays_pure _
  | true => exact @reportValue_eq World settings built ▸ stays_tells _

/-- Asking behind a key. -/
theorem stays_keepTag (keep : Bool) (key : Chars) : Stays (keepTag settings keep key) := by
  cases keep with
  | false => exact stays_pure _
  | true => exact @keepTag_eq World settings key ▸ stays_tells _

/-- Code of one parser that stays where it is, in front of code of both. -/
theorem Follows.stays {agree : α → β → Prop} {failed : β → Prop}
    {one : Except Failure (α × Parser Unit)} {code : Parsing World γ}
    {next : γ → Parsing World β} {first : Parser Unit} {second : Parser World}
    (stays : Stays code) (beside : first.Beside second)
    (goes : ∀ value after, first.Beside after →
      Follows settings agree failed one (next value after)) :
    Follows settings agree failed one ((code >>= next) second) := by
  obtain ⟨value, after, run, token, lexer, errored⟩ := stays second
  show Follows _ _ _ one (code second >>= fun ended => next ended.1 ended.2)
  rw [run, ok_bind]
  exact goes value after (beside.stays token lexer errored)

/-- Code of one parser that stays where it is, while the other is done. -/
theorem Stays.follows {failed : β → Prop} {code : Parsing World β} {value : α}
    {first : Parser Unit} {second : Parser World} (stays : Stays code)
    (beside : first.Beside second) :
    Follows settings (fun _ _ => True) failed (.ok (value, first)) (code second) := by
  obtain ⟨result, after, run, token, lexer, errored⟩ := stays second
  exact ⟨result, after, run, trivial, beside.stays token lexer errored⟩

/-- A token that is no bracket. -/
theorem follows_parseScalar (keep : Bool) {first : Parser Unit} {second : Parser World}
    (beside : first.Beside second) :
    Follows settings (fun _ _ => True) (fun _ => True)
      (parseScalar (plain settings.strtod) true first) (parseScalar settings keep second) := by
  unfold parseScalar
  apply follows_get_bind
  rw [beside.lastToken]
  -- A value is reported to the callback, which does not move the parser.
  have reported (value : BasicJson) :
      Follows settings (fun _ _ => True) (fun _ => True) (.ok (value, first))
        (reportValue settings keep value second) :=
    (stays_reportValue keep value).follows beside
  -- A token that starts no value is an error of both.
  have unmet (type : TokenType) :
      Follows settings (fun _ _ => True) (fun _ => True)
        ((do let _ ← expect (plain settings.strtod) type; return BasicJson.discarded) first)
        ((do let _ ← expect settings type; return BasicJson.discarded) second) :=
    (follows_expect type beside).bind
      (fun _ _ _ _ _ beside => follows_pure trivial beside)
      fun _ _ second _ errored => ⟨_, second, rfl, trivial, errored⟩
  have token := beside.lastToken
  cases kind : first.lastToken with
  | valueFloat bits =>
    cases finite : isFinite bits with
    | true =>
      simp only [finite, Bool.not_true, Bool.false_eq_true, if_false]
      exact reported _
    | false =>
      simp only [finite, Bool.not_false, if_true]
      -- A plain parser throws, and another one remembers the error and reports the value.
      show Follows settings _ _ (.error (.thrown (.outOfRange 406 _))) _
      unfold Follows
      simp only
      cases allowed : settings.allowExceptions with
      | true =>
        show Except.error (Failure.thrown (.outOfRange 406 _)) = _
        rw [beside.lexer]
      | false =>
        have run := expect_eq settings .uninitialized second
        rw [if_neg (by simp [token, kind, Token.type]), allowed, if_neg Bool.false_ne_true] at run
        obtain ⟨value, after, rerun, _, _, errored⟩ := @stays_reportValue World settings keep
          (.numberFloat bits) { second with errored := true, expected := .uninitialized }
        refine ⟨value, after, ?_, trivial, errored⟩
        show (expect settings .uninitialized second >>= fun ended => _) = _
        rw [run, ok_bind]
        exact rerun
  | parseError => exact unmet _
  | uninitialized => exact unmet _
  | beginArray => exact unmet _
  | beginObject => exact unmet _
  | endArray => exact unmet _
  | endObject => exact unmet _
  | nameSeparator => exact unmet _
  | valueSeparator => exact unmet _
  | endOfInput => exact unmet _
  | _ => exact reported _

/-- What the loops over members and elements have in common: both have met the end. -/
def BothEnded (ended ended' : Bool × BasicJson) : Prop := ended.1 = true ∧ ended'.1 = true

/-- The three functions of the parser follow those of a plain one, with the same fuel. -/
structure FollowsPlain (settings : Settings World) (fuel : Nat) : Prop where
  internal : ∀ keep first second, Beside first second →
    Follows settings (fun _ _ => True) (fun _ => True)
      (parseInternal (plain settings.strtod) fuel true first)
      (parseInternal settings fuel keep second)
  members : ∀ keep built built' first second, Beside first second →
    Follows settings BothEnded (fun ended => ended.1 = false)
      (parseMembers (plain settings.strtod) fuel true built first)
      (parseMembers settings fuel keep built' second)
  elements : ∀ keep built built' first second, Beside first second →
    Follows settings BothEnded (fun ended => ended.1 = false)
      (parseElements (plain settings.strtod) fuel true built first)
      (parseElements settings fuel keep built' second)

/-- The end of a container that was read through. -/
theorem follows_finish {event : ParseEvent} {finishing kept : Bool} {built built' : BasicJson}
    {first : Parser Unit} {second : Parser World} (beside : first.Beside second) :
    Follows settings (fun _ _ => True) (fun _ => True) (.ok (built, first))
      ((do reportValue settings kept (← finish settings event finishing built')) second) :=
  .stays (stays_finish event finishing built') beside fun value _ beside =>
    (stays_reportValue kept value).follows beside

/-- The end of the loop over a container. -/
theorem follows_endLoop {event : ParseEvent} {kept : Bool} {ended ended' : Bool × BasicJson}
    {first : Parser Unit} {second : Parser World} (beside : first.Beside second)
    (both : BothEnded ended ended') :
    Follows settings (fun _ _ => True) (fun _ => True)
      (endLoop (plain settings.strtod) event true ended first)
      (endLoop settings event kept ended' second) := by
  unfold endLoop
  rw [if_pos both.1, if_pos both.2]
  exact follows_finish beside

/-- An error met in the loop over a container. -/
theorem endLoop_failed {event : ParseEvent} {keep : Bool} (ended : Bool × BasicJson)
    (parser : Parser World) (failed : ended.1 = false) (errored : parser.errored = true) :
    ∃ result after, endLoop settings event keep ended parser = .ok (result, after) ∧ True ∧
      after.errored = true := by
  unfold endLoop
  rw [failed]
  exact ⟨ended.2, parser, rfl, trivial, errored⟩

/-- Both start a container, which a plain parser always keeps. -/
theorem follows_start_bind {agree : α → β → Prop} {failed : β → Prop} {event : ParseEvent}
    {empty : BasicJson} {keep : Bool} {next : Bool × BasicJson → Parsing Unit α}
    {next' : Bool × BasicJson → Parsing World β} {first : Parser Unit} {second : Parser World}
    (beside : first.Beside second)
    (goes : ∀ kept result after, first.Beside after →
      Follows settings agree failed (next (true, empty) first) (next' (kept, result) after)) :
    Follows settings agree failed ((start (plain settings.strtod) event empty true >>= next) first)
      ((start settings event empty keep >>= next') second) :=
  .stays (stays_start event empty keep) beside fun started after beside =>
    goes started.1 started.2 after beside

/-- Both have read a key, which a plain parser always keeps. -/
theorem follows_keepTag_bind {agree : α → β → Prop} {failed : β → Prop} {key : Chars} {keep : Bool}
    {next : Bool → Parsing Unit α} {next' : Bool → Parsing World β} {first : Parser Unit}
    {second : Parser World} (beside : first.Beside second)
    (goes : ∀ tag after, first.Beside after →
      Follows settings agree failed (next true first) (next' tag after)) :
    Follows settings agree failed ((keepTag (plain settings.strtod) true key >>= next) first)
      ((keepTag settings keep key >>= next') second) :=
  .stays (stays_keepTag keep key) beside goes

/-- A value, if its functions with less fuel follow a plain parser. -/
theorem follows_parseInternal {fuel : Nat} (ih : FollowsPlain settings fuel) (keep : Bool)
    {first : Parser Unit} {second : Parser World} (beside : Beside first second) :
    Follows settings (fun _ _ => True) (fun _ => True)
      (parseInternal (plain settings.strtod) (fuel + 1) true first)
      (parseInternal settings (fuel + 1) keep second) := by
  rw [parseInternal, parseInternal]
  apply follows_get_bind
  rw [beside.lastToken]
  -- Brackets lead to the loops, and all other tokens to the scalars.
  cases first.lastToken with
  | beginObject =>
    apply follows_start_bind beside
    intro kept result second beside
    apply follows_getToken_bind beside
    intro first second beside
    apply follows_get_bind
    rw [beside.lastToken]
    split
    · -- The container is empty.
      exact follows_finish beside
    · -- The loop ends in both, or the error it met is passed on.
      exact (ih.members kept _ _ _ _ beside).bind
        (fun _ _ _ _ both beside => follows_endLoop beside both) fun _ => endLoop_failed
  | beginArray =>
    apply follows_start_bind beside
    intro kept result second beside
    apply follows_getToken_bind beside
    intro first second beside
    apply follows_get_bind
    rw [beside.lastToken]
    split
    · exact follows_finish beside
    · exact (ih.elements kept _ _ _ _ beside).bind
        (fun _ _ _ _ both beside => follows_endLoop beside both) fun _ => endLoop_failed
  | _ => exact follows_parseScalar keep beside

/-- The end of a round of a loop: a comma and the next round, or the closing bracket. -/
theorem follows_round {closing : Token} {type : TokenType} {built built' : BasicJson}
    {again : Parsing Unit (Bool × BasicJson)} {again' : Parsing World (Bool × BasicJson)}
    {first : Parser Unit} {second : Parser World} (beside : Beside first second)
    (goes : ∀ first second, Beside first second →
      Follows settings BothEnded (fun ended => ended.1 = false) (again first) (again' second)) :
    Follows settings BothEnded (fun ended => ended.1 = false)
      ((do
        getToken (plain settings.strtod)
        if (← get).lastToken = closing then
          getToken (plain settings.strtod)
          again
        else return (← expect (plain settings.strtod) type, built)) first)
      ((do
        getToken settings
        if (← get).lastToken = closing then
          getToken settings
          again'
        else return (← expect settings type, built')) second) := by
  apply follows_getToken_bind beside
  intro first second beside
  apply follows_get_bind
  rw [beside.lastToken]
  split
  · -- Behind a comma the loop goes on.
    exact follows_getToken_bind beside goes
  · refine (follows_expect type beside).bind ?_ ?_
    · -- Whether the bracket is there is what the loop returns.
      intro met met' first second equal beside
      exact follows_pure equal beside
    · intro _ met' second failed errored
      exact ⟨_, second, rfl, failed, errored⟩

/-- The loop over elements, if its functions with less fuel follow a plain parser. -/
theorem follows_parseElements {fuel : Nat} (ih : FollowsPlain settings fuel) (keep : Bool)
    (built built' : BasicJson) {first : Parser Unit} {second : Parser World}
    (beside : Beside first second) :
    Follows settings BothEnded (fun ended => ended.1 = false)
      (parseElements (plain settings.strtod) (fuel + 1) true built first)
      (parseElements settings (fuel + 1) keep built' second) := by
  rw [parseElements, parseElements]
  refine (ih.internal keep _ _ beside).bind ?_ ?_
  · intro value value' first second _ beside
    apply follows_get_bind
    simp only [beside.unharmed, beside.fine, Bool.false_eq_true, if_false]
    exact follows_round beside fun first second beside => ih.elements keep _ _ _ _ beside
  · -- An error that was remembered ends the loop.
    intro _ value' second _ errored
    refine ⟨(false, built'), second, ?_, rfl, errored⟩
    show (if second.errored then _ else _ : Parsing World (Bool × BasicJson)) second = _
    rw [if_pos errored]
    rfl

/-- The loop over members, if its functions with less fuel follow a plain parser. -/
theorem follows_parseMembers {fuel : Nat} (ih : FollowsPlain settings fuel) (keep : Bool)
    (built built' : BasicJson) {first : Parser Unit} {second : Parser World}
    (beside : Beside first second) :
    Follows settings BothEnded (fun ended => ended.1 = false)
      (parseMembers (plain settings.strtod) (fuel + 1) true built first)
      (parseMembers settings (fuel + 1) keep built' second) := by
  rw [parseMembers, parseMembers]
  -- Wherever an error was set, the object is returned as it was.
  have stopped (second : Parser World) (errored : second.errored = true) :
      ∃ result after, ((return (false, built') : Parsing World (Bool × BasicJson)) second) =
        .ok (result, after) ∧ result.1 = false ∧ after.errored = true :=
    ⟨_, second, rfl, rfl, errored⟩
  -- A round goes through a key, a colon and a value, and each of them can end it.
  refine (follows_expect .valueString beside).bind ?_ ?_
  · rintro _ _ first second ⟨rfl, rfl⟩ beside
    apply follows_get_bind
    rw [beside.lastToken]
    apply follows_keepTag_bind beside
    intro tag second beside
    apply follows_getToken_bind beside
    intro first second beside
    refine (follows_expect .nameSeparator beside).bind ?_ ?_
    · rintro _ _ first second ⟨rfl, rfl⟩ beside
      apply follows_getToken_bind beside
      intro first second beside
      refine (ih.internal keep _ _ beside).bind ?_ ?_
      · intro value value' first second _ beside
        apply follows_get_bind
        simp only [beside.unharmed, beside.fine, Bool.false_eq_true, if_false]
        exact follows_round beside fun first second beside => ih.members keep _ _ _ _ beside
      · intro _ value' second _ errored
        show ∃ result after, (if second.errored then _ else _ : Parsing World (Bool × BasicJson))
          second = .ok (result, after) ∧ _
        rw [if_pos errored]
        exact stopped second errored
    · rintro _ _ second rfl errored
      exact stopped second errored
  · rintro _ _ second rfl errored
    exact stopped second errored

/-- Every parser follows a plain one, however deep a text is nested. -/
theorem followsPlain (settings : Settings World) (fuel : Nat) : FollowsPlain settings fuel := by
  -- The induction is on the fuel, which all three functions pass on.
  induction fuel with
  | zero => exact ⟨fun _ _ _ _ => rfl, fun _ _ _ _ _ _ => rfl, fun _ _ _ _ _ _ => rfl⟩
  | succ fuel ih =>
    exact ⟨fun keep _ _ beside => follows_parseInternal ih keep beside,
      fun keep built built' _ _ beside => follows_parseMembers ih keep built built' beside,
      fun keep built built' _ _ beside => follows_parseElements ih keep built built' beside⟩

end Parser

end LinuxPro.Json
