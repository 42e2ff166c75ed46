import LinuxPro.Json.Soundness

/-!
That the fuel of a parser lasts.

Every token that a parser goes on from was taken from the text, so that twice the length of the
text bounds how often its functions call each other.
-/

namespace LinuxPro.Json

namespace Parser

variable {strtod : Chars → UInt64}

/-- Code ends within its fuel, with no more of the text left than so much. -/
def Halts {α : Type} (size : Nat) (result : Except Failure (α × Parser Unit)) : Prop :=
  result ≠ .error .outOfFuel ∧
    ∀ value after, result = .ok (value, after) → after.lexer.left.length ≤ size

/-- A parser with no token to go on from. -/
def Dead (parser : Parser Unit) : Prop :=
  parser.lastToken = .parseError ∨ parser.lastToken = .endOfInput

/-- Code that throws has come to an end. -/
theorem halts_thrown {α : Type} {size : Nat} {result : Except Failure (α × Parser Unit)}
    {exception : Exception} (thrown : result = .error (.thrown exception)) : Halts size result := by
  subst thrown
  exact ⟨by simp, by simp⟩

/-- Code that succeeds has come to an end. -/
theorem halts_ok {α : Type} {size : Nat} {result : Except Failure (α × Parser Unit)} {value : α}
    {parser : Parser Unit} (run : result = .ok (value, parser))
    (short : parser.lexer.left.length ≤ size) : Halts size result := by
  subst run
  refine ⟨by simp, fun _ after equal => ?_⟩
  cases equal
  exact short

/-- Reading a token takes something from the text, if there is one. -/
theorem dead_or_shorter (strtod : Chars → UInt64) (parser : Parser Unit) :
    Dead (parser.next (plain strtod)) ∨
      (parser.next (plain strtod)).lexer.left.length < parser.lexer.left.length := by
  rcases next_cases strtod parser with failed | ended | ⟨space, text, _, lexeme, here⟩
  · exact .inl (.inl failed)
  · exact .inl (.inr ended)
  · -- The text of a token has at least a byte.
    obtain ⟨byte, rest, rfl, _⟩ := lexeme.starts
    right
    rw [here]
    simp only [List.length_append, List.length_cons]
    omega

/-- Without a token to go on from there is no value. -/
theorem dead_internal (strtod : Chars → UInt64) {parser : Parser Unit} (dead : Dead parser)
    (fuel : Nat) :
    ∃ exception, parseInternal (plain strtod) (fuel + 1) true parser =
      .error (.thrown exception) := by
  rw [parseInternal_scalar (by rcases dead with token | token <;> simp [token])
    (by rcases dead with token | token <;> simp [token])]
  -- Neither an error nor the end has a value.
  rcases parseScalar_plain strtod parser with ⟨_, value, known, _⟩ | ⟨_, _, thrown⟩
  · rcases dead with token | token <;> rw [token] at known <;> cases known
  · exact thrown

/-- Without a token to go on from there are no elements. -/
theorem dead_elements (strtod : Chars → UInt64) {parser : Parser Unit} (dead : Dead parser)
    (fuel : Nat) (built : BasicJson) :
    ∃ exception, parseElements (plain strtod) (fuel + 2) true built parser =
      .error (.thrown exception) := by
  -- The loop starts with a value, for which it passes on one less.
  obtain ⟨exception, thrown⟩ := dead_internal strtod dead fuel
  exact ⟨exception, by rw [parseElements, bind_error thrown]⟩

/-- Without a token to go on from there are no members. -/
theorem dead_members (strtod : Chars → UInt64) {parser : Parser Unit} (dead : Dead parser)
    (fuel : Nat) (built : BasicJson) :
    ∃ exception, parseMembers (plain strtod) (fuel + 1) true built parser =
      .error (.thrown exception) := by
  rcases expect_plain strtod .valueString parser with ⟨_, met⟩ | ⟨_, exception, thrown⟩
  · rcases dead with token | token <;> rw [token] at met <;> cases met
  · exact ⟨exception, by rw [parseMembers, bind_error thrown]⟩

/-- The fuel that lasts for what is left of a text. -/
structure Adequate (strtod : Chars → UInt64) (fuel : Nat) : Prop where
  internal : ∀ parser : Parser Unit, parser.errored = false →
    2 * parser.lexer.left.length + 3 ≤ fuel →
    Halts parser.lexer.left.length (parseInternal (plain strtod) fuel true parser)
  elements : ∀ (parser : Parser Unit) built, parser.errored = false →
    2 * parser.lexer.left.length + 4 ≤ fuel →
    Halts parser.lexer.left.length (parseElements (plain strtod) fuel true built parser)
  members : ∀ (parser : Parser Unit) built, parser.errored = false →
    2 * parser.lexer.left.length + 4 ≤ fuel →
    Halts parser.lexer.left.length (parseMembers (plain strtod) fuel true built parser)

/-- Less of the text left is no more of it left. -/
theorem Halts.mono {α : Type} {size size' : Nat} {result : Except Failure (α × Parser Unit)}
    (halts : Halts size result) (le : size ≤ size') : Halts size' result :=
  ⟨halts.1, fun value after run => (halts.2 value after run).trans le⟩

/-- A plain parser keeps a container behind its loop. -/
theorem endLoop_plain (event : ParseEvent) (ended : Bool × BasicJson) (parser : Parser Unit) :
    endLoop (plain strtod) event true ended parser = .ok (ended.2, parser) := by
  unfold endLoop
  split <;> rfl

/-- The end of a container takes nothing from the text. -/
theorem Halts.endLoop {size : Nat} {event : ParseEvent} {parser : Parser Unit}
    {code : Parsing Unit (Bool × BasicJson)} (halts : Halts size (code parser)) :
    Halts size ((code >>= endLoop (plain strtod) event true) parser) := by
  -- The loop has not run out of fuel, so it has thrown or ended.
  cases run : code parser with
  | error failure =>
    cases failure with
    | thrown => exact halts_thrown (bind_error run)
    | outOfFuel => exact absurd run halts.1
  | ok ended =>
    exact halts_ok ((bind_ok run).trans (endLoop_plain event _ _)) (halts.2 _ _ run)

/-- The fuel for a value, if it lasts for what is inside. -/
theorem adequate_internal {fuel : Nat} (ih : Adequate strtod fuel) {parser : Parser Unit}
    (fine : parser.errored = false) (enough : 2 * parser.lexer.left.length + 3 ≤ fuel + 1) :
    Halts parser.lexer.left.length (parseInternal (plain strtod) (fuel + 1) true parser) := by
  by_cases array : parser.lastToken = .beginArray
  · rw [parseInternal_array array]
    split
    · rename_i closed
      -- Behind the bracket there is less of the text, or the closing one could not be there.
      rcases dead_or_shorter strtod parser with dead | shorter
      · rcases dead with token | token <;> cases token.symm.trans closed
      · exact halts_ok rfl shorter.le
    · apply Halts.endLoop
      rcases dead_or_shorter strtod parser with dead | shorter
      · -- With no token behind the bracket the loop throws at once.
        obtain ⟨less, rfl⟩ : ∃ less, fuel = less + 2 := ⟨fuel - 2, by omega⟩
        obtain ⟨_, thrown⟩ := dead_elements strtod dead less (.array [])
        exact halts_thrown thrown
      · -- Otherwise the bracket has paid for the call of the loop.
        exact (ih.elements (parser.next (plain strtod)) _ fine (by omega)).mono shorter.le
  by_cases object : parser.lastToken = .beginObject
  · rw [parseInternal_object object]
    split
    · rename_i closed
      rcases dead_or_shorter strtod parser with dead | shorter
      · rcases dead with token | token <;> cases token.symm.trans closed
      · exact halts_ok rfl shorter.le
    · apply Halts.endLoop
      rcases dead_or_shorter strtod parser with dead | shorter
      · obtain ⟨less, rfl⟩ : ∃ less, fuel = less + 1 := ⟨fuel - 1, by omega⟩
        obtain ⟨_, thrown⟩ := dead_members strtod dead less (.object [])
        exact halts_thrown thrown
      · exact (ih.members (parser.next (plain strtod)) _ fine (by omega)).mono shorter.le
  · rw [parseInternal_scalar array object]
    rcases parseScalar_plain strtod parser with ⟨_, _, _, _, run⟩ | ⟨_, _, _, thrown⟩
    · exact halts_ok run (le_refl _)
    · exact halts_thrown thrown

/-- What follows an element or a member, by the code for the next round. -/
theorem halts_round {type : TokenType} {size : Nat} {grown : BasicJson} {after : Parser Unit}
    {again : Parsing Unit (Bool × BasicJson)} (short : after.lexer.left.length ≤ size)
    (closing : type ≠ .parseError ∧ type ≠ .endOfInput)
    (dead : ∀ parser, Dead parser → ∃ exception, again parser = .error (.thrown exception))
    (goes : ∀ parser : Parser Unit, parser.errored = after.errored →
      parser.lexer.left.length + 2 ≤ size → Halts parser.lexer.left.length (again parser)) :
    Halts size
      (if (after.next (plain strtod)).lastToken = .valueSeparator then
        again ((after.next (plain strtod)).next (plain strtod))
      else (expect (plain strtod) type >>= fun met => pure (met, grown))
        (after.next (plain strtod))) := by
  have shorter {parser : Parser Unit} (alive : ¬Dead (parser.next (plain strtod))) :=
    (dead_or_shorter strtod parser).resolve_left alive
  split
  · rename_i comma
    -- The comma was read, so it has taken something from the text.
    have first := @shorter after (by rintro (token | token) <;> cases token.symm.trans comma)
    by_cases ended : Dead ((after.next (plain strtod)).next (plain strtod))
    · obtain ⟨_, thrown⟩ := dead _ ended
      exact halts_thrown thrown
    · -- With the token behind it two bytes are gone, which pays for the next round.
      have second := shorter ended
      exact (goes ((after.next (plain strtod)).next (plain strtod)) rfl (by omega)).mono (by omega)
  · rcases expect_plain strtod type (after.next (plain strtod)) with ⟨met, kind⟩ | ⟨_, _, thrown⟩
    · -- The bracket was read.
      refine halts_ok (bind_ok met) ((shorter ?_).le.trans short)
      rintro (token | token) <;> rw [token] at kind
      · exact closing.1 kind.symm
      · exact closing.2 kind.symm
    · exact halts_thrown (bind_error thrown)

/-- The fuel for elements, if it lasts for what is inside. -/
theorem adequate_elements {fuel : Nat} (ih : Adequate strtod fuel) {parser : Parser Unit}
    {built : BasicJson} (fine : parser.errored = false)
    (enough : 2 * parser.lexer.left.length + 4 ≤ fuel + 1) :
    Halts parser.lexer.left.length (parseElements (plain strtod) (fuel + 1) true built parser) := by
  -- The element is read with the fuel of the round, less one.
  have halts := ih.internal parser fine (by omega)
  cases run : parseInternal (plain strtod) fuel true parser with
  | error failure =>
    cases failure with
    | thrown exception => exact halts_thrown (by rw [parseElements, bind_error run])
    | outOfFuel => exact absurd run halts.1
  | ok ended =>
    have unharmed := errored_of_ok run fine
    rw [parseElements_of_run run unharmed]
    refine halts_round (halts.2 _ _ run) ⟨by simp, by simp⟩ ?_ ?_
    · intro parser dead
      obtain ⟨less, rfl⟩ : ∃ less, fuel = less + 2 := ⟨fuel - 2, by omega⟩
      exact dead_elements strtod dead less _
    · intro parser same shorter
      exact ih.elements parser _ (same.trans unharmed) (by omega)

/-- The fuel for members, if it lasts for what is inside. -/
theorem adequate_members {fuel : Nat} (ih : Adequate strtod fuel) {parser : Parser Unit}
    {built : BasicJson} (fine : parser.errored = false)
    (enough : 2 * parser.lexer.left.length + 4 ≤ fuel + 1) :
    Halts parser.lexer.left.length (parseMembers (plain strtod) (fuel + 1) true built parser) := by
  rcases key_or_thrown strtod fuel built parser with ⟨key, name, colon⟩ | ⟨_, thrown⟩
  swap
  · exact halts_thrown thrown
  -- The colon was taken from the text, and so is what comes next unless the parser is dead there.
  have first := (dead_or_shorter strtod parser).resolve_left
    (by rintro (token | token) <;> cases token.symm.trans colon)
  rcases dead_or_shorter strtod (parser.next (plain strtod)) with dead | second
  · obtain ⟨less, rfl⟩ : ∃ less, fuel = less + 1 := ⟨fuel - 1, by omega⟩
    obtain ⟨_, thrown⟩ := dead_internal strtod dead less
    exact halts_thrown (parseMembers_of_error name rfl colon thrown)
  -- The value is read behind two tokens.
  have halts := ih.internal ((parser.next (plain strtod)).next (plain strtod)) fine (by omega)
  cases run : parseInternal (plain strtod) fuel true
      ((parser.next (plain strtod)).next (plain strtod)) with
  | error failure =>
    cases failure with
    | thrown exception => exact halts_thrown (parseMembers_of_error name rfl colon run)
    | outOfFuel => exact absurd run halts.1
  | ok ended =>
    have unharmed := errored_of_ok run fine
    rw [parseMembers_of_run name rfl colon run unharmed]
    have short := halts.2 _ _ run
    refine halts_round (by omega) ⟨by simp, by simp⟩ ?_ ?_
    · intro parser dead
      obtain ⟨less, rfl⟩ : ∃ less, fuel = less + 1 := ⟨fuel - 1, by omega⟩
      exact dead_members strtod dead less _
    · intro parser same shorter
      exact ih.members parser _ (same.trans unharmed) (by omega)

/-- The fuel lasts for every text it was reckoned for. -/
theorem adequate (strtod : Chars → UInt64) (fuel : Nat) : Adequate strtod fuel := by
  -- The induction is on the fuel, for all that it is enough for.
  induction fuel with
  | zero => exact ⟨fun _ _ _ => by omega, fun _ _ _ _ => by omega, fun _ _ _ _ => by omega⟩
  | succ fuel ih =>
    exact ⟨fun _ fine enough => adequate_internal ih fine enough,
      fun _ _ fine enough => adequate_elements ih fine enough,
      fun _ _ fine enough => adequate_members ih fine enough⟩

end Parser

end LinuxPro.Json
