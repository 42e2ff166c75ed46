import LinuxPro.Json.Scanning
import LinuxPro.Json.Settings

/-! That what a plain parser reads was written there, by the grammar. -/

namespace LinuxPro.Json

namespace Parser

variable {strtod : Chars → UInt64}

section Bind

variable {World α β : Type} {code : Parsing World α} {next : α → Parsing World β}
  {parser after : Parser World} {value : α} {failure : Failure}

/-- Code that looks at its parser first. -/
theorem get_bind (next : Parser World → Parsing World β) (parser : Parser World) :
    (get >>= next) parser = next parser parser := rfl

/-- Code that reads a token first. -/
theorem getToken_bind (settings : Settings World) (next : Unit → Parsing World β)
    (parser : Parser World) :
    (getToken settings >>= next) parser = next () (parser.next settings) := rfl

/-- Code in sequence, if the first part succeeds. -/
theorem bind_ok (run : code parser = .ok (value, after)) :
    (code >>= next) parser = next value after := by
  show (code parser >>= fun ended => next ended.1 ended.2) = _
  rw [run, ok_bind]

/-- Code in sequence, if the first part fails. -/
theorem bind_error (run : code parser = .error failure) :
    (code >>= next) parser = .error failure := by
  show (code parser >>= fun ended => next ended.1 ended.2) = _
  rw [run, error_bind]

/-- Code in sequence that succeeds does so step by step. -/
theorem bind_eq_ok {result : β × Parser World} (run : (code >>= next) parser = .ok result) :
    ∃ value after, code parser = .ok (value, after) ∧ next value after = .ok result := by
  -- A failure of the first part would be one of the whole.
  cases first : code parser with
  | error failure =>
    rw [bind_error first] at run
    cases run
  | ok ended => exact ⟨ended.1, ended.2, rfl, by rw [← run, bind_ok first]⟩

end Bind

/-- A plain parser that expects a token either finds it or throws. -/
theorem expect_plain (strtod : Chars → UInt64) (type : TokenType) (parser : Parser Unit) :
    expect (plain strtod) type parser = .ok (true, parser) ∧ parser.lastToken.type = type ∨
      parser.lastToken.type ≠ type ∧
        ∃ exception, expect (plain strtod) type parser = .error (.thrown exception) := by
  rw [expect_eq]
  -- A plain parser is allowed to throw.
  by_cases met : parser.lastToken.type = type
  · exact .inl ⟨if_pos met, met⟩
  · exact .inr ⟨met, _, by rw [if_neg met]; rfl⟩

/-- What a plain parser makes of a token that is no bracket: a finite value, or an exception. -/
theorem parseScalar_plain (strtod : Chars → UInt64) (parser : Parser Unit) :
    (acceptScalar parser.lastToken = true ∧ ∃ value, parser.lastToken.scalar = some value ∧
      value.IsFinite ∧ parseScalar (plain strtod) true parser = .ok (value, parser)) ∨
    (acceptScalar parser.lastToken = false ∧
      (∀ value, parser.lastToken.scalar = some value → ¬value.IsFinite) ∧
      ∃ exception, parseScalar (plain strtod) true parser = .error (.thrown exception)) := by
  unfold parseScalar
  -- A token that is no value is expected to be another one.
  have unmet (type : TokenType) (other : parser.lastToken.type ≠ type) :
      ∃ exception, (do let _ ← expect (plain strtod) type; return BasicJson.discarded :
        Parsing Unit BasicJson) parser = .error (.thrown exception) := by
    rcases expect_plain strtod type parser with ⟨_, met⟩ | ⟨_, exception, run⟩
    · exact absurd met other
    · exact ⟨exception, bind_error run⟩
  rw [get_bind]
  cases token : parser.lastToken with
  | valueFloat bits =>
    -- A number that is too large is a value of the grammar, but it is refused.
    cases finite : isFinite bits with
    | true => exact .inl ⟨finite, .numberFloat bits, rfl, finite, by simp [finite]; rfl⟩
    | false =>
      refine .inr ⟨finite, ?_, _, by simp [finite, plain]; rfl⟩
      rintro _ ⟨⟩ other
      exact absurd (finite.symm.trans other) Bool.false_ne_true
  | parseError => exact .inr ⟨rfl, by simp [Token.scalar], unmet _ (by simp [token, Token.type])⟩
  | uninitialized => exact .inr ⟨rfl, by simp [Token.scalar], unmet _ (by simp [token, Token.type])⟩
  | beginArray => exact .inr ⟨rfl, by simp [Token.scalar], unmet _ (by simp [token, Token.type])⟩
  | beginObject => exact .inr ⟨rfl, by simp [Token.scalar], unmet _ (by simp [token, Token.type])⟩
  | endArray => exact .inr ⟨rfl, by simp [Token.scalar], unmet _ (by simp [token, Token.type])⟩
  | endObject => exact .inr ⟨rfl, by simp [Token.scalar], unmet _ (by simp [token, Token.type])⟩
  | nameSeparator => exact .inr ⟨rfl, by simp [Token.scalar], unmet _ (by simp [token, Token.type])⟩
  | valueSeparator =>
    exact .inr ⟨rfl, by simp [Token.scalar], unmet _ (by simp [token, Token.type])⟩
  | endOfInput => exact .inr ⟨rfl, by simp [Token.scalar], unmet _ (by simp [token, Token.type])⟩
  | _ => exact .inl ⟨rfl, _, rfl, trivial, rfl⟩

/-- A plain parser at an opening square bracket. -/
theorem parseInternal_array {fuel : Nat} {parser : Parser Unit}
    (opened : parser.lastToken = .beginArray) :
    parseInternal (plain strtod) (fuel + 1) true parser =
      if (parser.next (plain strtod)).lastToken = .endArray then
        .ok (.array [], parser.next (plain strtod))
      else (parseElements (plain strtod) fuel true (.array []) >>=
        endLoop (plain strtod) .arrayEnd true) (parser.next (plain strtod)) := by
  -- Without a callback the start of a container only builds it.
  rw [parseInternal, get_bind, opened]
  show (if (parser.next (plain strtod)).lastToken = .endArray then _ else _ :
    Parsing Unit BasicJson) (parser.next (plain strtod)) = _
  split <;> rfl

/-- A plain parser at an opening curly bracket. -/
theorem parseInternal_object {fuel : Nat} {parser : Parser Unit}
    (opened : parser.lastToken = .beginObject) :
    parseInternal (plain strtod) (fuel + 1) true parser =
      if (parser.next (plain strtod)).lastToken = .endObject then
        .ok (.object [], parser.next (plain strtod))
      else (parseMembers (plain strtod) fuel true (.object []) >>=
        endLoop (plain strtod) .objectEnd true) (parser.next (plain strtod)) := by
  rw [parseInternal, get_bind, opened]
  show (if (parser.next (plain strtod)).lastToken = .endObject then _ else _ :
    Parsing Unit BasicJson) (parser.next (plain strtod)) = _
  split <;> rfl

/-- A plain parser at any other token. -/
theorem parseInternal_scalar {fuel : Nat} {parser : Parser Unit}
    (no_array : parser.lastToken ≠ .beginArray) (no_object : parser.lastToken ≠ .beginObject) :
    parseInternal (plain strtod) (fuel + 1) true parser =
      parseScalar (plain strtod) true parser := by
  rw [parseInternal, get_bind]
  -- The two brackets are excluded, and all other tokens have one case.
  cases token : parser.lastToken <;> first | rfl | simp_all

/-- A plain parser that succeeds has met no error. -/
theorem errored_of_ok {fuel : Nat} {parser after : Parser Unit} {value : BasicJson}
    (run : parseInternal (plain strtod) fuel true parser = .ok (value, after))
    (fine : parser.errored = false) : after.errored = false := by
  -- A plain parser follows itself, and what it follows is unharmed.
  have follows := (followsPlain (plain strtod) fuel).internal true parser parser
    ⟨rfl, rfl, fine, fine⟩
  rw [show parseInternal (plain (plain strtod).strtod) fuel true parser = .ok (value, after)
    from run] at follows
  obtain ⟨_, _, _, _, beside⟩ := follows
  exact beside.unharmed

section Rounds

variable {World : Type} {settings : Settings World} {fuel : Nat} {keep : Bool}
  {built value : BasicJson} {parser after : Parser World}

/-- What an array has become behind an element. -/
def grown (keep : Bool) (built value : BasicJson) : BasicJson :=
  if keep && !value.isDiscarded then built.append value else built

/-- What an object has become behind a member. -/
def joined (keep tag : Bool) (built : BasicJson) (key : Chars) (value : BasicJson) : BasicJson :=
  if keep && tag && !value.isDiscarded then built.emplace key value else built

/-- A parser behind an element of an array. -/
theorem parseElements_of_run
    (run : parseInternal settings fuel keep parser = .ok (value, after))
    (fine : after.errored = false) :
    parseElements settings (fuel + 1) keep built parser =
      if (after.next settings).lastToken = .valueSeparator then
        parseElements settings fuel keep (grown keep built value)
          ((after.next settings).next settings)
      else (expect settings .endArray >>= fun met => pure (met, grown keep built value))
        (after.next settings) := by
  -- No error was met, so that the loop goes on behind the element.
  rw [parseElements, bind_ok run, get_bind, fine]
  show (if (after.next settings).lastToken = .valueSeparator then _ else _ :
    Parsing World (Bool × BasicJson)) (after.next settings) = _
  split <;> rfl

/-- A parser at the value of a member, behind its key and the colon. -/
theorem parseMembers_of_key {key : Chars} {tag : Bool} {asked : Parser World}
    (name : parser.lastToken = .valueString key)
    (told : keepTag settings keep key parser = .ok (tag, asked))
    (separator : (asked.next settings).lastToken = .nameSeparator) :
    parseMembers settings (fuel + 1) keep built parser =
      (parseInternal settings fuel keep >>= fun value => do
        if (← get).errored then return (false, built)
        else
          getToken settings
          if (← get).lastToken = .valueSeparator then
            getToken settings
            parseMembers settings fuel keep (joined keep tag built key value)
          else return (← expect settings .endObject, joined keep tag built key value))
        ((asked.next settings).next settings) := by
  -- Both expectations are met by assumption.
  have met : expect settings .valueString parser = .ok (true, parser) := by
    rw [expect_eq, if_pos (by rw [name]; rfl)]
  have met' : expect settings .nameSeparator (asked.next settings) =
      .ok (true, asked.next settings) := by
    rw [expect_eq, if_pos (by rw [separator]; rfl)]
  rw [parseMembers, bind_ok met, if_pos rfl, get_bind, name,
    bind_ok (show keepTag settings keep (Token.moveString (.valueString key)) parser = _ from told),
    getToken_bind, bind_ok met', if_pos rfl, getToken_bind]
  rfl

/-- A parser behind a member of an object. -/
theorem parseMembers_of_run {key : Chars} {tag : Bool} {asked : Parser World}
    (name : parser.lastToken = .valueString key)
    (told : keepTag settings keep key parser = .ok (tag, asked))
    (separator : (asked.next settings).lastToken = .nameSeparator)
    (run : parseInternal settings fuel keep ((asked.next settings).next settings) =
      .ok (value, after))
    (fine : after.errored = false) :
    parseMembers settings (fuel + 1) keep built parser =
      if (after.next settings).lastToken = .valueSeparator then
        parseMembers settings fuel keep (joined keep tag built key value)
          ((after.next settings).next settings)
      else (expect settings .endObject >>= fun met => pure (met, joined keep tag built key value))
        (after.next settings) := by
  rw [parseMembers_of_key name told separator, bind_ok run, get_bind, fine]
  show (if (after.next settings).lastToken = .valueSeparator then _ else _ :
    Parsing World (Bool × BasicJson)) (after.next settings) = _
  split <;> rfl

/-- A parser whose member has no value. -/
theorem parseMembers_of_error {key : Chars} {tag : Bool} {asked : Parser World} {failure : Failure}
    (name : parser.lastToken = .valueString key)
    (told : keepTag settings keep key parser = .ok (tag, asked))
    (separator : (asked.next settings).lastToken = .nameSeparator)
    (run : parseInternal settings fuel keep ((asked.next settings).next settings) =
      .error failure) :
    parseMembers settings (fuel + 1) keep built parser = .error failure := by
  rw [parseMembers_of_key name told separator, bind_error run]

end Rounds

/-- What a plain parser reads next: nothing it can use, or a token behind white space. -/
theorem next_cases (strtod : Chars → UInt64) (parser : Parser Unit) :
    (parser.next (plain strtod)).lastToken = .parseError ∨
    (parser.next (plain strtod)).lastToken = .endOfInput ∨
    ∃ space text, Blank space ∧ Lexeme strtod text (parser.next (plain strtod)).lastToken ∧
      parser.lexer.left = space ++ (text ++ (parser.next (plain strtod)).lexer.left) := by
  -- The lexer skips white space and then reads one token.
  obtain ⟨space, rest, here, blank, outcome⟩ := Lexer.scan_cases strtod parser.lexer
  rcases outcome with failed | ⟨ended, _⟩ | ⟨text, lexeme, there⟩
  · exact .inl failed
  · exact .inr (.inl ended)
  · exact .inr (.inr ⟨space, text, blank, lexeme, by rw [here, there]; rfl⟩)

/-- A mark that a plain parser reads next stands behind white space. -/
theorem next_mark {parser : Parser Unit} {token : Token} {byte : UInt8}
    (read : (parser.next (plain strtod)).lastToken = token)
    (mark : token.punctuation = some byte) :
    ∃ space, Blank space ∧
      parser.lexer.left = space ++ byte :: (parser.next (plain strtod)).lexer.left := by
  -- An error and the end of the input are no marks.
  subst read
  rcases next_cases strtod parser with failed | ended | ⟨space, text, blank, lexeme, here⟩
  · rw [failed] at mark
    cases mark
  · rw [ended] at mark
    cases mark
  · rw [lexeme.eq_of_punctuation mark] at here
    exact ⟨space, blank, here⟩

/-- Members with the values of their trees. -/
def valuesOf (entries : List (Chars × BasicJson)) : List (Chars × BasicJson) :=
  entries.map fun entry => (entry.1, entry.2.settled)

/-- What a plain parser has read with some fuel was written there. -/
structure Sound (strtod : Chars → UInt64) (fuel : Nat) : Prop where
  internal : ∀ (parser after : Parser Unit) value,
    parseInternal (plain strtod) fuel true (parser.next (plain strtod)) = .ok (value, after) →
    parser.errored = false →
    ∃ space text tree, Blank space ∧ Writes strtod text tree ∧ tree.Every BasicJson.IsFinite ∧
      value = tree.settled ∧ parser.lexer.left = space ++ (text ++ after.lexer.left)
  elements : ∀ (parser after : Parser Unit) before ended,
    parseElements (plain strtod) fuel true (.array before) (parser.next (plain strtod)) =
      .ok (ended, after) →
    parser.errored = false →
    ∃ text trees, WritesElements strtod text trees ∧
      BasicJson.EveryElement BasicJson.IsFinite trees ∧
      ended = (true, .array (before ++ trees.map BasicJson.settled)) ∧
      parser.lexer.left = text ++ after.lexer.left
  members : ∀ (parser after : Parser Unit) before ended,
    parseMembers (plain strtod) fuel true (.object before) (parser.next (plain strtod)) =
      .ok (ended, after) →
    parser.errored = false →
    ∃ text entries, WritesMembers strtod text entries ∧
      BasicJson.EveryMember BasicJson.IsFinite entries ∧
      ended = (true, .object ((valuesOf entries).foldl
        (fun built entry => SortedMap.insert entry.1 entry.2 built) before)) ∧
      parser.lexer.left = text ++ after.lexer.left

/-- The closing bracket that ends a loop. -/
theorem ended_of_expect {type : TokenType} (token : Token) {built : BasicJson}
    {parser after : Parser Unit} {ended : Bool × BasicJson}
    (kind : ∀ other : Token, other.type = type → other = token)
    (run : (expect (plain strtod) type >>= fun met => pure (met, built)) parser =
      .ok (ended, after)) :
    parser.lastToken = token ∧ ended = (true, built) ∧ after = parser := by
  -- A plain parser that goes on has found what it expected.
  rcases expect_plain strtod type parser with ⟨met, found⟩ | ⟨_, exception, unmet⟩
  · rw [bind_ok met] at run
    cases run
    exact ⟨kind _ found, rfl, rfl⟩
  · rw [bind_error unmet] at run
    cases run

/-- A value that was read is one of the grammar, if those inside it are. -/
theorem sound_internal {fuel : Nat} (ih : Sound strtod fuel) {parser after : Parser Unit}
    {value : BasicJson} (fine : parser.errored = false)
    (run : parseInternal (plain strtod) (fuel + 1) true (parser.next (plain strtod)) =
      .ok (value, after)) :
    ∃ space text tree, Blank space ∧ Writes strtod text tree ∧ tree.Every BasicJson.IsFinite ∧
      value = tree.settled ∧ parser.lexer.left = space ++ (text ++ after.lexer.left) := by
  -- The first token tells the kind of value.
  by_cases array : (parser.next (plain strtod)).lastToken = .beginArray
  · obtain ⟨space, blank, here⟩ := next_mark array rfl
    rw [parseInternal_array array] at run
    split at run
    · -- The closing bracket follows at once.
      rename_i closed
      obtain ⟨inner, blank', there⟩ := next_mark closed rfl
      cases run
      refine ⟨space, _, _, blank, .emptyArray blank', ⟨trivial, trivial⟩, by simp, ?_⟩
      rw [here, there]
      simp
    · -- The elements were read up to the bracket, and nothing is asked at the end.
      obtain ⟨ended, middle, loop, finish⟩ := bind_eq_ok run
      obtain ⟨text, trees, elements, finite, rfl, there⟩ := ih.elements _ _ _ _ loop fine
      cases finish
      exact ⟨space, _, _, blank, .array elements, ⟨trivial, finite⟩, by simp,
        by rw [here, there]; rfl⟩
  by_cases object : (parser.next (plain strtod)).lastToken = .beginObject
  · obtain ⟨space, blank, here⟩ := next_mark object rfl
    rw [parseInternal_object object] at run
    split at run
    · rename_i closed
      obtain ⟨inner, blank', there⟩ := next_mark closed rfl
      cases run
      refine ⟨space, _, _, blank, .emptyObject blank', ⟨trivial, trivial⟩, by simp, ?_⟩
      rw [here, there]
      simp
    · obtain ⟨ended, middle, loop, finish⟩ := bind_eq_ok run
      obtain ⟨text, entries, members, finite, rfl, there⟩ := ih.members _ _ _ _ loop fine
      cases finish
      refine ⟨space, _, _, blank, .object members, ⟨trivial, finite⟩, ?_, by rw [here, there]; rfl⟩
      -- The members were inserted one by one, so that the first of each key stayed.
      rw [SortedMap.foldl_insert_eq_firsts, BasicJson.settled_object, valuesOf]
  · -- Any other value is a token of its own.
    rw [parseInternal_scalar array object] at run
    rcases parseScalar_plain strtod (parser.next (plain strtod)) with
      ⟨_, result, known, finite, ran⟩ | ⟨_, _, exception, failed⟩
    · cases ran.symm.trans run
      rcases next_cases strtod parser with failed | ended |
        ⟨space, text, blank, lexeme, here⟩
      · rw [failed] at known
        cases known
      · rw [ended] at known
        cases known
      · obtain written := lexeme.isScalar known
        refine ⟨space, text, value, blank, .scalar written, ?_, written.settled.symm, here⟩
        exact written.every finite
    · cases failed.symm.trans run

/-- Elements that were read are those of the grammar, if the values inside them are. -/
theorem sound_elements {fuel : Nat} (ih : Sound strtod fuel) {parser after : Parser Unit}
    {before : List BasicJson} {ended : Bool × BasicJson} (fine : parser.errored = false)
    (run : parseElements (plain strtod) (fuel + 1) true (.array before)
      (parser.next (plain strtod)) = .ok (ended, after)) :
    ∃ text trees, WritesElements strtod text trees ∧
      BasicJson.EveryElement BasicJson.IsFinite trees ∧
      ended = (true, .array (before ++ trees.map BasicJson.settled)) ∧
      parser.lexer.left = text ++ after.lexer.left := by
  obtain ⟨value, middle, first, _⟩ := bind_eq_ok (by rwa [parseElements] at run)
  obtain ⟨space, text, tree, blank, writes, finite, rfl, here⟩ := ih.internal _ _ _ first fine
  have unharmed := errored_of_ok first fine
  -- The value of a tree is there, so it was added to the array.
  have built : grown true (.array before) tree.settled = .array (before ++ [tree.settled]) := by
    rw [grown, writes.kept.here.settled]
    rfl
  rw [parseElements_of_run first unharmed, built] at run
  split at run
  · rename_i comma
    -- Behind a comma there are more elements, by what is known for less fuel.
    obtain ⟨behind, blank', there⟩ := next_mark comma rfl
    obtain ⟨rest, trees, later, finite', rfl, left⟩ := ih.elements _ _ _ _ run unharmed
    refine ⟨_, tree :: trees, .cons blank writes blank' later, ⟨finite, finite'⟩, by simp, ?_⟩
    rw [here, there, left]
    simp
  · -- Otherwise the bracket was expected, and found.
    obtain ⟨closed, rfl, rfl⟩ := ended_of_expect .endArray
      (by intro other kind; cases other <;> first | rfl | cases kind) run
    obtain ⟨behind, blank', there⟩ := next_mark closed rfl
    refine ⟨_, [tree], .last blank writes blank', ⟨finite, trivial⟩, rfl, ?_⟩
    rw [here, there]
    simp

/-- A round of the loop over members finds a key and a colon or throws. -/
theorem key_or_thrown (strtod : Chars → UInt64) (fuel : Nat) (built : BasicJson)
    (parser : Parser Unit) :
    (∃ key, parser.lastToken = .valueString key ∧
      (parser.next (plain strtod)).lastToken = .nameSeparator) ∨
    ∃ exception, parseMembers (plain strtod) (fuel + 1) true built parser =
      .error (.thrown exception) := by
  rw [parseMembers]
  rcases expect_plain strtod .valueString parser with ⟨met, name⟩ | ⟨_, exception, unmet⟩
  · -- A string token holds the key.
    obtain ⟨key, name⟩ : ∃ key, parser.lastToken = .valueString key := by
      cases token : parser.lastToken <;> simp_all [Token.type]
    rw [bind_ok met, if_pos rfl, get_bind,
      bind_ok (rfl : keepTag (plain strtod) true _ parser = .ok (true, parser)), getToken_bind]
    rcases expect_plain strtod .nameSeparator (parser.next (plain strtod)) with
      ⟨met, colon⟩ | ⟨_, exception, unmet⟩
    · refine .inl ⟨key, name, ?_⟩
      cases token : (parser.next (plain strtod)).lastToken <;> simp_all [Token.type]
    · exact .inr ⟨exception, bind_error unmet⟩
  · exact .inr ⟨exception, bind_error unmet⟩

/-- A round of the loop over members that succeeds has read a key, a colon and a value. -/
theorem member_of_ok {fuel : Nat} {built : BasicJson} {parser : Parser Unit}
    {result : (Bool × BasicJson) × Parser Unit}
    (run : parseMembers (plain strtod) (fuel + 1) true built parser = .ok result) :
    ∃ key value after, parser.lastToken = .valueString key ∧
      (parser.next (plain strtod)).lastToken = .nameSeparator ∧
      parseInternal (plain strtod) fuel true ((parser.next (plain strtod)).next (plain strtod)) =
        .ok (value, after) := by
  rcases key_or_thrown strtod fuel built parser with ⟨key, name, colon⟩ | ⟨_, thrown⟩
  · -- A failure of the value would be one of the round.
    cases first : parseInternal (plain strtod) fuel true
        ((parser.next (plain strtod)).next (plain strtod)) with
    | error failure => cases (parseMembers_of_error name rfl colon first).symm.trans run
    | ok ended => exact ⟨key, ended.1, ended.2, name, colon, rfl⟩
  · cases thrown.symm.trans run

/-- Members that were read are those of the grammar, if the values inside them are. -/
theorem sound_members {fuel : Nat} (ih : Sound strtod fuel) {parser after : Parser Unit}
    {before : List (Chars × BasicJson)} {ended : Bool × BasicJson} (fine : parser.errored = false)
    (run : parseMembers (plain strtod) (fuel + 1) true (.object before)
      (parser.next (plain strtod)) = .ok (ended, after)) :
    ∃ text entries, WritesMembers strtod text entries ∧
      BasicJson.EveryMember BasicJson.IsFinite entries ∧
      ended = (true, .object ((valuesOf entries).foldl
        (fun built entry => SortedMap.insert entry.1 entry.2 built) before)) ∧
      parser.lexer.left = text ++ after.lexer.left := by
  obtain ⟨key, value, middle, name, colon, first⟩ := member_of_ok run
  -- The key and the colon behind it were read first.
  obtain ⟨space, inside, chars, blank, spelled, rfl, start⟩ : ∃ space inside chars, Blank space ∧
      SpellsAll inside chars ∧ key = Utf8.bytes chars ∧ parser.lexer.left = space ++
        (0x22 :: (inside ++ [0x22]) ++ (parser.next (plain strtod)).lexer.left) := by
    rcases next_cases strtod parser with failed | ended | ⟨space, text, blank, lexeme, here⟩
    · cases failed.symm.trans name
    · cases ended.symm.trans name
    · obtain ⟨inside, chars, equal, spelled, rfl⟩ := lexeme.string_of_type (by rw [name]; rfl)
      cases equal.symm.trans name
      exact ⟨space, inside, chars, blank, spelled, rfl, here⟩
  obtain ⟨between, blank', there⟩ := next_mark colon rfl
  obtain ⟨gap, word, tree, blank'', writes, finite, rfl, here⟩ := ih.internal _ _ _ first fine
  -- The parts of a member stand in the order in which they were read.
  have member := WritesMember.mk blank spelled blank' blank'' writes
  have unharmed := errored_of_ok first fine
  have built : joined true true (.object before) (Utf8.bytes chars) tree.settled =
      .object (SortedMap.insert (Utf8.bytes chars) tree.settled before) := by
    rw [joined, writes.kept.here.settled]
    rfl
  rw [parseMembers_of_run name rfl colon first unharmed, built] at run
  split at run
  · rename_i comma
    -- From here on it is as for elements.
    obtain ⟨behind, blank', after_value⟩ := next_mark comma rfl
    obtain ⟨rest, entries, later, finite', rfl, left⟩ := ih.members _ _ _ _ run unharmed
    refine ⟨_, (_, tree) :: entries, .cons member blank' later, ⟨finite, finite'⟩, rfl, ?_⟩
    rw [start, there, here, after_value, left]
    simp
  · obtain ⟨closed, rfl, rfl⟩ := ended_of_expect .endObject
      (by intro other kind; cases other <;> first | rfl | cases kind) run
    obtain ⟨behind, blank', after_value⟩ := next_mark closed rfl
    refine ⟨_, [(_, tree)], .last member blank', ⟨finite, trivial⟩, rfl, ?_⟩
    rw [start, there, here, after_value]
    simp

/-- Whatever a plain parser reads was written there. -/
theorem sound (strtod : Chars → UInt64) (fuel : Nat) : Sound strtod fuel := by
  -- Without fuel nothing is read, so there is nothing to show.
  induction fuel with
  | zero =>
    exact ⟨fun _ _ _ run => (by cases run), fun _ _ _ _ run => (by cases run),
      fun _ _ _ _ run => (by cases run)⟩
  | succ fuel ih =>
    exact ⟨fun _ _ _ run fine => sound_internal ih fine run,
      fun _ _ _ _ run fine => sound_elements ih fine run,
      fun _ _ _ _ run fine => sound_members ih fine run⟩

end Parser

end LinuxPro.Json
