import LinuxPro.Json.Acceptance
import LinuxPro.Json.Fuel

/-! What `parse` and `accept` make of a text as a whole. -/

namespace LinuxPro.Json

namespace Parser

variable {strtod : Chars → UInt64}

/-- How `accept` ends when `parse` ends in a certain way: with yes or no, but never by throwing. -/
def Mirrors {α : Type} (one : Except Failure (α × Parser Unit))
    (other : Except Failure (Bool × Parser Unit)) : Prop :=
  match one with
  | .ok (_, parser) => other = .ok (true, parser)
  | .error (.thrown _) => ∃ parser, other = .ok (false, parser)
  | .error .outOfFuel => other = .error .outOfFuel

/-- A text that is refused by both. -/
theorem mirrors_thrown {α : Type} {one : Except Failure (α × Parser Unit)}
    {other : Except Failure (Bool × Parser Unit)} {exception : Exception} {parser : Parser Unit}
    (thrown : one = .error (.thrown exception)) (refused : other = .ok (false, parser)) :
    Mirrors one other := by
  subst thrown
  exact ⟨parser, refused⟩

/-- The three functions of `accept` mirror those of `parse`, with the same fuel. -/
structure MirrorsParse (strtod : Chars → UInt64) (fuel : Nat) : Prop where
  internal : ∀ parser : Parser Unit, parser.errored = false →
    Mirrors (parseInternal (plain strtod) fuel true parser)
      (acceptInternal (plain strtod) fuel parser)
  elements : ∀ (parser : Parser Unit) built, parser.errored = false →
    Mirrors (parseElements (plain strtod) fuel true built parser)
      (acceptElements (plain strtod) fuel parser)
  members : ∀ (parser : Parser Unit) built, parser.errored = false →
    Mirrors (parseMembers (plain strtod) fuel true built parser)
      (acceptMembers (plain strtod) fuel parser)

/-- A container that is kept behind its loop. -/
theorem Mirrors.endLoop {event : ParseEvent} {parser : Parser Unit}
    {code : Parsing Unit (Bool × BasicJson)} {other : Except Failure (Bool × Parser Unit)}
    (mirrors : Mirrors (code parser) other) :
    Mirrors ((code >>= endLoop (plain strtod) event true) parser) other := by
  -- The end of a container is never refused without a callback.
  cases run : code parser with
  | error failure =>
    rw [bind_error run]
    rw [run] at mirrors
    cases failure <;> exact mirrors
  | ok ended =>
    rw [run] at mirrors
    rw [bind_ok run, endLoop_plain]
    exact mirrors

/-- A token that is no bracket is accepted or not. -/
theorem acceptInternal_scalar {fuel : Nat} {parser : Parser Unit}
    (no_array : parser.lastToken ≠ .beginArray) (no_object : parser.lastToken ≠ .beginObject) :
    acceptInternal (plain strtod) (fuel + 1) parser =
      .ok (acceptScalar parser.lastToken, parser) := by
  rw [acceptInternal, get_bind]
  cases token : parser.lastToken with
  | beginArray => exact absurd token no_array
  | beginObject => exact absurd token no_object
  | _ => rfl

/-- A value, if what is inside is mirrored. -/
theorem mirrors_internal {fuel : Nat} (ih : MirrorsParse strtod fuel) {parser : Parser Unit}
    (fine : parser.errored = false) :
    Mirrors (parseInternal (plain strtod) (fuel + 1) true parser)
      (acceptInternal (plain strtod) (fuel + 1) parser) := by
  -- Both look at the first token, and go on alike.
  by_cases array : parser.lastToken = .beginArray
  · rw [parseInternal_array array, acceptInternal, get_bind, array]
    show Mirrors _ ((if (parser.next (plain strtod)).lastToken = .endArray then _ else _ :
      Parsing Unit Bool) (parser.next (plain strtod)))
    split
    · rfl
    · exact (ih.elements (parser.next (plain strtod)) (.array []) fine).endLoop
  by_cases object : parser.lastToken = .beginObject
  · rw [parseInternal_object object, acceptInternal, get_bind, object]
    show Mirrors _ ((if (parser.next (plain strtod)).lastToken = .endObject then _ else _ :
      Parsing Unit Bool) (parser.next (plain strtod)))
    split
    · rfl
    · exact (ih.members (parser.next (plain strtod)) (.object []) fine).endLoop
  · rw [parseInternal_scalar array object, acceptInternal_scalar array object]
    -- Here `parse` returns or throws, and `accept` says yes or no.
    rcases parseScalar_plain strtod parser with ⟨yes, _, _, _, run⟩ | ⟨no, _, _, thrown⟩
    · rw [run, yes]
      rfl
    · rw [no]
      exact mirrors_thrown thrown rfl

/-- The end of a round, by the code for the next one. -/
theorem mirrors_round (token : Token) {type : TokenType} {grown : BasicJson} {after : Parser Unit}
    {again : Parsing Unit (Bool × BasicJson)} {again' : Parsing Unit Bool}
    (kind : ∀ other : Token, other.type = type ↔ other = token)
    (goes : Mirrors (again ((after.next (plain strtod)).next (plain strtod)))
      (again' ((after.next (plain strtod)).next (plain strtod)))) :
    Mirrors
      (if (after.next (plain strtod)).lastToken = .valueSeparator then
        again ((after.next (plain strtod)).next (plain strtod))
      else (expect (plain strtod) type >>= fun met => pure (met, grown))
        (after.next (plain strtod)))
      ((do
        getToken (plain strtod)
        if (← get).lastToken = .valueSeparator then
          getToken (plain strtod)
          again'
        else return (← get).lastToken = token : Parsing Unit Bool) after) := by
  show Mirrors _ ((if (after.next (plain strtod)).lastToken = .valueSeparator then _ else _ :
    Parsing Unit Bool) (after.next (plain strtod)))
  split
  · exact goes
  · show Mirrors _ (.ok (decide ((after.next (plain strtod)).lastToken = token),
      after.next (plain strtod)))
    -- Where the bracket is missing, one of them throws and the other says no.
    rcases expect_plain strtod type (after.next (plain strtod)) with ⟨met, found⟩ | ⟨other, _, thrown⟩
    · rw [bind_ok met, decide_eq_true ((kind _).mp found)]
      rfl
    · rw [decide_eq_false fun equal => other ((kind _).mpr equal)]
      exact mirrors_thrown (bind_error thrown) rfl

/-- Elements, if what is inside is mirrored. -/
theorem mirrors_elements {fuel : Nat} (ih : MirrorsParse strtod fuel) {parser : Parser Unit}
    (built : BasicJson) (fine : parser.errored = false) :
    Mirrors (parseElements (plain strtod) (fuel + 1) true built parser)
      (acceptElements (plain strtod) (fuel + 1) parser) := by
  have value := ih.internal parser fine
  rw [acceptElements]
  -- What `accept` says of the element is what became of it in `parse`.
  cases run : parseInternal (plain strtod) fuel true parser with
  | error failure =>
    rw [run] at value
    rw [parseElements, bind_error run]
    cases failure with
    | thrown exception =>
      obtain ⟨after, refused⟩ := value
      exact ⟨after, by rw [bind_ok refused]; rfl⟩
    | outOfFuel => exact bind_error value
  | ok ended =>
    rw [run] at value
    have unharmed := errored_of_ok run fine
    rw [parseElements_of_run run unharmed, bind_ok value, if_pos rfl]
    refine mirrors_round .endArray (fun other => by cases other <;> simp [Token.type]) ?_
    exact ih.elements _ _ unharmed

/-- Members, if what is inside is mirrored. -/
theorem mirrors_members {fuel : Nat} (ih : MirrorsParse strtod fuel) {parser : Parser Unit}
    (built : BasicJson) (fine : parser.errored = false) :
    Mirrors (parseMembers (plain strtod) (fuel + 1) true built parser)
      (acceptMembers (plain strtod) (fuel + 1) parser) := by
  have start := key_or_thrown strtod fuel built parser
  rw [acceptMembers, get_bind]
  by_cases name : parser.lastToken.type = .valueString
  swap
  · -- There is no key.
    obtain ⟨_, thrown⟩ := start.resolve_left fun ⟨key, named, _⟩ => name (by rw [named]; rfl)
    rw [if_pos name]
    exact mirrors_thrown thrown rfl
  rw [if_neg (not_not.mpr name), getToken_bind, get_bind]
  by_cases colon : (parser.next (plain strtod)).lastToken = .nameSeparator
  swap
  · -- There is no colon behind the key.
    obtain ⟨_, thrown⟩ := start.resolve_left fun ⟨_, _, named⟩ => colon named
    rw [if_pos colon]
    exact mirrors_thrown thrown rfl
  rw [if_neg (not_not.mpr colon), getToken_bind]
  obtain ⟨key, name⟩ : ∃ key, parser.lastToken = .valueString key := by
    cases token : parser.lastToken <;> simp_all [Token.type]
  -- Behind the key and the colon it is as for elements.
  have value := ih.internal ((parser.next (plain strtod)).next (plain strtod)) fine
  cases run : parseInternal (plain strtod) fuel true
      ((parser.next (plain strtod)).next (plain strtod)) with
  | error failure =>
    rw [run] at value
    rw [parseMembers_of_error name rfl colon run]
    cases failure with
    | thrown exception =>
      obtain ⟨after, refused⟩ := value
      exact ⟨after, by rw [bind_ok refused]; rfl⟩
    | outOfFuel => exact bind_error value
  | ok ended =>
    rw [run] at value
    have unharmed := errored_of_ok run fine
    rw [parseMembers_of_run name rfl colon run unharmed, bind_ok value, if_pos rfl]
    refine mirrors_round .endObject (fun other => by cases other <;> simp [Token.type]) ?_
    exact ih.members _ _ unharmed

/-- `accept` mirrors `parse`, however deep a text is nested. -/
theorem mirrorsParse (strtod : Chars → UInt64) (fuel : Nat) : MirrorsParse strtod fuel := by
  -- Both use up their fuel in the same steps.
  induction fuel with
  | zero => exact ⟨fun _ _ => rfl, fun _ _ _ => rfl, fun _ _ _ => rfl⟩
  | succ fuel ih =>
    exact ⟨fun _ fine => mirrors_internal ih fine, fun _ built fine => mirrors_elements ih built fine,
      fun _ built fine => mirrors_members ih built fine⟩

/-- A plain parser without a value. -/
theorem parse_of_error {fuel : Nat} {parser : Parser Unit} {failure : Failure}
    (run : parseInternal (plain strtod) fuel true (parser.next (plain strtod)) = .error failure) :
    Parser.parse (plain strtod) fuel true parser = .error failure := by
  rw [Parser.parse, getToken_bind, bind_error run]

/-- A plain parser behind its value, which must be all of the text. -/
theorem parse_of_ok {fuel : Nat} {parser after : Parser Unit} {value : BasicJson}
    (run : parseInternal (plain strtod) fuel true (parser.next (plain strtod)) = .ok (value, after))
    (fine : after.errored = false) :
    Parser.parse (plain strtod) fuel true parser =
        .ok (if value.isDiscarded then .null else value, after.next (plain strtod)) ∧
      (after.next (plain strtod)).lastToken = .endOfInput ∨
    (after.next (plain strtod)).lastToken ≠ .endOfInput ∧
      ∃ exception, Parser.parse (plain strtod) fuel true parser = .error (.thrown exception) := by
  rw [Parser.parse, getToken_bind, bind_ok run]
  -- In strict mode the next token has to be the end of the input.
  rcases expect_plain strtod .endOfInput (after.next (plain strtod)) with
    ⟨met, found⟩ | ⟨other, exception, thrown⟩
  · have ends : expectEnd (plain strtod) true after = .ok ((), after.next (plain strtod)) := by
      rw [expectEnd, if_pos rfl, getToken_bind, bind_ok met]
      rfl
    refine .inl ⟨?_, ?_⟩
    · rw [bind_ok ends, get_bind, if_neg (by simp [next, fine])]
      rfl
    · -- Only one token is of this type.
      cases token : (after.next (plain strtod)).lastToken <;> simp_all [Token.type]
  · have fails : expectEnd (plain strtod) true after = .error (.thrown exception) := by
      rw [expectEnd, if_pos rfl, getToken_bind, bind_error thrown]
    exact .inr ⟨fun ended => other (by rw [ended]; rfl), exception, bind_error fails⟩

/-- The end of the text, as the next token sees it. -/
theorem next_end {parser : Parser Unit}
    (ended : (parser.next (plain strtod)).lastToken = .endOfInput) :
    ∃ space rest, parser.lexer.left = space ++ rest ∧ Blank space ∧ rest.headD 0 = 0 := by
  obtain ⟨space, rest, here, blank, outcome⟩ := Lexer.scan_cases strtod parser.lexer
  rcases outcome with failed | ⟨_, null⟩ | ⟨text, lexeme, _⟩
  · cases failed.symm.trans ended
  · exact ⟨space, rest, here, blank, null⟩
  · -- The end of the input has no text of its own.
    rw [show (Lexer.scan strtod parser.lexer).1 = .endOfInput from ended] at lexeme
    cases lexeme with
    | scalar _ known => cases known

end Parser

/-- A value does not start as a byte order mark does. -/
theorem Writes.starts {strtod : Chars → UInt64} {text : Chars} {tree : BasicJson}
    (writes : Writes strtod text tree) : ∃ byte rest, text = byte :: rest ∧ byte ≠ 0xef := by
  cases writes with
  | scalar written =>
    cases written with
    | number number =>
      -- A number starts with a digit or a minus sign, and both are of ASCII.
      obtain ⟨_, number, _⟩ := isNumber_iff.mp number
      cases number with
      | unsigned digits =>
        obtain ⟨digit, rest, rfl, isDigit⟩ := digits.starts
        refine ⟨digit, _, rfl, ?_⟩
        rintro rfl
        exact absurd isDigit (by decide)
      | negative => exact ⟨_, _, rfl, by decide⟩
    | _ => exact ⟨_, _, rfl, by decide⟩
  | _ => exact ⟨_, _, rfl, by decide⟩

/-- The parser takes a byte order mark off, and no text of the grammar starts with one. -/
theorem isDocument_iff {strtod : Chars → UInt64} {text : Chars} {tree : BasicJson} :
    IsDocument strtod text tree ↔ IsText strtod (bufferAdapter text) tree := by
  -- A text that starts with the mark has a body behind it.
  have marked : (0xef :: [0xbb, 0xbf] : Chars).isPrefixOf text = true ↔
      ∃ body, text = [0xef, 0xbb, 0xbf] ++ body := by
    rw [List.isPrefixOf_iff_prefix]
    exact ⟨fun ⟨body, equal⟩ => ⟨body, equal.symm⟩, fun ⟨body, equal⟩ => ⟨body, equal.symm⟩⟩
  constructor
  · rintro ⟨mark, body, rfl, rfl | rfl, isText⟩
    · rw [List.nil_append] at marked ⊢
      rw [bufferAdapter, if_neg ?_]
      · exact isText
      rw [marked]
      rintro ⟨rest, rfl⟩
      -- The mark would have to be white space or the beginning of a value.
      obtain ⟨before, word, behind, last, equal, blank, writes, _⟩ := isText
      cases before with
      | nil =>
        obtain ⟨byte, more, rfl, other⟩ := writes.starts
        exact other (List.cons.inj equal).1.symm
      | cons byte before =>
        have first : (0xef : UInt8) = byte := (List.cons.inj equal).1
        exact absurd (blank 0xef (by simp [first])) (by decide)
    · rw [bufferAdapter, if_pos (marked.mpr ⟨body, rfl⟩)]
      exact isText
  · intro isText
    by_cases front : (0xef :: [0xbb, 0xbf] : Chars).isPrefixOf text = true
    · rw [bufferAdapter, if_pos front] at isText
      obtain ⟨body, rfl⟩ := marked.mp front
      exact ⟨_, body, rfl, .inr rfl, isText⟩
    · rw [bufferAdapter, if_neg front] at isText
      exact ⟨[], text, rfl, .inl rfl, isText⟩

/-- A text of the grammar, all of whose numbers are finite, with its tree. -/
def IsAccepted (strtod : Chars → UInt64) (text : Chars) (tree : BasicJson) : Prop :=
  IsDocument strtod text tree ∧ tree.Every BasicJson.IsFinite

variable (strtod : Chars → UInt64) (text : Chars)

/-- A parser over a text has fuel for all of it. -/
theorem parserFuel_adequate :
    Parser.parseInternal (plain strtod) (parserFuel text) true
      ((parserOf text ()).next (plain strtod)) ≠ .error .outOfFuel := by
  have length : (parserOf text ()).lexer.left.length ≤ text.length := length_bufferAdapter_le text
  -- The first token was taken from the text, or there is none and the parser throws.
  rcases Parser.dead_or_shorter strtod (parserOf text ()) with dead | shorter
  · obtain ⟨_, thrown⟩ := Parser.dead_internal strtod dead (2 * text.length + 2)
    rw [parserFuel, thrown]
    simp
  · refine ((Parser.adequate strtod (parserFuel text)).internal _ rfl ?_).1
    rw [parserFuel]
    omega

/-- The end of a text prolongs no number. -/
theorem separated_of_end {strtod : Chars → UInt64} {word behind rest : Chars}
    (blank : Blank behind) (null : rest.headD 0 = 0) :
    ∀ value, IsNumber strtod word value → Delimited (behind ++ rest) := by
  intro _ _
  -- A null byte does not continue a number either.
  apply delimited_of_blank blank
  intro head member
  rw [List.headD_eq_head?_getD, Option.mem_def.mp member] at null
  cases null
  decide

section Settings

variable {World : Type} (settings : Settings World) (world : World)

/-- A parser with any settings has fuel for all of the text. -/
theorem parserFuel_suffices :
    Parser.parseInternal settings (parserFuel text) true ((parserOf text world).next settings) ≠
      .error .outOfFuel := by
  intro out
  have follows := (Parser.followsPlain settings (parserFuel text)).internal true
    ((parserOf text ()).next (plain settings.strtod)) ((parserOf text world).next settings)
    ⟨rfl, rfl, rfl, rfl⟩
  unfold Parser.Follows at follows
  -- Where a plain parser comes to an end, so does this one.
  split at follows
  · obtain ⟨_, _, run, _⟩ := follows
    cases out.symm.trans run
  · split at follows
    · cases out.symm.trans follows
    · obtain ⟨_, _, run, _⟩ := follows
      cases out.symm.trans run
  · rename_i run
    exact parserFuel_adequate settings.strtod text run

variable {settings} in
/-- Where nothing but white space is left, the check for the end of the text succeeds. -/
theorem expectEnd_of_left {parser : Parser World} {space rest : Chars} (blank : Blank space)
    (null : rest.headD 0 = 0) (left : parser.lexer.left = space ++ rest) :
    Parser.expectEnd settings true parser = .ok ((), parser.next settings) := by
  -- The lexer finds nothing behind the white space.
  have ended : (parser.next settings).lastToken = .endOfInput :=
    Lexer.scan_end settings.strtod blank null left
  have met : Parser.expect settings .endOfInput (parser.next settings) =
      .ok (true, parser.next settings) := by
    rw [Parser.expect_eq, if_pos (by rw [ended]; rfl)]
  rw [Parser.expectEnd, if_pos rfl, Parser.getToken_bind, Parser.bind_ok met]
  rfl

variable {text} in
/-- `parse` gives for a text of the grammar what its callback makes of the tree. -/
theorem parse_of_isAccepted {tree : BasicJson} (accepted : IsAccepted settings.strtod text tree) :
    parse settings world text = .ok (outcome settings.callback tree world) := by
  obtain ⟨isDocument, finite⟩ := accepted
  obtain ⟨before, word, behind, rest, here, blank, writes, blank', null⟩ :=
    isDocument_iff.mp isDocument
  rcases Parser.gives_value writes finite (parserFuel text) (parserOf text world) before
    (behind ++ rest) blank (separated_of_end blank' null) here rfl with out | ⟨after, run, left, fine, same⟩
  · exact absurd out (parserFuel_suffices text settings world)
  · -- The callback has gone through the tree, and is in the state that this has left.
    have told : after.world = (visit settings.callback tree (0, world)).2.2 :=
      congrArg Prod.snd same
    rw [parse, Parser.parse, Parser.getToken_bind, Parser.bind_ok run,
      Parser.bind_ok (expectEnd_of_left blank' null left), Parser.get_bind,
      show (after.next settings).errored = false from fine, outcome, ← told]
    rfl

end Settings

/-- The fuel of a plain `parse` lasts. -/
theorem parse_plain_ne_outOfFuel : parse (plain strtod) () text ≠ .error .outOfFuel := by
  intro out
  -- The value does not run out of fuel, and the check behind it uses none.
  cases run : Parser.parseInternal (plain strtod) (parserFuel text) true
      ((parserOf text ()).next (plain strtod)) with
  | error failure =>
    rw [parse, Parser.parse_of_error run] at out
    cases out
    exact parserFuel_adequate strtod text run
  | ok ended =>
    rcases Parser.parse_of_ok run (Parser.errored_of_ok run rfl) with ⟨ok, _⟩ | ⟨_, _, thrown⟩
    · rw [parse, ok] at out
      cases out
    · rw [parse, thrown] at out
      cases out

variable {strtod text} in
/-- What `parse` gives a value for is a text of the grammar, with that value. -/
theorem isAccepted_of_parse {json : BasicJson}
    (parsed : parse (plain strtod) () text = .ok (json, ())) :
    ∃ tree, IsAccepted strtod text tree ∧ json = tree.settled := by
  cases run : Parser.parseInternal (plain strtod) (parserFuel text) true
      ((parserOf text ()).next (plain strtod)) with
  | error failure =>
    rw [parse, Parser.parse_of_error run] at parsed
    cases parsed
  | ok ended =>
    -- What was read is a value of the grammar behind white space.
    obtain ⟨space, word, tree, blank, writes, finite, value, here⟩ :=
      (Parser.sound strtod (parserFuel text)).internal _ _ _ run rfl
    rcases Parser.parse_of_ok run (Parser.errored_of_ok run rfl) with ⟨ok, stop⟩ | ⟨_, _, thrown⟩
    · rw [parse, ok, value, writes.kept.here.settled] at parsed
      cases parsed
      -- Behind it there was nothing but white space.
      obtain ⟨behind, rest, there, blank', null⟩ := Parser.next_end stop
      refine ⟨tree, ⟨isDocument_iff.mpr ?_, finite⟩, rfl⟩
      exact ⟨space, word, behind, rest, by rw [← there]; exact here, blank, writes, blank', null⟩
    · rw [parse, thrown] at parsed
      cases parsed

variable {strtod text} in
/-- Everything in the tree of a text is there. -/
theorem IsDocument.kept {tree : BasicJson} (isDocument : IsDocument strtod text tree) :
    tree.Every BasicJson.Kept := by
  obtain ⟨_, _, _, _, _, _, _, _, _, _, writes, _⟩ := isDocument
  exact writes.kept

variable {strtod text} in
/-- A text that is accepted is parsed as the value of its tree. -/
theorem parse_settled {tree : BasicJson} (accepted : IsAccepted strtod text tree) :
    parse (plain strtod) () text = .ok (tree.settled, ()) := by
  rw [parse_of_isAccepted (plain strtod) () accepted]
  exact congrArg (fun json => Except.ok (json, ()))
    (accepting_none.outcome tree accepted.1.kept ())

variable {strtod text} in
/-- A number that is not finite makes a text of the grammar fail, whatever else is in it. -/
theorem parse_overflow {tree : BasicJson} (isDocument : IsDocument strtod text tree)
    (infinite : ¬tree.Every BasicJson.IsFinite) :
    ∃ whatArg, parse (plain strtod) () text = .error (.thrown (.outOfRange 406 whatArg)) := by
  obtain ⟨before, word, behind, rest, here, blank, writes, blank', null⟩ :=
    isDocument_iff.mp isDocument
  -- The parser throws at the first such number, before it could find anything else.
  rcases Parser.overflows_value writes infinite (parserFuel text) (parserOf text ()) before
    (behind ++ rest) blank (separated_of_end blank' null) here rfl with out | ⟨whatArg, thrown⟩
  · exact absurd out (parserFuel_adequate strtod text)
  · exact ⟨whatArg, by rw [parse, Parser.parse_of_error thrown]; rfl⟩

/--
`parse` gives a value for exactly the texts of the grammar in which every number is finite. It is
the value of the tree that is written there.
-/
theorem parse_eq_ok_iff (json : BasicJson) :
    parse (plain strtod) () text = .ok (json, ()) ↔
      ∃ tree, IsDocument strtod text tree ∧ tree.Every BasicJson.IsFinite ∧
        json = tree.settled := by
  constructor
  · intro parsed
    obtain ⟨tree, ⟨isDocument, finite⟩, value⟩ := isAccepted_of_parse parsed
    exact ⟨tree, isDocument, finite, value⟩
  · rintro ⟨tree, isDocument, finite, rfl⟩
    exact parse_settled ⟨isDocument, finite⟩

/-- A text of the grammar is refused for nothing but a number that is not finite, with a 406. -/
theorem parse_eq_outOfRange {tree : BasicJson} (isDocument : IsDocument strtod text tree)
    (infinite : ¬tree.Every BasicJson.IsFinite) :
    ∃ whatArg, parse (plain strtod) () text = .error (.thrown (.outOfRange 406 whatArg)) :=
  parse_overflow isDocument infinite

/-- A number that no double can hold. -/
theorem parse_eq_outOfRange_1e400 :
    ∃ whatArg, parse (plain fun _ => infinity) () (Chars.ofString "1e400") =
      .error (.thrown (.outOfRange 406 whatArg)) := by
  have nothing : Blank [] := by simp [Blank]
  have digits : AllDigits [0x34, 0x30, 0x30] := by simp [AllDigits, Lexer.IsDigit]
  have power : IsExponent (Chars.ofString "e400") :=
    .inr ⟨0x65, _, rfl, .inl rfl, [], _, rfl, .inl rfl, List.cons_ne_nil _ _, digits⟩
  have whole : IsWhole (Chars.ofString "1") :=
    .inr ⟨0x31, [], rfl, mem_decimalDigits.mpr (by decide), by decide, by simp [AllDigits]⟩
  have number : IsNumber (fun _ => infinity) (Chars.ofString "1e400") (.numberFloat infinity) :=
    .float (.inl rfl) whole (.inl rfl) power (by decide)
  refine parse_eq_outOfRange _ _ ⟨[], _, rfl, .inl rfl, [], _, [], [], rfl, nothing,
    .scalar (.number number), nothing, rfl⟩ ?_
  simp [BasicJson.Every, BasicJson.IsFinite, isFinite, infinity]

/-- `accept` says yes to exactly the texts that `parse` gives a value for, and never throws. -/
theorem accept_eq :
    ∃ answer, accept strtod text = .ok answer ∧
      (answer = true ↔ ∃ json, parse (plain strtod) () text = .ok (json, ())) := by
  have mirrors := (Parser.mirrorsParse strtod (parserFuel text)).internal
    ((parserOf text ()).next (plain strtod)) rfl
  -- After the first token `accept` runs its own functions.
  have unfolded : accept strtod text = ((do
      if ← Parser.acceptInternal (plain strtod) (parserFuel text) then
        Parser.getToken (plain strtod)
        return (← get).lastToken = Token.endOfInput
      else return false : Parsing Unit Bool) ((parserOf text ()).next (plain strtod))).map
        Prod.fst := rfl
  cases run : Parser.parseInternal (plain strtod) (parserFuel text) true
      ((parserOf text ()).next (plain strtod)) with
  | error failure =>
    rw [run] at mirrors
    cases failure with
    | outOfFuel => exact absurd run (parserFuel_adequate strtod text)
    | thrown exception =>
      obtain ⟨after, refused⟩ := mirrors
      refine ⟨false, ?_, ?_⟩
      · rw [unfolded, Parser.bind_ok refused]
        rfl
      · rw [parse, Parser.parse_of_error run]
        simp [Except.map]
  | ok ended =>
    rw [run] at mirrors
    -- What is left to say is whether the text ends here.
    refine ⟨decide ((ended.2.next (plain strtod)).lastToken = .endOfInput), ?_, ?_⟩
    · rw [unfolded, Parser.bind_ok mirrors]
      rfl
    · rcases Parser.parse_of_ok run (Parser.errored_of_ok run rfl) with
        ⟨ok, stop⟩ | ⟨other, exception, thrown⟩
      · rw [parse, ok, stop]
        simp [Except.map]
      · rw [parse, thrown]
        simp [Except.map, other]

/-- Both check that the text ends. -/
theorem follows_expectEnd {World : Type} {settings : Settings World} {first : Parser Unit}
    {second : Parser World} (beside : first.Beside second) :
    Parser.Follows settings (fun _ _ => True) (fun _ => True)
      (Parser.expectEnd (plain settings.strtod) true first)
      (Parser.expectEnd settings true second) := by
  rw [Parser.expectEnd, Parser.expectEnd, if_pos rfl, if_pos rfl]
  apply Parser.follows_getToken_bind beside
  intro first second beside
  refine (Parser.follows_expect .endOfInput beside).bind ?_ ?_
  · intro _ _ first second _ beside
    exact Parser.follows_pure trivial beside
  · intro _ _ second _ errored
    exact ⟨(), second, rfl, trivial, errored⟩

/-- How a parser with any settings ends, by how a plain one does. -/
theorem follows_parse {World : Type} (settings : Settings World) (world : World) (fuel : Nat) :
    Parser.Follows settings (fun _ _ => True) (fun json' => json' = .discarded)
      (Parser.parse (plain settings.strtod) fuel true (parserOf text ()))
      (Parser.parse settings fuel true (parserOf text world)) := by
  unfold Parser.parse
  -- Both start in front of the same text.
  have beside : (parserOf text ()).Beside (parserOf text world) := ⟨rfl, rfl, rfl, rfl⟩
  apply Parser.follows_getToken_bind beside
  intro first second beside
  refine ((Parser.followsPlain settings fuel).internal true _ _ beside).bind ?_ ?_
  · intro value value' first second _ beside
    refine (follows_expectEnd beside).bind ?_ ?_
    · intro _ _ first second _ beside
      apply Parser.follows_get_bind
      rw [beside.unharmed, beside.fine]
      exact Parser.follows_pure trivial beside
    · intro _ _ second _ errored
      exact ⟨_, second, rfl, by rw [errored]; rfl, errored⟩
  · intro forbidden value' second _ errored
    -- The text behind the error is looked at once more.
    obtain ⟨after, ends, errored⟩ : ∃ after, Parser.expectEnd settings true second = .ok ((), after) ∧
        after.errored = true := by
      rw [Parser.expectEnd, if_pos rfl, Parser.getToken_bind]
      have ran := Parser.expect_eq settings .endOfInput (second.next settings)
      rw [forbidden] at ran
      split at ran
      · exact ⟨second.next settings, by rw [Parser.bind_ok ran]; rfl, errored⟩
      · exact ⟨_, by rw [Parser.bind_ok ran]; rfl, rfl⟩
    exact ⟨_, after, by rw [Parser.bind_ok ends]; rfl, by rw [errored]; rfl, errored⟩

/-- What a text that a plain parser refuses gives with any settings. -/
theorem parse_of_thrown {World : Type} (settings : Settings World) (world : World)
    {exception : Exception}
    (thrown : parse (plain settings.strtod) () text = .error (.thrown exception)) :
    if settings.allowExceptions then parse settings world text = .error (.thrown exception)
    else ∃ world', parse settings world text = .ok (.discarded, world') := by
  have follows := follows_parse text settings world (parserFuel text)
  cases run : Parser.parse (plain settings.strtod) (parserFuel text) true (parserOf text ()) with
  | ok ended =>
    rw [parse, run] at thrown
    cases thrown
  | error failure =>
    rw [parse, run] at thrown
    cases thrown
    rw [run] at follows
    unfold Parser.Follows at follows
    simp only at follows
    split at follows
    · rename_i allowed
      rw [if_pos allowed, parse, follows]
      rfl
    · rename_i forbidden
      -- Without exceptions the error makes the result a discarded value.
      obtain ⟨_, second, ran, rfl, _⟩ := follows
      rw [if_neg forbidden]
      exact ⟨second.world, by rw [parse, ran]; rfl⟩

variable {strtod text} in
/-- A text that is not accepted makes a plain parser throw. -/
theorem thrown_of_not_isAccepted (refused : ¬∃ tree, IsAccepted strtod text tree) :
    ∃ exception, parse (plain strtod) () text = .error (.thrown exception) := by
  -- It gives no value, and it does not run out of fuel.
  cases run : parse (plain strtod) () text with
  | ok ended =>
    obtain ⟨tree, accepted, _⟩ := isAccepted_of_parse run
    exact absurd ⟨tree, accepted⟩ refused
  | error failure =>
    cases failure with
    | outOfFuel => exact absurd run (parse_plain_ne_outOfFuel strtod text)
    | thrown exception => exact ⟨exception, rfl⟩

/--
What a callback and the choice of exceptions change.

The callback goes through the tree of an accepted text, and what it keeps is the result, which is
never a discarded value. If it keeps everything as it is, the result is the value of the tree. A
text that is not accepted throws what it throws without a callback, or gives a discarded value
where exceptions are not allowed.
-/
theorem parse_settings {World : Type} (settings : Settings World) (world : World) :
    (∀ tree, IsAccepted settings.strtod text tree →
      parse settings world text = .ok (outcome settings.callback tree world) ∧
        (outcome settings.callback tree world).1 ≠ .discarded ∧
        (Accepting settings.callback → (outcome settings.callback tree world).1 = tree.settled)) ∧
    ((¬∃ tree, IsAccepted settings.strtod text tree) →
      ∃ exception, parse (plain settings.strtod) () text = .error (.thrown exception) ∧
        if settings.allowExceptions then parse settings world text = .error (.thrown exception)
        else ∃ world', parse settings world text = .ok (.discarded, world')) := by
  constructor
  · intro tree accepted
    exact ⟨parse_of_isAccepted settings world accepted, outcome_ne_discarded _ tree world,
      fun accepting => accepting.outcome tree accepted.1.kept world⟩
  · intro refused
    obtain ⟨exception, thrown⟩ := thrown_of_not_isAccepted refused
    exact ⟨exception, thrown, parse_of_thrown text settings world thrown⟩

/-- A callback that counts its calls and refuses what is true. -/
def countingRefusal : Callback Nat := fun count _ _ value =>
  (match value with | .boolean true => false | _ => true, value, count + 1)

/--
A text with one element that is refused and one that is kept, and the same text without its end.

The callback is called at the start and the end of the array and behind the three values.
-/
theorem parse_settings_counted :
    parse ⟨fun _ => 0, some countingRefusal, true⟩ 0 (Chars.ofString "[true,null]") =
      .ok (.array [.null], 5) ∧
    ∃ world, parse ⟨fun _ => 0, some countingRefusal, false⟩ 0 (Chars.ofString "[true,null") =
      .ok (.discarded, world) := by
  constructor
  · have nothing : Blank [] := by simp [Blank]
    have writes := Writes.array (.cons nothing (.scalar (@IsScalar.literalTrue fun _ => 0)) nothing
      (.last nothing (.scalar (@IsScalar.literalNull fun _ => 0)) nothing))
    -- The tree of the first text has both elements.
    have isText : IsText (fun _ => 0) (Chars.ofString "[true,null]")
        (.array [.boolean true, .null]) :=
      ⟨[], _, [], [], rfl, nothing, writes, nothing, rfl⟩
    have finite : (BasicJson.array [.boolean true, .null]).Every BasicJson.IsFinite := by
      simp [BasicJson.Every, BasicJson.EveryElement, BasicJson.IsFinite]
    obtain ⟨parsed, _⟩ := (parse_settings (Chars.ofString "[true,null]")
      ⟨fun _ => 0, some countingRefusal, true⟩ 0).1 _ ⟨⟨[], _, rfl, .inl rfl, isText⟩, finite⟩
    rw [parsed]
    rfl
  · -- The second text is run through, as there is no tree to be found for it.
    have refused : (parse (plain fun _ => 0) () (Chars.ofString "[true,null")).toBool = false := by
      decide +kernel
    have unaccepted : ¬∃ tree, IsAccepted (fun _ => 0) (Chars.ofString "[true,null") tree := by
      rintro ⟨tree, accepted⟩
      rw [parse_of_isAccepted (plain fun _ => 0) () accepted] at refused
      cases refused
    obtain ⟨_, _, given⟩ := (parse_settings (Chars.ofString "[true,null")
      ⟨fun _ => 0, some countingRefusal, false⟩ 0).2 unaccepted
    exact given

end LinuxPro.Json
