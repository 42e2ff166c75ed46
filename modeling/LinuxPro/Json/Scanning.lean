import LinuxPro.Json.Numeral

/-! That `scan` reads the tokens of the grammar and nothing else. -/

namespace LinuxPro.Json

open Lexer

/-- The text of a token: a mark, or the text of a value that has no others inside it. -/
inductive Lexeme (strtod : Chars → UInt64) : Chars → Token → Prop where
  | beginArray : Lexeme strtod [0x5b] .beginArray
  | endArray : Lexeme strtod [0x5d] .endArray
  | beginObject : Lexeme strtod [0x7b] .beginObject
  | endObject : Lexeme strtod [0x7d] .endObject
  | nameSeparator : Lexeme strtod [0x3a] .nameSeparator
  | valueSeparator : Lexeme strtod [0x2c] .valueSeparator
  | scalar {text : Chars} {token : Token} {value : BasicJson} (written : IsScalar strtod text value)
      (known : token.scalar = some value) : Lexeme strtod text token

/-- A value is that of one token only. -/
theorem Token.scalar_inj {token other : Token} {value : BasicJson}
    (known : token.scalar = some value) (known' : other.scalar = some value) : token = other := by
  -- Of each kind of value there is one kind of token.
  cases token <;> cases known <;> cases other <;> cases known' <;> rfl

/-- Every value without others inside it is that of a token. -/
theorem IsScalar.exists_token {strtod : Chars → UInt64} {text : Chars} {value : BasicJson}
    (written : IsScalar strtod text value) : ∃ token : Token, token.scalar = some value := by
  cases written with
  | literalNull => exact ⟨.literalNull, rfl⟩
  | literalTrue => exact ⟨.literalTrue, rfl⟩
  | literalFalse => exact ⟨.literalFalse, rfl⟩
  | string => exact ⟨.valueString _, rfl⟩
  | number number =>
    obtain ⟨type, _, known⟩ := isNumber_iff.mp number
    exact ⟨_, known⟩

/-- A number has a value for its token. -/
theorem scanNumberDone_scalar (strtod : Chars → UInt64) (type : NumberType) (text : Chars) :
    ∃ value, (scanNumberDone strtod type text).scalar = some value := by
  unfold scanNumberDone
  -- Each of the three number types ends with a number token.
  split
  · split <;> exact ⟨_, rfl⟩
  · split <;> exact ⟨_, rfl⟩
  · exact ⟨_, rfl⟩

/-- The text of a token does not start with white space. -/
theorem Lexeme.starts {strtod : Chars → UInt64} {text : Chars} {token : Token}
    (lexeme : Lexeme strtod text token) : ∃ byte rest, text = byte :: rest ∧ ¬IsSpace byte := by
  cases lexeme with
  | scalar written =>
    cases written with
    | number number =>
      -- A number starts with a digit or a sign.
      obtain ⟨_, number, _⟩ := isNumber_iff.mp number
      cases number with
      | unsigned digits =>
        obtain ⟨digit, rest, rfl, isDigit⟩ := digits.starts
        refine ⟨digit, _, rfl, ?_⟩
        rintro (rfl | rfl | rfl | rfl) <;> exact absurd isDigit (by decide)
      | negative => exact ⟨0x2d, _, rfl, by decide⟩
    | _ => exact ⟨_, _, rfl, by decide⟩
  | _ => exact ⟨_, _, rfl, by decide⟩

/-- The byte of a token that consists of one. -/
def Token.punctuation : Token → Option UInt8
  | .beginArray => some 0x5b
  | .endArray => some 0x5d
  | .beginObject => some 0x7b
  | .endObject => some 0x7d
  | .nameSeparator => some 0x3a
  | .valueSeparator => some 0x2c
  | _ => none

/-- The byte of a mark is its text. -/
theorem Lexeme.of_punctuation {strtod : Chars → UInt64} {token : Token} {byte : UInt8}
    (mark : token.punctuation = some byte) : Lexeme strtod [byte] token := by
  cases token <;> cases mark <;> constructor

/-- A mark has no other text than its byte. -/
theorem Lexeme.eq_of_punctuation {strtod : Chars → UInt64} {text : Chars} {token : Token}
    {byte : UInt8} (lexeme : Lexeme strtod text token) (mark : token.punctuation = some byte) :
    text = [byte] := by
  cases lexeme with
  -- No token of a value is a mark.
  | scalar _ known => cases token <;> cases mark <;> cases known
  | _ =>
    cases mark
    rfl

/-- The text of a token that is a value is that of the value. -/
theorem Lexeme.isScalar {strtod : Chars → UInt64} {text : Chars} {token : Token}
    {value : BasicJson} (lexeme : Lexeme strtod text token) (known : token.scalar = some value) :
    IsScalar strtod text value := by
  cases lexeme with
  | scalar written known' =>
    cases known.symm.trans known'
    exact written
  | _ => cases known

/-- The text of a string token. -/
theorem Lexeme.string_of_type {strtod : Chars → UInt64} {text : Chars} {token : Token}
    (lexeme : Lexeme strtod text token) (kind : token.type = .valueString) :
    ∃ inside chars, token = .valueString (Utf8.bytes chars) ∧ SpellsAll inside chars ∧
      text = 0x22 :: (inside ++ [0x22]) := by
  cases lexeme with
  | scalar written known =>
    -- A token of this type holds a text.
    obtain ⟨bytes, rfl⟩ : ∃ bytes, token = .valueString bytes := by
      cases token <;> cases kind
      exact ⟨_, rfl⟩
    cases known
    cases written with
    | @string inside chars spelled => exact ⟨inside, chars, rfl, spelled, rfl⟩
    -- A number has no string for its value.
    | number number => cases number
  | _ => cases kind

/-- Nothing at the front of a text could prolong a number. -/
def Delimited (text : Chars) : Prop :=
  ∀ byte ∈ text.head?, ¬IsDigit byte ∧ ¬IsLetter byte ∧ byte ≠ 0x2e ∧ byte ≠ 0x2b ∧ byte ≠ 0x2d

/-- What may stand behind a number ends it in every state. -/
theorem Delimited.stops {text : Chars} (delimited : Delimited text) (state : NumberState) :
    text.head?.bind state.next = none := by
  cases head : text.head? with
  | none => rfl
  | some byte =>
    obtain ⟨digit, letter, point, plus, minus⟩ := delimited byte head
    -- The zero is one of the digits, though it is tested alone.
    have zero : byte ≠ 0x30 := by
      rintro rfl
      exact digit (by decide)
    rw [Option.bind_some]
    cases state <;> simp [NumberState.next, digit, letter, point, plus, minus, zero]

namespace Lexer

variable (strtod : Chars → UInt64)

/-- The loop of `scan` reads past white space to the next byte. -/
theorem loop_skip {lexer : Lexer} {space : Chars} {rest : Chars}
    (blank : ∀ byte ∈ space, IsSpace byte) (stops : ∀ byte ∈ rest.head?, ¬IsSpace byte)
    (here : lexer.left = space ++ rest) :
    loop skipRound_shrinks lexer = (lexer.reads space.length).get := by
  -- The induction is over the white space, as the loop takes one byte of it a round.
  induction space generalizing lexer with
  | nil =>
    apply loop_leave
    have read : lexer.get.current = rest.head? := by simp [here]
    unfold skipRound
    split
    -- The first four cases would be white space.
    case h_5 => rfl
    all_goals
      rename_i byte
      exact absurd (by decide) (stops _ (read.symm.trans byte))
  | cons byte space ih =>
    obtain ⟨first, blank⟩ := List.forall_mem_cons.mp blank
    have read : lexer.get.current = some byte := by simp [here]
    have round : skipRound lexer = .again lexer.get := by
      unfold skipRound
      rw [read]
      rcases first with rfl | rfl | rfl | rfl <;> rfl
    rw [loop_again _ round, ih blank (by simp [here])]
    rfl

/-- Every text is white space followed by something else. -/
theorem exists_space (text : Chars) : ∃ space rest, text = space ++ rest ∧
    (∀ byte ∈ space, IsSpace byte) ∧ ∀ byte ∈ rest.head?, ¬IsSpace byte := by
  refine ⟨text.takeWhile (IsSpace ·), text.dropWhile (IsSpace ·), ?_, ?_, ?_⟩
  · rw [List.takeWhile_append_dropWhile]
  · intro byte member
    simpa using List.mem_takeWhile_imp member
  · intro byte head
    -- The first byte that is not dropped is no white space.
    have stopped := List.head?_dropWhile_not (fun byte : UInt8 => decide (IsSpace byte)) text
    rw [Option.mem_def.mp head] at stopped
    simpa using stopped

/-- A literal that is there is read to its end. -/
theorem scanLiteral_of_left {literal rest : Chars} {token : Token} {lexer : Lexer}
    (here : lexer.left = literal ++ rest) :
    scanLiteral literal token lexer = (token, lexer.reads literal.length) := by
  induction literal generalizing lexer with
  | nil => rfl
  | cons byte literal ih =>
    rw [scanLiteral, if_pos (by simp [here]), ih (by simp [here])]
    rfl

/-- What `scan_literal` gives is an error or the token of a literal that is there. -/
theorem scanLiteral_cases (literal : Chars) (token : Token) (lexer : Lexer) :
    (scanLiteral literal token lexer).1 = .parseError ∨
      ∃ rest, lexer.left = literal ++ rest ∧
        scanLiteral literal token lexer = (token, lexer.reads literal.length) := by
  induction literal generalizing lexer with
  | nil => exact .inr ⟨lexer.left, rfl, rfl⟩
  | cons byte literal ih =>
    rw [scanLiteral]
    -- A byte that differs from the literal is an error.
    split
    · rename_i read
      refine (ih lexer.get).imp_right ?_
      rintro ⟨rest, here, run⟩
      exact ⟨rest, by rw [get_current_eq_some.mp read, here]; rfl, run⟩
    · exact .inl rfl

/-- A character that starts a number is handed to `scan_number`. -/
theorem scanToken_number {byte : UInt8} {state : NumberState} {lexer : Lexer}
    (starts : scanNumberInit byte = some state) (read : lexer.current = some byte) :
    scanToken strtod lexer = scanNumber strtod state byte lexer := by
  unfold scanToken
  rw [read]
  split
  -- No number starts with a character that has a case of its own.
  case h_13 =>
    rename_i equal
    cases equal
    rw [starts]
  all_goals
    rename_i equal
    cases equal <;> cases starts

/-- A value without others inside it is read at the front of the text. -/
theorem scanToken_scalar {lexer : Lexer} {text rest : Chars} {token : Token} {value : BasicJson}
    (written : IsScalar strtod text value) (known : token.scalar = some value)
    (separated : ∀ value, IsNumber strtod text value → Delimited rest)
    (here : lexer.left = text ++ rest) :
    (scanToken strtod lexer.get).1 = token ∧ (scanToken strtod lexer.get).2.left = rest := by
  -- The three literals are recognized by their first letter.
  have literal (byte : UInt8) (word : Chars) {token : Token} (equal : text = byte :: word)
      (goes : lexer.get.current = some byte →
        scanToken strtod lexer.get = scanLiteral word token lexer.get) :
      (scanToken strtod lexer.get).1 = token ∧ (scanToken strtod lexer.get).2.left = rest := by
    subst equal
    rw [goes (by simp [here]), @scanLiteral_of_left word rest token lexer.get (by simp [here])]
    exact ⟨rfl, by simp [here]⟩
  cases written with
  | literalTrue =>
    cases Token.scalar_inj known (rfl : Token.literalTrue.scalar = _)
    exact literal 0x74 (Chars.ofString "rue") rfl fun read => by simp only [scanToken, read]
  | literalFalse =>
    cases Token.scalar_inj known (rfl : Token.literalFalse.scalar = _)
    exact literal 0x66 (Chars.ofString "alse") rfl fun read => by simp only [scanToken, read]
  | literalNull =>
    cases Token.scalar_inj known (rfl : Token.literalNull.scalar = _)
    exact literal 0x6e (Chars.ofString "ull") rfl fun read => by simp only [scanToken, read]
  | @string text chars spelled =>
    cases Token.scalar_inj known (rfl : (Token.valueString (Utf8.bytes chars)).scalar = _)
    have read : lexer.get.current = some 0x22 := by simp [here]
    -- Behind the opening quotation mark the loop starts with an empty text.
    have start : lexer.get.reset.left = text ++ 0x22 :: rest := by simp [reset, here]
    simp only [scanToken, read, scanString, loop_spelled spelled start]
    simp [reset, here]
  | number number =>
    -- What follows the number does not prolong it, so the scanner stops where it ends.
    have delimited := separated value number
    obtain ⟨type, number, converted⟩ := isNumber_iff.mp number
    cases Token.scalar_inj known converted
    obtain ⟨byte, word, rfl⟩ := List.exists_cons_of_ne_nil number.ne_nil
    have read : lexer.get.current = some byte := by simp [here]
    have there : lexer.get.left = word ++ rest := by simp [here]
    obtain ⟨state, starts, run⟩ := scanNumber_of_numberText strtod number there delimited.stops
    rw [scanToken_number strtod starts read]
    exact run

/-- A token at the front of the text is read, a number only where it ends. -/
theorem scanToken_lexeme {lexer : Lexer} {text rest : Chars} {token : Token}
    (lexeme : Lexeme strtod text token)
    (separated : ∀ value, IsNumber strtod text value → Delimited rest)
    (here : lexer.left = text ++ rest) :
    (scanToken strtod lexer.get).1 = token ∧ (scanToken strtod lexer.get).2.left = rest := by
  cases lexeme with
  | scalar written known => exact scanToken_scalar strtod written known separated here
  | _ => simp [scanToken, here]

/-- What `scan` gives behind white space is an error, the end or a token that is there. -/
theorem scanToken_cases (lexer : Lexer) :
    (scanToken strtod lexer.get).1 = .parseError ∨
    (scanToken strtod lexer.get).1 = .endOfInput ∧ lexer.left.headD 0 = 0 ∨
    ∃ text, Lexeme strtod text (scanToken strtod lexer.get).1 ∧
      lexer.left = text ++ (scanToken strtod lexer.get).2.left := by
  -- A literal is there as a whole, or it is an error.
  have literal {byte : UInt8} {word whole : Chars} {token : Token} (equal : whole = byte :: word)
      (lexeme : Lexeme strtod whole token) (read : lexer.get.current = some byte) :
      (scanLiteral word token lexer.get).1 = .parseError ∨
        (scanLiteral word token lexer.get).1 = .endOfInput ∧ lexer.left.headD 0 = 0 ∨
        ∃ text, Lexeme strtod text (scanLiteral word token lexer.get).1 ∧
          lexer.left = text ++ (scanLiteral word token lexer.get).2.left := by
    rcases scanLiteral_cases word token lexer.get with error | ⟨rest, here, run⟩
    · exact .inl error
    · rw [run]
      refine .inr (.inr ⟨whole, lexeme, ?_⟩)
      rw [get_current_eq_some.mp read, reads_left, here, equal]
      simp
  -- A mark is the one byte that was read.
  have single {byte : UInt8} {token : Token} (lexeme : Lexeme strtod [byte] token)
      (read : lexer.get.current = some byte) :
      ∃ text, Lexeme strtod text token ∧ lexer.left = text ++ lexer.get.left :=
    ⟨[byte], lexeme, get_current_eq_some.mp read⟩
  generalize run : scanToken strtod lexer.get = result
  unfold scanToken at run
  split at run
  case h_1 read => exact run ▸ .inr (.inr (single .beginArray read))
  case h_2 read => exact run ▸ .inr (.inr (single .endArray read))
  case h_3 read => exact run ▸ .inr (.inr (single .beginObject read))
  case h_4 read => exact run ▸ .inr (.inr (single .endObject read))
  case h_5 read => exact run ▸ .inr (.inr (single .nameSeparator read))
  case h_6 read => exact run ▸ .inr (.inr (single .valueSeparator read))
  case h_7 read => exact run ▸ literal rfl (.scalar .literalTrue rfl) read
  case h_8 read => exact run ▸ literal rfl (.scalar .literalFalse rfl) read
  case h_9 read => exact run ▸ literal rfl (.scalar .literalNull rfl) read
  case h_10 read =>
    subst run
    rcases scanString_cases lexer.get with error | ⟨text, chars, rest, spelled, here, run⟩
    · exact .inl error
    · rw [run]
      refine .inr (.inr ⟨_, .scalar (.string spelled) rfl, ?_⟩)
      rw [get_current_eq_some.mp read, here]
      simp [reset, -get_left, here]
  -- A null byte is taken for the end, as is the end itself.
  case h_11 read => exact run ▸ .inr (.inl ⟨rfl, by rw [get_current_eq_some.mp read]; rfl⟩)
  case h_12 read =>
    rw [get_current, List.head?_eq_none_iff] at read
    exact run ▸ .inr (.inl ⟨rfl, by rw [read]; rfl⟩)
  case h_13 read =>
    split at run
    · rename_i state starts
      subst run
      rcases scanNumber_cases strtod lexer.get starts with
        error | ⟨text, rest, final, number, here, token, left⟩
      · exact .inl error
      · rw [token]
        obtain ⟨value, known⟩ := scanNumberDone_scalar strtod final (_ :: text)
        -- What was converted from the text is the value of a number of the grammar.
        have written := isNumber_iff.mpr ⟨final, number, known⟩
        refine .inr (.inr ⟨_, .scalar (.number written) known, ?_⟩)
        rw [get_current_eq_some.mp read, left, here]
        rfl
    · exact run ▸ .inl rfl

/-- What `scan` gives is an error, the end or a token, behind white space. -/
theorem scan_cases (lexer : Lexer) :
    ∃ space rest, lexer.left = space ++ rest ∧ (∀ byte ∈ space, IsSpace byte) ∧
      ((scan strtod lexer).1 = .parseError ∨
        (scan strtod lexer).1 = .endOfInput ∧ rest.headD 0 = 0 ∨
        ∃ text, Lexeme strtod text (scan strtod lexer).1 ∧
          rest = text ++ (scan strtod lexer).2.left) := by
  obtain ⟨space, rest, here, blank, stops⟩ := exists_space lexer.left
  refine ⟨space, rest, here, blank, ?_⟩
  -- Behind the white space the lexer is in front of the token.
  have there : (lexer.reads space.length).left = rest := by simp [here]
  rw [scan, loop_skip blank stops here, ← there]
  exact scanToken_cases strtod (lexer.reads space.length)

/-- A token behind white space is read, a number only where it ends. -/
theorem scan_lexeme {lexer : Lexer} {space text rest : Chars} {token : Token}
    (blank : ∀ byte ∈ space, IsSpace byte) (lexeme : Lexeme strtod text token)
    (separated : ∀ value, IsNumber strtod text value → Delimited rest)
    (here : lexer.left = space ++ (text ++ rest)) :
    (scan strtod lexer).1 = token ∧ (scan strtod lexer).2.left = rest := by
  obtain ⟨byte, word, rfl, visible⟩ := lexeme.starts
  rw [scan, loop_skip blank (by simpa using visible) here]
  exact scanToken_lexeme strtod lexeme separated (by simp [here])

/-- At the end of the text, or at a null byte behind white space, there is no further token. -/
theorem scan_end {lexer : Lexer} {space rest : Chars} (blank : ∀ byte ∈ space, IsSpace byte)
    (ends : rest.headD 0 = 0) (here : lexer.left = space ++ rest) :
    (scan strtod lexer).1 = .endOfInput := by
  -- Neither the end nor a null byte is white space.
  have stops : ∀ byte ∈ rest.head?, ¬IsSpace byte := by
    intro byte head
    rw [List.headD_eq_head?_getD, Option.mem_def.mp head] at ends
    cases ends
    decide
  rw [scan, loop_skip blank stops here]
  have read : (lexer.reads space.length).get.current = rest.head? := by simp [here]
  unfold scanToken
  rw [read]
  cases rest with
  | nil => rfl
  | cons byte rest =>
    cases ends
    rfl

end Lexer

end LinuxPro.Json
