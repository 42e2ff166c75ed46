import LinuxPro.Json.Value
import LinuxPro.Lib.Loop
import LinuxPro.Lib.Utf8

/-! The class `lexer`: the tokens of a JSON text. -/

namespace LinuxPro.Json

/-- `token_type` -/
inductive TokenType where
  | uninitialized | literalTrue | literalFalse | literalNull | valueString | valueUnsigned
  | valueInteger | valueFloat | beginArray | beginObject | endArray | endObject | nameSeparator
  | valueSeparator | parseError | endOfInput | literalOrValue
  deriving DecidableEq, Repr

/-- `token_type_name` -/
def tokenTypeName : TokenType → Chars
  | .uninitialized => Chars.ofString "<uninitialized>"
  | .literalTrue => Chars.ofString "true literal"
  | .literalFalse => Chars.ofString "false literal"
  | .literalNull => Chars.ofString "null literal"
  | .valueString => Chars.ofString "string literal"
  | .valueUnsigned | .valueInteger | .valueFloat => Chars.ofString "number literal"
  | .beginArray => Chars.ofString "'['"
  | .beginObject => Chars.ofString "'\x7b'"
  | .endArray => Chars.ofString "']'"
  | .endObject => Chars.ofString "'\x7d'"
  | .nameSeparator => Chars.ofString "':'"
  | .valueSeparator => Chars.ofString "','"
  | .parseError => Chars.ofString "<parse error>"
  | .endOfInput => Chars.ofString "end of input"
  | .literalOrValue => Chars.ofString "'[', '\x7b', or a literal"

/-- A token with the value that the lexer keeps for it. -/
inductive Token where
  | uninitialized
  | literalTrue
  | literalFalse
  | literalNull
  | valueString (text : Chars)
  | valueUnsigned (value : UInt64)
  | valueInteger (value : Int64)
  | valueFloat (bits : UInt64)
  | beginArray
  | beginObject
  | endArray
  | endObject
  | nameSeparator
  | valueSeparator
  | parseError
  | endOfInput
  deriving DecidableEq

/-- The type of a token, which is all that `scan` returns. -/
def Token.type : Token → TokenType
  | .uninitialized => .uninitialized
  | .literalTrue => .literalTrue
  | .literalFalse => .literalFalse
  | .literalNull => .literalNull
  | .valueString _ => .valueString
  | .valueUnsigned _ => .valueUnsigned
  | .valueInteger _ => .valueInteger
  | .valueFloat _ => .valueFloat
  | .beginArray => .beginArray
  | .beginObject => .beginObject
  | .endArray => .endArray
  | .endObject => .endObject
  | .nameSeparator => .nameSeparator
  | .valueSeparator => .valueSeparator
  | .parseError => .parseError
  | .endOfInput => .endOfInput

/-- The state of a lexer. -/
structure Lexer where
  /-- The bytes that its adapter has not given yet. -/
  left : Chars
  /-- The character read last, or none at the end of the input. -/
  current : Option UInt8 := none
  charsRead : Nat := 0
  tokenString : Chars := []
  yytext : Chars := []
  errorMessage : Chars := []

namespace Lexer

/-- `get` -/
def get (lexer : Lexer) : Lexer :=
  match lexer.left with
  -- At the end only the count goes on, and nothing is added to the token.
  | [] => { lexer with current := none, charsRead := lexer.charsRead + 1 }
  | byte :: rest =>
    { lexer with
      left := rest, current := some byte, charsRead := lexer.charsRead + 1
      tokenString := lexer.tokenString ++ [byte] }

/-- `unget` -/
def unget (lexer : Lexer) : Lexer :=
  match lexer.current with
  -- The end of the input is no byte to be given back.
  | none => { lexer with charsRead := lexer.charsRead - 1 }
  | some byte =>
    { lexer with
      left := byte :: lexer.left, charsRead := lexer.charsRead - 1
      tokenString := lexer.tokenString.dropLast }

/-- `add` -/
def add (lexer : Lexer) (byte : UInt8) : Lexer := { lexer with yytext := lexer.yytext ++ [byte] }

/-- Several calls of `add`. -/
def addAll (lexer : Lexer) (bytes : Chars) : Lexer := { lexer with yytext := lexer.yytext ++ bytes }

/-- `reset`, which both scanners call on a character. -/
def reset (lexer : Lexer) : Lexer :=
  { lexer with yytext := [], tokenString := lexer.current.toList }

/-- A scanner sets `error_message` and returns `parse_error`. -/
def fail (lexer : Lexer) (message : String) : Token × Lexer :=
  (.parseError, { lexer with errorMessage := Chars.ofString message })

/-- An upper-case hexadecimal digit. -/
def upperHexDigit (value : UInt8) : UInt8 := if value < 10 then 48 + value else 55 + value

/-- `get_token_string`, which writes control characters by their number. -/
def getTokenString (lexer : Lexer) : Chars :=
  lexer.tokenString.flatMap fun byte =>
    -- The number has two digits behind the zeros, as it is below 32.
    if byte ≤ 0x1f then
      Chars.ofString "<U+00" ++ [upperHexDigit (byte / 16), upperHexDigit (byte % 16)] ++
        Chars.ofString ">"
    else [byte]

/-- The value of a hexadecimal digit in `get_codepoint`. -/
def hexValue (byte : UInt8) : Option Nat :=
  if 0x30 ≤ byte ∧ byte ≤ 0x39 then some (byte.toNat - 0x30)
  else if 0x41 ≤ byte ∧ byte ≤ 0x46 then some (byte.toNat - 0x37)
  else if 0x61 ≤ byte ∧ byte ≤ 0x66 then some (byte.toNat - 0x57)
  else none

/-- The loop of `get_codepoint` over its factors. -/
def addDigits : List Nat → Nat → Lexer → Option Nat × Lexer
  | [], codepoint, lexer => (some codepoint, lexer)
  | factor :: factors, codepoint, lexer =>
    match lexer.get.current.bind hexValue with
    -- The digits come with the factors 12, 8, 4 and 0.
    | some digit => addDigits factors (codepoint + digit <<< factor) lexer.get
    | none => (none, lexer.get)

/-- `get_codepoint`, which gives none for -1. -/
def getCodepoint (lexer : Lexer) : Option Nat × Lexer := addDigits [12, 8, 4, 0] 0 lexer

/-- The loop of `next_byte_in_range`. -/
def addInRange : List (Nat × Nat) → Lexer → Bool × Lexer
  | [], lexer => (true, lexer)
  | range :: ranges, lexer =>
    match lexer.get.current with
    | some byte =>
      -- Only a byte in its range is added to the text.
      if Utf8.InRange byte range then addInRange ranges (lexer.get.add byte)
      else (false, lexer.get)
    | none => (false, lexer.get)

/-- The part of `scan_string` for the bytes of a character outside ASCII, by its switch. -/
def scanCharacter (lead : UInt8) (lexer : Lexer) : Round Lexer (Token × Lexer) :=
  match Utf8.tails lead with
  | none => .leave (lexer.fail "invalid string: ill-formed UTF-8 byte")
  | some ranges =>
    match addInRange ranges (lexer.add lead) with
    | (true, lexer) => .again lexer
    | (false, lexer) => .leave (lexer.fail "invalid string: ill-formed UTF-8 byte")

/-- The part of `scan_string` behind a high surrogate. -/
def scanLowSurrogate (codepoint1 : Nat) (lexer : Lexer) : Round Lexer (Token × Lexer) :=
  if lexer.get.current = some 0x5c then -- a backslash
    if lexer.get.get.current = some 0x75 then -- u
      match getCodepoint lexer.get.get with
      | (none, lexer) =>
        .leave (lexer.fail "invalid string: '\\u' must be followed by 4 hex digits")
      | (some codepoint2, lexer) =>
        -- The number taken away is that of both surrogates, without the 65536.
        if 0xdc00 ≤ codepoint2 ∧ codepoint2 ≤ 0xdfff then
          .again (lexer.addAll (Utf8.encode (codepoint1 <<< 10 + codepoint2 - 0x35fdc00)))
        else
          .leave (lexer.fail
            "invalid string: surrogate U+DC00..U+DFFF must be followed by U+DC00..U+DFFF")
    else
      .leave (lexer.get.get.fail
        "invalid string: surrogate U+DC00..U+DFFF must be followed by U+DC00..U+DFFF")
  else
    .leave (lexer.get.fail
      "invalid string: surrogate U+DC00..U+DFFF must be followed by U+DC00..U+DFFF")

/-- The part of `scan_string` behind the beginning of a Unicode escape. -/
def scanUnicode (lexer : Lexer) : Round Lexer (Token × Lexer) :=
  match getCodepoint lexer with
  | (none, lexer) => .leave (lexer.fail "invalid string: '\\u' must be followed by 4 hex digits")
  | (some codepoint1, lexer) =>
    if 0xd800 ≤ codepoint1 ∧ codepoint1 ≤ 0xdbff then scanLowSurrogate codepoint1 lexer
    else if 0xdc00 ≤ codepoint1 ∧ codepoint1 ≤ 0xdfff then
      .leave (lexer.fail
        "invalid string: surrogate U+DC00..U+DFFF must follow U+D800..U+DBFF")
    else .again (lexer.addAll (Utf8.encode codepoint1))

/-- The part of `scan_string` behind a backslash. -/
def scanEscape (lexer : Lexer) : Round Lexer (Token × Lexer) :=
  match lexer.get.current with
  | some 0x22 => .again (lexer.get.add 0x22) -- quotation mark
  | some 0x5c => .again (lexer.get.add 0x5c) -- reverse solidus
  | some 0x2f => .again (lexer.get.add 0x2f) -- solidus
  | some 0x62 => .again (lexer.get.add 0x08) -- b: backspace
  | some 0x66 => .again (lexer.get.add 0x0c) -- f: form feed
  | some 0x6e => .again (lexer.get.add 0x0a) -- n: line feed
  | some 0x72 => .again (lexer.get.add 0x0d) -- r: carriage return
  | some 0x74 => .again (lexer.get.add 0x09) -- t: tab
  | some 0x75 => scanUnicode lexer.get -- u
  | _ => .leave (lexer.get.fail "invalid string: forbidden character after backslash")

/-- One round of the loop of `scan_string`. -/
def scanStringRound (lexer : Lexer) : Round Lexer (Token × Lexer) :=
  match lexer.get.current with
  | none => .leave (lexer.get.fail "invalid string: missing closing quote")
  | some byte =>
    -- The closing quotation mark is not part of the text.
    if byte.toNat = 0x22 then .leave (.valueString lexer.get.yytext, lexer.get)
    else if byte.toNat = 0x5c then scanEscape lexer.get
    else if byte.toNat ≤ 0x1f then
      .leave (lexer.get.fail "invalid string: control character must be escaped")
    -- The other bytes of ASCII stand for themselves.
    else if byte.toNat ≤ 0x7f then .again (lexer.get.add byte)
    else scanCharacter byte lexer.get

/-! A round that goes on has read at least the byte at its front. -/

/-- Reading leaves no more than there was. -/
theorem length_get_le (lexer : Lexer) : lexer.get.left.length ≤ lexer.left.length := by
  unfold get
  split <;> simp_all

/-- Reading a byte leaves less. -/
theorem length_get_lt {lexer : Lexer} {byte : UInt8} (read : lexer.get.current = some byte) :
    lexer.get.left.length < lexer.left.length := by
  unfold get at read ⊢
  split <;> simp_all

/-- Reading digits leaves no more than there was. -/
theorem length_addDigits_le (factors : List Nat) (codepoint : Nat) (lexer : Lexer) :
    (addDigits factors codepoint lexer).2.left.length ≤ lexer.left.length := by
  induction factors generalizing codepoint lexer with
  | nil => exact le_refl _
  | cons factor factors ih =>
    unfold addDigits
    -- Another digit was read, or the loop has stopped at what is none.
    split
    · exact (ih _ _).trans (length_get_le lexer)
    · exact length_get_le lexer

/-- Reading the rest of a character leaves no more than there was. -/
theorem length_addInRange_le (ranges : List (Nat × Nat)) (lexer : Lexer) :
    (addInRange ranges lexer).2.left.length ≤ lexer.left.length := by
  induction ranges generalizing lexer with
  | nil => exact le_refl _
  | cons range ranges ih =>
    unfold addInRange
    split
    · split
      · exact (ih _).trans (length_get_le lexer)
      · exact length_get_le lexer
    · exact length_get_le lexer

/-- A round over a character leaves no more than there was. -/
theorem length_scanCharacter {lead : UInt8} {lexer next : Lexer}
    (round : scanCharacter lead lexer = .again next) : next.left.length ≤ lexer.left.length := by
  unfold scanCharacter at round
  split at round
  · cases round
  · rename_i ranges _
    -- The bytes behind the first one are read by the loop over the ranges.
    have shorter := length_addInRange_le ranges (lexer.add lead)
    split at round <;> cases round
    simp_all [add]

/-- A round over a surrogate pair leaves no more than there was. -/
theorem length_scanLowSurrogate {codepoint : Nat} {lexer next : Lexer}
    (round : scanLowSurrogate codepoint lexer = .again next) :
    next.left.length ≤ lexer.left.length := by
  -- Two characters and four digits are read.
  have first := length_get_le lexer
  have second := length_get_le lexer.get
  have digits := length_addDigits_le [12, 8, 4, 0] 0 lexer.get.get
  unfold scanLowSurrogate getCodepoint at round
  split_ifs at round
  split at round
  · cases round
  · split_ifs at round
    cases round
    simp_all only [addAll]
    omega

/-- A round over an escape by number leaves no more than there was. -/
theorem length_scanUnicode {lexer next : Lexer} (round : scanUnicode lexer = .again next) :
    next.left.length ≤ lexer.left.length := by
  have digits := length_addDigits_le [12, 8, 4, 0] 0 lexer
  unfold scanUnicode getCodepoint at round
  split at round
  · cases round
  · rename_i read
    rw [read] at digits
    -- A high surrogate is followed by another escape, and a low one has failed.
    split_ifs at round
    · exact (length_scanLowSurrogate round).trans digits
    · cases round
      exact digits

/-- A round over an escape leaves no more than there was. -/
theorem length_scanEscape {lexer next : Lexer} (round : scanEscape lexer = .again next) :
    next.left.length ≤ lexer.left.length := by
  have first := length_get_le lexer
  unfold scanEscape at round
  split at round
  -- Only the escape by number reads on behind its letter.
  case h_9 => exact (length_scanUnicode round).trans first
  case h_10 => cases round
  all_goals
    cases round
    exact first

/-- Every round of `scan_string` that goes on has read a character. -/
theorem scanStringRound_shrinks : Shrinks (fun lexer => lexer.left.length) scanStringRound := by
  intro lexer next round
  unfold scanStringRound at round
  split at round
  · cases round
  · rename_i byte read
    -- The byte that every round reads is what makes it shrink.
    have shorter := length_get_lt read
    split_ifs at round
    · exact (length_scanEscape round).trans_lt shorter
    · cases round
      exact shorter
    · exact (length_scanCharacter round).trans_lt shorter

/-- `scan_string` -/
def scanString (lexer : Lexer) : Token × Lexer := loop scanStringRound_shrinks lexer.reset

/-- The labels of `scan_number`. -/
inductive NumberState where
  | minus | zero | any1 | decimal1 | decimal2 | exponent | sign | any2
  deriving DecidableEq, Repr

/-- What `number_type` can be. -/
inductive NumberType where
  | unsigned | integer | float
  deriving DecidableEq, Repr

/-- A decimal digit. -/
def IsDigit (byte : UInt8) : Prop := 0x30 ≤ byte.toNat ∧ byte.toNat ≤ 0x39

instance (byte : UInt8) : Decidable (IsDigit byte) := inferInstanceAs (Decidable (_ ∧ _))

/-- The letter of an exponent. -/
def IsLetter (byte : UInt8) : Prop := byte = 0x65 ∨ byte = 0x45

instance (byte : UInt8) : Decidable (IsLetter byte) := inferInstanceAs (Decidable (_ ∨ _))

/-- Where `scan_number` goes from a label by the next character, if not to its error or its end. -/
def NumberState.next : NumberState → UInt8 → Option NumberState
  | .minus, byte => if byte = 0x30 then some .zero else if IsDigit byte then some .any1 else none
  -- Behind a leading zero there is no other digit.
  | .zero, byte =>
    if byte = 0x2e then some .decimal1
    else if IsLetter byte then some .exponent
    else none
  | .any1, byte =>
    if IsDigit byte then some .any1
    else if byte = 0x2e then some .decimal1
    else if IsLetter byte then some .exponent
    else none
  | .decimal1, byte => if IsDigit byte then some .decimal2 else none
  | .decimal2, byte =>
    if IsDigit byte then some .decimal2
    else if IsLetter byte then some .exponent
    else none
  | .exponent, byte =>
    if byte = 0x2b ∨ byte = 0x2d then some .sign
    else if IsDigit byte then some .any2
    else none
  | .sign, byte => if IsDigit byte then some .any2 else none
  | .any2, byte => if IsDigit byte then some .any2 else none

/-- The message with which `scan_number` fails at a label where the number cannot end. -/
def NumberState.message : NumberState → Option String
  | .minus => some "invalid number; expected digit after '-'"
  | .decimal1 => some "invalid number; expected digit after '.'"
  | .exponent => some "invalid number; expected '+', '-', or digit after exponent"
  | .sign => some "invalid number; expected digit after exponent sign"
  | .zero | .any1 | .decimal2 | .any2 => none

/-- The assignment to `number_type` behind a label. -/
def NumberState.numberType : NumberState → NumberType → NumberType
  | .minus, _ => .integer
  -- A point or an exponent makes it a double for good.
  | .decimal1, _ | .exponent, _ => .float
  | .zero, type | .any1, type | .decimal2, type | .sign, type | .any2, type => type

/-- The value of a row of digits. -/
def decimal (digits : Chars) : Nat :=
  digits.foldl (fun value digit => 10 * value + (digit.toNat - 0x30)) 0

section Number

variable (strtod : Chars → UInt64)

/-- The end of `scan_number`, where an integer that does not fit becomes a double. -/
def scanNumberDone (type : NumberType) (yytext : Chars) : Token :=
  match type with
  | .unsigned =>
    -- For what is above ULLONG_MAX, strtoull sets errno.
    if decimal yytext < 2 ^ 64 then .valueUnsigned (.ofNat (decimal yytext))
    else .valueFloat (strtod yytext)
  | .integer =>
    -- For what is below LLONG_MIN, strtoll sets errno.
    if decimal yytext.tail ≤ 2 ^ 63 then .valueInteger (.ofInt (-decimal yytext.tail))
    else .valueFloat (strtod yytext)
  | .float => .valueFloat (strtod yytext)

/-- What `scan_number` does at a label where the next character leads nowhere. -/
def scanNumberStop (state : NumberState) (type : NumberType) (lexer : Lexer) : Token × Lexer :=
  match state.message with
  | some message => lexer.fail message
  | none => (scanNumberDone strtod type lexer.yytext, lexer.unget)

/-- What `scan_number` does from one label to the next. -/
def scanNumberRound : NumberState × NumberType × Lexer →
    Round (NumberState × NumberType × Lexer) (Token × Lexer)
  | (state, type, lexer) =>
    match lexer.get.current with
    | none => .leave (scanNumberStop strtod state (state.numberType type) lexer.get)
    | some byte =>
      match state.next byte with
      | some next => .again (next, state.numberType type, lexer.get.add byte)
      | none => .leave (scanNumberStop strtod state (state.numberType type) lexer.get)

/-- Every label of `scan_number` that goes on to another has read a character. -/
theorem scanNumberRound_shrinks :
    Shrinks (fun state => state.2.2.left.length) (scanNumberRound strtod) := by
  rintro ⟨state, type, lexer⟩ next round
  simp only [scanNumberRound] at round
  split at round
  · cases round
  · -- Without a byte the number ends, and with one it may lead to another label.
    rename_i read
    split at round <;> cases round
    exact length_get_lt read

/-- The first switch of `scan_number`; `scan` calls it for no other character. -/
def scanNumberInit (byte : UInt8) : Option NumberState :=
  if byte = 0x2d then some .minus
  else if byte = 0x30 then some .zero
  else if IsDigit byte then some .any1
  else none

/-- `scan_number`, from the label to which its first character leads. -/
def scanNumber (state : NumberState) (byte : UInt8) (lexer : Lexer) : Token × Lexer :=
  loop (scanNumberRound_shrinks strtod) (state, .unsigned, lexer.reset.add byte)

end Number

/-- `scan_literal`, from the second character on. -/
def scanLiteral : Chars → Token → Lexer → Token × Lexer
  | [], returnType, lexer => (returnType, lexer)
  | expected :: literalText, returnType, lexer =>
    if lexer.get.current = some expected then scanLiteral literalText returnType lexer.get
    else lexer.get.fail "invalid literal"

/-- One round of the loop of `scan` over white space. -/
def skipRound (lexer : Lexer) : Round Lexer Lexer :=
  match lexer.get.current with
  -- These are space, tab, line feed and carriage return.
  | some 0x20 | some 0x09 | some 0x0a | some 0x0d => .again lexer.get
  | _ => .leave lexer.get

/-- A round over white space takes a byte. -/
theorem skipRound_shrinks : Shrinks (fun lexer => lexer.left.length) skipRound := by
  intro lexer next round
  unfold skipRound at round
  split at round
  -- The last case is that of all other characters, which leave.
  case h_5 => cases round
  all_goals
    rename_i read
    cases round
    exact length_get_lt read

/-- The part of `scan` behind the white space. -/
def scanToken (strtod : Chars → UInt64) (lexer : Lexer) : Token × Lexer :=
  match lexer.current with
  -- The brackets and separators are tokens of one character.
  | some 0x5b => (.beginArray, lexer)
  | some 0x5d => (.endArray, lexer)
  | some 0x7b => (.beginObject, lexer)
  | some 0x7d => (.endObject, lexer)
  | some 0x3a => (.nameSeparator, lexer)
  | some 0x2c => (.valueSeparator, lexer)
  | some 0x74 => scanLiteral (Chars.ofString "rue") .literalTrue lexer
  | some 0x66 => scanLiteral (Chars.ofString "alse") .literalFalse lexer
  | some 0x6e => scanLiteral (Chars.ofString "ull") .literalNull lexer
  | some 0x22 => scanString lexer
  -- The null byte ends the text of a string literal, and any other text too.
  | some 0 | none => (.endOfInput, lexer)
  | some byte =>
    match scanNumberInit byte with
    | some state => scanNumber strtod state byte lexer
    | none => lexer.fail "invalid literal"

/-- `scan` -/
def scan (strtod : Chars → UInt64) (lexer : Lexer) : Token × Lexer :=
  scanToken strtod (loop skipRound_shrinks lexer)

end Lexer

end LinuxPro.Json
