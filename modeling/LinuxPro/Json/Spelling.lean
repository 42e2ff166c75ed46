import LinuxPro.Json.Grammar
import LinuxPro.Json.Lexer

/-! That `scan_string` reads the strings of the grammar and nothing else. -/

namespace LinuxPro.Json

/-- A hexadecimal digit is below 16. -/
theorem IsHexDigit.lt {byte : UInt8} {value : Nat} (digit : IsHexDigit byte value) :
    value < 16 := by
  rcases digit with found | found <;> exact (List.getElem?_eq_some_iff.mp found).1

/-- The digits that `get_codepoint` knows are the hexadecimal ones. -/
theorem hexValue_iff {byte : UInt8} {value : Nat} :
    Lexer.hexValue byte = some value ↔ IsHexDigit byte value := by
  constructor
  · intro hex
    unfold Lexer.hexValue at hex
    simp only [UInt8.le_iff_toNat_le, UInt8.reduceToNat] at hex
    have same : byte = UInt8.ofNat byte.toNat := by simp
    -- The three ranges are the decimal digits, the capital letters and the small ones.
    split_ifs at hex with decimal upper lower <;> cases hex
    all_goals
      generalize byte.toNat = number at *
      subst same
    · obtain ⟨low, high⟩ := decimal
      interval_cases number <;> exact .inl rfl
    · obtain ⟨low, high⟩ := upper
      interval_cases number <;> exact .inr rfl
    · obtain ⟨low, high⟩ := lower
      interval_cases number <;> exact .inl rfl
  · intro digit
    have small := digit.lt
    -- There are sixteen digits in each of the two rows.
    rcases digit with found | found <;> interval_cases value <;> cases found <;> rfl

/-- Four hexadecimal digits that are no surrogate are the number of a character. -/
theorem FourHex.isValidChar {digits : Chars} {codepoint : Nat} (hex : FourHex digits codepoint)
    (apart : codepoint < 0xd800 ∨ 0xdfff < codepoint) : codepoint.isValidChar := by
  obtain ⟨first, second, third, fourth⟩ := hex
  -- Four digits are below 65536, and the surrogates are the only gap there.
  have := first.lt
  have := second.lt
  have := third.lt
  have := fourth.lt
  simp only [Nat.isValidChar]
  omega

/-- Two surrogates are the number of a character. -/
theorem isValidChar_surrogates {high low : Nat} (leading : 0xd800 ≤ high ∧ high ≤ 0xdbff)
    (trailing : 0xdc00 ≤ low ∧ low ≤ 0xdfff) :
    (0x10000 + (high - 0xd800) * 0x400 + (low - 0xdc00)).isValidChar := by
  simp only [Nat.isValidChar]
  omega

namespace Lexer

/-- The byte that is read. -/
@[simp] theorem get_current (lexer : Lexer) : lexer.get.current = lexer.left.head? := by
  unfold get
  cases lexer.left <;> rfl

/-- What is left behind it. -/
@[simp] theorem get_left (lexer : Lexer) : lexer.get.left = lexer.left.tail := by
  unfold get
  cases lexer.left <;> simp

/-- Reading adds nothing to the token. -/
@[simp] theorem get_yytext (lexer : Lexer) : lexer.get.yytext = lexer.yytext := by
  unfold get
  split <;> rfl

/-- Several calls of `get`. -/
def reads (lexer : Lexer) : Nat → Lexer
  | 0 => lexer
  | count + 1 => lexer.get.reads count

/-- What is left behind several bytes. -/
@[simp] theorem reads_left (lexer : Lexer) (count : Nat) :
    (lexer.reads count).left = lexer.left.drop count := by
  induction count generalizing lexer with
  | zero => rfl
  | succ count ih => rw [reads, ih, get_left, List.drop_tail]

/-- Reading several bytes adds nothing to the token. -/
@[simp] theorem reads_yytext (lexer : Lexer) (count : Nat) :
    (lexer.reads count).yytext = lexer.yytext := by
  induction count generalizing lexer with
  | zero => rfl
  | succ count ih => rw [reads, ih, get_yytext]

/-- Bytes are read one after the other. -/
theorem reads_reads (lexer : Lexer) (first second : Nat) :
    (lexer.reads first).reads second = lexer.reads (first + second) := by
  induction first generalizing lexer with
  | zero => rw [reads, Nat.zero_add]
  | succ first ih => rw [reads, ih, Nat.succ_add, reads]

/-- It makes no difference when bytes are added to the token. -/
theorem get_addAll (lexer : Lexer) (bytes : Chars) :
    (lexer.addAll bytes).get = lexer.get.addAll bytes := by
  unfold get addAll
  cases lexer.left <;> rfl

/-- Nor does it for several bytes that are read. -/
theorem reads_addAll (lexer : Lexer) (bytes : Chars) (count : Nat) :
    (lexer.addAll bytes).reads count = (lexer.reads count).addAll bytes := by
  induction count generalizing lexer with
  | zero => rfl
  | succ count ih => rw [reads, reads, get_addAll, ih]

/-- Bytes are added one behind the other. -/
theorem addAll_addAll (lexer : Lexer) (first second : Chars) :
    (lexer.addAll first).addAll second = lexer.addAll (first ++ second) := by
  simp only [addAll, List.append_assoc]

/-- Adding nothing. -/
@[simp] theorem addAll_nil (lexer : Lexer) : lexer.addAll [] = lexer := by
  simp only [addAll, List.append_nil]

/-- Adding to the token reads nothing. -/
@[simp] theorem addAll_left (lexer : Lexer) (bytes : Chars) :
    (lexer.addAll bytes).left = lexer.left := rfl

/-- The token with what was added. -/
@[simp] theorem addAll_yytext (lexer : Lexer) (bytes : Chars) :
    (lexer.addAll bytes).yytext = lexer.yytext ++ bytes := rfl

/-- A byte added before others were read and added. -/
theorem reads_add (lexer : Lexer) (byte : UInt8) (tail : Chars) :
    ((lexer.get.add byte).reads tail.length).addAll tail =
      (lexer.reads (byte :: tail).length).addAll (byte :: tail) := by
  show ((lexer.get.addAll [byte]).reads tail.length).addAll tail = _
  rw [reads_addAll, addAll_addAll]
  rfl

/-- The next byte, if there is one. -/
theorem get_current_eq_some {lexer : Lexer} {byte : UInt8} :
    lexer.get.current = some byte ↔ lexer.left = byte :: lexer.get.left := by
  rw [get_current, get_left]
  cases lexer.left <;> simp [eq_comm]

/-- One digit of `get_codepoint`. -/
theorem addDigits_cons {factor : Nat} {factors : List Nat} {codepoint number : Nat}
    {lexer next : Lexer} :
    addDigits (factor :: factors) codepoint lexer = (some number, next) ↔
      ∃ byte digit, IsHexDigit byte digit ∧ lexer.left = byte :: lexer.get.left ∧
        addDigits factors (codepoint + digit <<< factor) lexer.get = (some number, next) := by
  rw [addDigits]
  constructor
  · intro run
    -- The loop goes on only behind a digit.
    split at run
    · rename_i digit read
      obtain ⟨byte, here, hex⟩ := Option.bind_eq_some_iff.mp read
      exact ⟨byte, digit, hexValue_iff.mp hex, get_current_eq_some.mp here, run⟩
    · cases run
  · rintro ⟨byte, digit, hex, here, run⟩
    rw [get_current_eq_some.mpr here]
    simpa only [Option.bind_some, hexValue_iff.mpr hex] using run

/-- `get_codepoint` reads four digits and gives their number. -/
theorem getCodepoint_iff {lexer next : Lexer} {codepoint : Nat} :
    getCodepoint lexer = (some codepoint, next) ↔
      ∃ digits rest, FourHex digits codepoint ∧ lexer.left = digits ++ rest ∧
        next = lexer.reads digits.length := by
  -- The factors are shifts by four bits each.
  have value (a b c d : Nat) : 0 + a <<< 12 + b <<< 8 + c <<< 4 + d <<< 0 =
      a * 4096 + b * 256 + c * 16 + d := by
    simp only [Nat.shiftLeft_eq]
    omega
  constructor
  · intro run
    obtain ⟨a, first, hex_a, here_a, run⟩ := addDigits_cons.mp run
    obtain ⟨b, second, hex_b, here_b, run⟩ := addDigits_cons.mp run
    obtain ⟨c, third, hex_c, here_c, run⟩ := addDigits_cons.mp run
    obtain ⟨d, fourth, hex_d, here_d, run⟩ := addDigits_cons.mp run
    rw [addDigits, value] at run
    cases run
    refine ⟨[a, b, c, d], lexer.get.get.get.get.left, .mk hex_a hex_b hex_c hex_d, ?_, rfl⟩
    rw [here_a, here_b, here_c, here_d]
    rfl
  · rintro ⟨_, rest, ⟨hex_a, hex_b, hex_c, hex_d⟩, here, rfl⟩
    -- Each call of `get` takes the next of the four.
    refine addDigits_cons.mpr ⟨_, _, hex_a, by simp [here], ?_⟩
    refine addDigits_cons.mpr ⟨_, _, hex_b, by simp [here], ?_⟩
    refine addDigits_cons.mpr ⟨_, _, hex_c, by simp [here], ?_⟩
    refine addDigits_cons.mpr ⟨_, _, hex_d, by simp [here], ?_⟩
    rw [addDigits, value]
    rfl

/-- The bytes behind the first of a character are read and added if they are in their ranges. -/
theorem addInRange_iff {ranges : List (Nat × Nat)} {lexer next : Lexer} :
    addInRange ranges lexer = (true, next) ↔
      ∃ tail rest, List.Forall₂ Utf8.InRange tail ranges ∧ lexer.left = tail ++ rest ∧
        next = (lexer.reads tail.length).addAll tail := by
  -- The induction is over the ranges, as each of them is for one byte.
  induction ranges generalizing lexer with
  | nil => simp [addInRange, reads, eq_comm]
  | cons range ranges ih =>
    rw [addInRange]
    constructor
    · intro run
      split at run
      · rename_i byte read
        split at run
        · rename_i inside
          obtain ⟨tail, rest, inside_tail, here, rfl⟩ := ih.mp run
          refine ⟨byte :: tail, rest, .cons inside inside_tail, ?_, reads_add lexer byte tail⟩
          rw [get_current_eq_some.mp read]
          exact congrArg (byte :: ·) here
        · cases run
      · cases run
    · rintro ⟨_, rest, inside, here, rfl⟩
      cases inside with
      | cons first rest_inside =>
        rename_i byte tail
        have read : lexer.get.current = some byte := by simp [here]
        simp only [read, if_pos first]
        exact ih.mpr ⟨tail, rest, rest_inside, by simp [add, here], (reads_add lexer byte tail).symm⟩

/-- The bits that `scan_string` puts together from two surrogates. -/
theorem surrogates_eq {high low : Nat} (leading : 0xd800 ≤ high) (trailing : 0xdc00 ≤ low) :
    high <<< 10 + low - 0x35fdc00 = 0x10000 + (high - 0xd800) * 0x400 + (low - 0xdc00) := by
  rw [Nat.shiftLeft_eq]
  omega

/-- The beginning of a Unicode escape. -/
theorem scanStringRound_unicode {lexer : Lexer} {rest : Chars}
    (here : lexer.left = 0x5c :: 0x75 :: rest) :
    scanStringRound lexer = scanUnicode lexer.get.get := by
  simp [scanStringRound, scanEscape, here]

/-- The second of two surrogates. -/
theorem scanLowSurrogate_again {lexer : Lexer} {more rest : Chars} {high low : Nat}
    (leading : 0xd800 ≤ high) (second : FourHex more low)
    (trailing : 0xdc00 ≤ low ∧ low ≤ 0xdfff) (here : lexer.left = 0x5c :: 0x75 :: (more ++ rest)) :
    scanLowSurrogate high lexer = .again ((lexer.reads (2 + more.length)).addAll
      (Utf8.encode (0x10000 + (high - 0xd800) * 0x400 + (low - 0xdc00)))) := by
  have run := getCodepoint_iff.mpr
    ⟨more, rest, second, by simp [here], (rfl : lexer.get.get.reads more.length = _)⟩
  -- The backslash and the letter are there, and the digits are those of a low surrogate.
  rw [scanLowSurrogate, if_pos (by simp [here]), if_pos (by simp [here]), run]
  simp only
  rw [if_pos trailing, surrogates_eq leading trailing.1, ← reads_reads]
  rfl

/-- A piece of a string is read in one round of `scan_string`, which adds what it stands for. -/
theorem scanStringRound_again {lexer : Lexer} {text rest : Chars} {char : Char}
    (spelled : Spells text char) (here : lexer.left = text ++ rest) :
    scanStringRound lexer =
      .again ((lexer.reads text.length).addAll (String.utf8EncodeChar char)) := by
  cases spelled with
  | plain visible quote backslash =>
    rcases lt_or_ge char.toNat 0x80 with small | large
    · -- A character of ASCII is added as the byte it is.
      rw [Utf8.utf8EncodeChar_ascii small] at here ⊢
      have read : lexer.get.current = some char.toNat.toUInt8 := by simp [here]
      have number := @toNat_toUInt8_of_lt char.toNat (by omega)
      simp only [scanStringRound, read, number]
      rw [if_neg quote, if_neg backslash, if_neg (by omega), if_pos (by omega)]
      rfl
    · -- The first byte of any other leads to the ranges of the bytes behind it.
      obtain ⟨lead, tail, bytes, isChar, first⟩ := Utf8.utf8EncodeChar_wide large
      rw [bytes] at here ⊢
      have read : lexer.get.current = some lead := by simp [here]
      obtain ⟨ranges, found, inside⟩ := isChar
      simp only [scanStringRound, read]
      rw [if_neg (by omega), if_neg (by omega), if_neg (by omega), if_neg (by omega)]
      have run := addInRange_iff.mpr
        ⟨tail, rest, inside, by simp [add, here], reads_add lexer lead tail |>.symm⟩
      simp only [scanCharacter, found, run]
  | @short letter codepoint known =>
    simp only [shortEscapes, List.mem_cons, Prod.mk.injEq, List.not_mem_nil, or_false] at known
    -- There is one case for each letter.
    rcases known with ⟨rfl, rfl⟩ | ⟨rfl, rfl⟩ | ⟨rfl, rfl⟩ | ⟨rfl, rfl⟩ | ⟨rfl, rfl⟩ | ⟨rfl, rfl⟩ |
      ⟨rfl, rfl⟩ | ⟨rfl, rfl⟩ <;>
    simp [scanStringRound, scanEscape, here, reads, add, addAll, String.utf8EncodeChar]
  | @unicode digits codepoint hex apart =>
    have run := getCodepoint_iff.mpr
      ⟨digits, rest, hex, by simp [here], (rfl : lexer.get.get.reads digits.length = _)⟩
    -- A number that is no surrogate is encoded at once.
    rw [scanStringRound_unicode here, scanUnicode, run]
    simp only
    rw [if_neg (by omega), if_neg (by omega), Utf8.encode_eq (hex.isValidChar apart)]
    rfl
  | @surrogates digits more high low first leading second trailing =>
    -- The first four digits leave the lexer in front of the second escape.
    have run := getCodepoint_iff.mpr ⟨digits, 0x5c :: 0x75 :: (more ++ rest), first,
      by simp [here], (rfl : lexer.get.get.reads digits.length = _)⟩
    have length : (0x5c :: 0x75 :: (digits ++ 0x5c :: 0x75 :: more)).length =
        2 + (digits.length + (2 + more.length)) := by
      simp only [List.length_cons, List.length_append]
      omega
    -- So it is the code for the second surrogate that reads on.
    have there : (lexer.get.get.reads digits.length).left = 0x5c :: 0x75 :: (more ++ rest) := by
      simp [here]
    rw [scanStringRound_unicode here, scanUnicode, run, length]
    simp only
    rw [if_pos leading, scanLowSurrogate_again leading.1 second trailing there,
      Utf8.encode_eq (isValidChar_surrogates leading trailing), ← reads_reads lexer 2,
      ← reads_reads (lexer.reads 2)]
    rfl

/-- A Unicode escape that is read through. -/
theorem spells_of_scanUnicode {lexer next : Lexer} (round : scanUnicode lexer = .again next) :
    ∃ text char rest, Spells (0x5c :: 0x75 :: text) char ∧ lexer.left = text ++ rest := by
  unfold scanUnicode at round
  split at round
  · cases round
  rename_i high after run
  obtain ⟨digits, rest, hex, here, rfl⟩ := getCodepoint_iff.mp run
  split_ifs at round with leading trailing
  · -- Behind a high surrogate a low one has to follow.
    unfold scanLowSurrogate at round
    split_ifs at round with backslash letter
    split at round
    · cases round
    rename_i low after rerun
    obtain ⟨more, last, hex_low, there, rfl⟩ := getCodepoint_iff.mp rerun
    split_ifs at round with trailing
    refine ⟨digits ++ 0x5c :: 0x75 :: more, _, last, .surrogates hex leading hex_low trailing, ?_⟩
    -- The two tests tell which characters stand in front of the digits.
    have first := get_current_eq_some.mp backslash
    have second := get_current_eq_some.mp letter
    rw [second, there] at first
    rw [here, List.append_assoc]
    congr 1
    simpa [here] using first
  · exact ⟨digits, _, rest, .unicode hex (by omega), here⟩

/-- A round of `scan_string` that goes on has read a piece of a string. -/
theorem spells_of_again {lexer next : Lexer} (round : scanStringRound lexer = .again next) :
    ∃ text char rest, Spells text char ∧ lexer.left = text ++ rest := by
  unfold scanStringRound at round
  split at round
  · cases round
  rename_i byte read
  have here := get_current_eq_some.mp read
  split_ifs at round with quote backslash control ascii
  · have byte_eq : byte = 0x5c := UInt8.toNat_inj.mp backslash
    subst byte_eq
    -- The eight letters are treated alike, by the table of the grammar.
    have escaped {letter : UInt8} (read : lexer.get.get.current = some letter)
        (known : letter ∈ shortEscapes.map Prod.fst) :
        ∃ text char rest, Spells text char ∧ lexer.left = text ++ rest := by
      obtain ⟨⟨_, byte⟩, member, rfl⟩ := List.mem_map.mp known
      refine ⟨_, _, lexer.get.get.left, .short member, ?_⟩
      rw [here, get_current_eq_some.mp read]
      rfl
    unfold scanEscape at round
    split at round
    case h_10 => cases round
    -- The letter of an escape by number is followed by digits.
    case h_9 read =>
      obtain ⟨text, char, rest, spelled, there⟩ := spells_of_scanUnicode round
      refine ⟨_, char, rest, spelled, ?_⟩
      rw [here, get_current_eq_some.mp read, there]
      rfl
    all_goals exact escaped (by assumption) (by decide)
  · -- A byte of ASCII is the character with its number.
    obtain ⟨char, number, bytes⟩ := (Utf8.isChar_ascii ascii).exists_char
    rw [Utf8.decode] at number
    refine ⟨[byte], char, _, ?_, here⟩
    rw [← bytes]
    exact .plain (by omega) (by omega) (by omega)
  · unfold scanCharacter at round
    split at round
    · cases round
    rename_i ranges found
    split at round
    · rename_i after run
      obtain ⟨tail, rest, inside, there, _⟩ := addInRange_iff.mp run
      obtain ⟨char, _, bytes⟩ := Utf8.IsChar.exists_char ⟨ranges, found, inside⟩
      -- A character of ASCII would start with a byte of ASCII.
      have large : 0x80 ≤ char.toNat := by
        by_contra small
        rw [Utf8.utf8EncodeChar_ascii (by omega)] at bytes
        cases bytes
        rw [toNat_toUInt8_of_lt (by omega)] at ascii
        omega
      refine ⟨byte :: tail, char, rest, ?_, ?_⟩
      · rw [← bytes]
        exact .plain (by omega) (by omega) (by omega)
      · rw [here, List.cons_append]
        exact congrArg _ there
    · cases round

/-- A round over an escape by number leaves the loop only with an error. -/
theorem scanUnicode_leave {lexer : Lexer} {result : Token × Lexer}
    (round : scanUnicode lexer = .leave result) : result.1 = .parseError := by
  unfold scanUnicode at round
  split at round
  · cases round
    rfl
  · split_ifs at round
    · unfold scanLowSurrogate at round
      split_ifs at round
      · split at round
        · cases round
          rfl
        · split_ifs at round
          cases round
          rfl
      all_goals
        cases round
        rfl
    · cases round
      rfl

/-- A round over an escape leaves the loop only with an error. -/
theorem scanEscape_leave {lexer : Lexer} {result : Token × Lexer}
    (round : scanEscape lexer = .leave result) : result.1 = .parseError := by
  unfold scanEscape at round
  split at round
  -- Only this case can go on reading, and the last one is the forbidden character.
  case h_9 => exact scanUnicode_leave round
  case h_10 =>
    cases round
    rfl
  all_goals cases round

/-- A round over a character leaves the loop only with an error. -/
theorem scanCharacter_leave {lead : UInt8} {lexer : Lexer} {result : Token × Lexer}
    (round : scanCharacter lead lexer = .leave result) : result.1 = .parseError := by
  unfold scanCharacter at round
  split at round
  · cases round
    rfl
  · split at round
    · cases round
    · cases round
      rfl

/-- A round of `scan_string` that leaves has met the closing quote or an error. -/
theorem scanStringRound_leave {lexer : Lexer} {result : Token × Lexer}
    (round : scanStringRound lexer = .leave result) :
    result.1 = .parseError ∨
      result = (.valueString lexer.yytext, lexer.get) ∧ lexer.left = 0x22 :: lexer.get.left := by
  unfold scanStringRound at round
  split at round
  · cases round
    exact .inl rfl
  rename_i byte read
  split_ifs at round with quote
  · -- The quotation mark is the one way to leave without an error.
    have byte_eq : byte = 0x22 := UInt8.toNat_inj.mp quote
    cases round
    exact .inr ⟨by rw [get_yytext], byte_eq ▸ get_current_eq_some.mp read⟩
  · exact .inl (scanEscape_leave round)
  · cases round
    exact .inl rfl
  · exact .inl (scanCharacter_leave round)

/-- The loop of `scan_string` over the inside of a string and its closing quote. -/
theorem loop_spelled {lexer : Lexer} {text rest : Chars} {chars : List Char}
    (spelled : SpellsAll text chars) (here : lexer.left = text ++ 0x22 :: rest) :
    loop scanStringRound_shrinks lexer =
      (.valueString (lexer.yytext ++ Utf8.bytes chars),
        (lexer.reads (text.length + 1)).addAll (Utf8.bytes chars)) := by
  -- Each piece takes one round, and the closing quote takes the last one.
  induction spelled generalizing lexer with
  | nil =>
    apply loop_leave
    have read : lexer.get.current = some 0x22 := by simp [here]
    simp only [scanStringRound, read, UInt8.reduceToNat, if_true, Utf8.bytes_nil, List.append_nil,
      addAll_nil, get_yytext]
    rfl
  | @cons text later char more first _ ih =>
    rw [List.append_assoc] at here
    rw [loop_again _ (scanStringRound_again first here), ih (by simp [here])]
    -- What was read and added before joins what the rest of the string adds.
    rw [reads_addAll, addAll_addAll, reads_reads, addAll_yytext, reads_yytext, List.append_assoc,
      List.length_append, Nat.add_assoc, Utf8.bytes_cons]

/-- What `scan_string` gives is an error or the string spelled up to a closing quote. -/
theorem scanString_cases (lexer : Lexer) :
    (scanString lexer).1 = .parseError ∨
      ∃ text chars rest, SpellsAll text chars ∧ lexer.left = text ++ 0x22 :: rest ∧
        scanString lexer = (.valueString (Utf8.bytes chars),
          (lexer.reset.reads (text.length + 1)).addAll (Utf8.bytes chars)) := by
  -- The invariant of the loop is that what has been read spells what has been added.
  let Inv (state : Lexer) : Prop := ∃ text chars, SpellsAll text chars ∧
    lexer.left = text ++ state.left ∧
    state = (lexer.reset.reads text.length).addAll (Utf8.bytes chars)
  let Post (result : Token × Lexer) : Prop := result.1 = .parseError ∨
    ∃ text chars rest, SpellsAll text chars ∧ lexer.left = text ++ 0x22 :: rest ∧
      result = (.valueString (Utf8.bytes chars),
        (lexer.reset.reads (text.length + 1)).addAll (Utf8.bytes chars))
  apply loop_invariant scanStringRound_shrinks Inv Post
  · rintro state next ⟨text, chars, spelled, here, equal⟩ round
    -- A round that goes on has read one more piece.
    obtain ⟨piece, char, rest, first, there⟩ := spells_of_again round
    cases (scanStringRound_again first there).symm.trans round
    refine ⟨text ++ piece, chars ++ [char], spelled.append first.all, ?_, ?_⟩
    · rw [here, there]
      simp [there]
    · rw [equal, reads_addAll, addAll_addAll, reads_reads, List.length_append]
      simp
  · rintro state result ⟨text, chars, spelled, here, equal⟩ round
    -- A round that leaves has met the quotation mark behind the pieces.
    refine (scanStringRound_leave round).imp_right fun ⟨quoted, there⟩ => ?_
    refine ⟨text, chars, _, spelled, by rw [here, there], ?_⟩
    rw [quoted, ← reads_reads, equal, get_addAll]
    simp [reads, reset]
  · exact ⟨[], [], .nil, rfl, rfl⟩

end Lexer

end LinuxPro.Json
