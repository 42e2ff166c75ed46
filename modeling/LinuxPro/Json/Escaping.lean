import LinuxPro.Json.Grammar
import LinuxPro.Json.Serializer

/-! That `dump_escaped` fills the buffer that `extra_space` measured with a string of the grammar. -/

namespace LinuxPro.Json.Serializer

variable {ensureAscii : Bool}

/-- The loop passes over the bytes behind an escaped character. -/
theorem dumpEscapedLoop_skip (skipped rest result : Chars) (pos : Nat) :
    dumpEscapedLoop ensureAscii skipped.length (skipped ++ rest) result pos =
      dumpEscapedLoop ensureAscii 0 rest result pos := by
  induction skipped with
  | nil => rfl
  | cons byte skipped ih => exact ih

/-- So does the loop that measures. -/
theorem extraSpace_skip (skipped rest : Chars) :
    extraSpace ensureAscii skipped.length (skipped ++ rest) = extraSpace ensureAscii 0 rest := by
  induction skipped with
  | nil => rfl
  | cons byte skipped ih => exact ih

/-- A write behind what is done replaces one byte. -/
theorem store_append (done rest : Chars) (old byte : UInt8) :
    store (done ++ old :: rest) done.length byte = .ok (done ++ byte :: rest) := by
  rw [store, if_pos (by simp), List.set_append_right _ _ (Nat.le_refl _), Nat.sub_self,
    List.set_cons_zero]

/-- Several writes behind what is done replace as many bytes as they are. -/
theorem storeAll_append (bytes done old rest : Chars) (fits : old.length = bytes.length) :
    storeAll (done ++ (old ++ rest)) done.length bytes = .ok (done ++ (bytes ++ rest)) := by
  -- The induction is over what is written, with what is done growing by a byte a step.
  induction bytes generalizing done old with
  | nil =>
    cases List.length_eq_zero_iff.mp fits
    rfl
  | cons byte bytes ih =>
    cases old with
    | nil => simp at fits
    | cons first old =>
      -- What was written joins what is done, and the next place is the end of that.
      have next := ih (done ++ [byte]) old (by simpa using fits)
      rw [List.length_append, List.append_assoc, List.append_assoc] at next
      rw [storeAll, List.cons_append, store_append]
      exact next

/-- The escape of a code point. -/
def escapedCodepoint (codepoint : Nat) : Chars :=
  if codepoint < 0x10000 then 0x5c :: 0x75 :: hexify codepoint
  else
    0x5c :: 0x75 :: (hexify (highSurrogate codepoint) ++
      0x5c :: 0x75 :: hexify (lowSurrogate codepoint))

/-- The escape takes six bytes, or twelve for two surrogates. -/
theorem length_escapedCodepoint (codepoint : Nat) :
    (escapedCodepoint codepoint).length = if codepoint < 0x10000 then 6 else 12 := by
  unfold escapedCodepoint
  split <;> rfl

/-- In a buffer of backslashes an escape is written where there is room for it. -/
theorem escapeCodepoint_fits {codepoint : Nat} (bounded : codepoint ≤ 0x10ffff) (done : Chars)
    (room : Nat) :
    escapeCodepoint codepoint
        (done ++ List.replicate ((escapedCodepoint codepoint).length + room) 0x5c) done.length =
      .ok (done ++ (escapedCodepoint codepoint ++ List.replicate room 0x5c),
        done.length + (escapedCodepoint codepoint).length) := by
  -- The first byte of the escape is the backslash that is asserted.
  have start (count : Nat) :
      load (done ++ List.replicate (count + 1) 0x5c) done.length = .ok 0x5c := by
    rw [load, if_pos (by simp), List.replicate_succ]
    simp
  rw [length_escapedCodepoint, escapeCodepoint, if_neg (by omega)]
  by_cases small : codepoint < 0x10000
  · have write := storeAll_append (0x75 :: hexify codepoint) (done ++ [0x5c])
      (List.replicate 5 0x5c) (List.replicate room 0x5c) rfl
    rw [List.length_append, List.append_assoc, List.append_assoc] at write
    rw [if_pos small, show 6 + room = 5 + room + 1 by omega, start, ok_bind, if_neg (by simp),
      if_pos small, show 5 + room + 1 = 1 + (5 + room) by omega, List.replicate_add,
      List.replicate_add]
    rw [escapedCodepoint, if_pos small]
    exact congrArg (fun written => written >>= fun result => .ok (result, done.length + 6)) write
  · -- Between the two writes one backslash of the buffer is kept.
    have first := storeAll_append (0x75 :: hexify (highSurrogate codepoint)) (done ++ [0x5c])
      (List.replicate 5 0x5c) (List.replicate (6 + room) 0x5c) rfl
    have second := storeAll_append (0x75 :: hexify (lowSurrogate codepoint))
      (done ++ (0x5c :: 0x75 :: (hexify (highSurrogate codepoint) ++ [0x5c])))
      (List.replicate 5 0x5c) (List.replicate room 0x5c) rfl
    rw [List.length_append, List.append_assoc, List.append_assoc] at first second
    rw [if_neg small, show 12 + room = 11 + room + 1 by omega, start, ok_bind, if_neg (by simp),
      if_neg small, show 11 + room + 1 = 1 + (5 + (6 + room)) by omega, List.replicate_add,
      List.replicate_add]
    rw [escapedCodepoint, if_neg small]
    have written : storeAll (done ++ (List.replicate 1 0x5c ++
        (List.replicate 5 0x5c ++ List.replicate (6 + room) 0x5c))) (done.length + 1)
        (0x75 :: hexify (highSurrogate codepoint)) =
        .ok (done ++ ([0x5c] ++ (0x75 :: hexify (highSurrogate codepoint) ++
          List.replicate (6 + room) 0x5c))) := first
    rw [written, ok_bind]
    have split : List.replicate (6 + room) (0x5c : UInt8) =
        0x5c :: (List.replicate 5 0x5c ++ List.replicate room 0x5c) := by
      rw [show 6 + room = (5 + room) + 1 by omega, List.replicate_succ, List.replicate_add]
    rw [split]
    exact congrArg (fun written => written >>= fun result => .ok (result, done.length + 12)) second

/--
What is written for a piece of text, wherever it stands.

A piece is measured and written on its own, and one that is written in no more bytes than it has is
written as it is.
-/
structure Escapes (ensureAscii : Bool) (text written : Chars) : Prop where
  measured : ∀ rest, text.length + extraSpace ensureAscii 0 (text ++ rest) =
    written.length + extraSpace ensureAscii 0 rest
  fills : ∀ rest done room,
    dumpEscapedLoop ensureAscii 0 (text ++ rest)
        (done ++ List.replicate (written.length + room) 0x5c) done.length =
      dumpEscapedLoop ensureAscii 0 rest (done ++ (written ++ List.replicate room 0x5c))
        (done.length + written.length)
  longer : text.length ≤ written.length
  same : written.length = text.length → written = text

/-- Nothing is written for nothing. -/
theorem escapes_nil : Escapes ensureAscii [] [] where
  measured _ := rfl
  fills _ done room := by simp
  longer := Nat.le_refl _
  same _ := rfl

/-- Pieces are written one behind the other. -/
theorem Escapes.append {text text' written written' : Chars}
    (first : Escapes ensureAscii text written) (second : Escapes ensureAscii text' written') :
    Escapes ensureAscii (text ++ text') (written ++ written') where
  measured rest := by
    have here := first.measured (text' ++ rest)
    have later := second.measured rest
    simp only [List.length_append, List.append_assoc]
    omega
  fills rest done room := by
    -- The first piece leaves the room that the second one needs.
    have here := first.fills (text' ++ rest) done (written'.length + room)
    have later := second.fills rest (done ++ written) room
    rw [List.length_append, List.append_assoc] at later
    rw [List.length_append, List.append_assoc, Nat.add_assoc, here, List.append_assoc written,
      later, List.append_assoc done, Nat.add_assoc]
  longer := by
    have here := first.longer
    have later := second.longer
    simp only [List.length_append]
    omega
  same equal := by
    have here := first.longer
    have later := second.longer
    simp only [List.length_append] at equal
    -- If both together are no longer than the text, neither piece is.
    rw [first.same (by omega), second.same (by omega)]

/-- A text made of such pieces is dumped without a fault. -/
theorem Escapes.dumpEscaped {text written : Chars} (escapes : Escapes ensureAscii text written) :
    dumpEscaped ensureAscii text = .ok written := by
  have measured := escapes.measured []
  have nothing : extraSpace ensureAscii 0 [] = 0 := rfl
  rw [List.append_nil, nothing, Nat.add_zero] at measured
  rw [Serializer.dumpEscaped]
  -- Where nothing is to be escaped, the text itself is returned.
  by_cases none : extraSpace ensureAscii 0 text = 0
  · rw [if_pos none, escapes.same (by omega)]
  · -- Otherwise the loop has filled all of the buffer.
    have run := escapes.fills [] [] 0
    simp only [List.append_nil, List.nil_append, List.length_nil, Nat.add_zero, Nat.zero_add,
      List.replicate_zero] at run
    rw [if_neg none, measured, run]
    exact if_pos rfl

/-- A byte that has a short escape. -/
theorem escapes_short {byte letter : UInt8} (short : shortEscape byte = some letter) :
    Escapes ensureAscii [byte] [0x5c, letter] where
  measured rest := by
    rw [List.singleton_append, extraSpace, escapeOf, short]
    simp only [List.length_cons, List.length_nil]
    omega
  fills rest done room := by
    rw [List.singleton_append, dumpEscapedLoop, escapeOf, short]
    have buffer : List.replicate ([0x5c, letter].length + room) (0x5c : UInt8) =
        0x5c :: 0x5c :: List.replicate room 0x5c := by
      rw [List.length_cons, List.length_singleton, Nat.add_comm, List.replicate_succ,
        List.replicate_succ]
    rw [buffer]
    by_cases backslash : byte = 0x5c
    · -- The letter of a backslash is in the buffer already.
      subst backslash
      cases short
      rfl
    · have stored := store_append (done ++ [0x5c]) (List.replicate room 0x5c) 0x5c letter
      rw [List.length_append, List.append_assoc, List.append_assoc] at stored
      simp only [backslash, if_false]
      exact congrArg (· >>= fun result => dumpEscapedLoop ensureAscii 0 rest result _) stored
  longer := by simp
  same equal := by simp at equal

/-- A byte that stands for itself. -/
theorem escapes_asIs {byte : UInt8} (asIs : escapeOf ensureAscii byte = .asIs) :
    Escapes ensureAscii [byte] [byte] where
  measured rest := by rw [List.singleton_append, extraSpace, asIs]
  fills rest done room := by
    have stored := store_append done (List.replicate room 0x5c) 0x5c byte
    rw [List.singleton_append, dumpEscapedLoop, asIs, List.length_singleton, Nat.add_comm 1,
      List.replicate_succ]
    exact congrArg (· >>= fun result => dumpEscapedLoop ensureAscii 0 rest result _) stored
  longer := Nat.le_refl _
  same _ := rfl

/-- A character that is escaped by its number. -/
theorem escapes_codepoint {lead : UInt8} {tail : Chars}
    (escaped : escapeOf ensureAscii lead = .codepoint tail.length)
    (bounded : Utf8.decode lead tail ≤ 0x10ffff)
    (size : tail.length ≤ 3 ∧ (tail.length = 3 ↔ 0x10000 ≤ Utf8.decode lead tail)) :
    Escapes ensureAscii (lead :: tail) (escapedCodepoint (Utf8.decode lead tail)) where
  measured rest := by
    rw [List.cons_append, extraSpace, escaped, length_escapedCodepoint]
    simp only [extraSpace_skip, List.length_cons]
    -- The space that is measured counts the bytes of the character already.
    split_ifs <;> omega
  fills rest done room := by
    have taken : (tail ++ rest).take tail.length = tail := List.take_left
    rw [List.cons_append, dumpEscapedLoop, escaped]
    simp only [taken, escapeCodepoint_fits bounded done room]
    rw [if_neg (by simp)]
    -- The bytes behind the first one are passed over.
    exact dumpEscapedLoop_skip tail rest _ _
  longer := by
    rw [length_escapedCodepoint, List.length_cons]
    split_ifs <;> omega
  same equal := by
    rw [length_escapedCodepoint, List.length_cons] at equal
    split_ifs at equal <;> omega

/-- A digit of `hexify` is the hexadecimal digit of its value. -/
theorem isHexDigit_lowerHexDigit {value : Nat} (small : value < 16) :
    IsHexDigit (lowerHexDigit value.toUInt8) value := by
  left
  interval_cases value <;> rfl

/-- Four digits of `hexify` write the number. -/
theorem fourHex_hexify {number : Nat} (small : number < 0x10000) :
    FourHex (hexify number) number := by
  -- Each digit is four bits of the number.
  have digit (shift : Nat) : (number >>> shift) &&& 0x0f = number / 2 ^ shift % 16 := by
    rw [and_eq_mod _ (show 15 = 2 ^ 4 - 1 from rfl), Nat.shiftRight_eq_div_pow]
    rfl
  have last : number &&& 0x0f = number % 16 := and_eq_mod number (show 15 = 2 ^ 4 - 1 from rfl)
  have whole : number / 2 ^ 12 % 16 * 4096 + number / 2 ^ 8 % 16 * 256 + number / 2 ^ 4 % 16 * 16 +
      number % 16 = number := by omega
  have written := FourHex.mk (isHexDigit_lowerHexDigit (Nat.mod_lt (number / 2 ^ 12) (by decide)))
    (isHexDigit_lowerHexDigit (Nat.mod_lt (number / 2 ^ 8) (by decide)))
    (isHexDigit_lowerHexDigit (Nat.mod_lt (number / 2 ^ 4) (by decide)))
    (isHexDigit_lowerHexDigit (Nat.mod_lt number (by decide)))
  rw [hexify, digit 12, digit 8, digit 4, last]
  rwa [whole] at written

/-- The escape of a character's code point spells the character. -/
theorem spells_escapedCodepoint (char : Char) : Spells (escapedCodepoint char.toNat) char := by
  have valid : char.toNat.isValidChar := char.valid
  simp only [Nat.isValidChar] at valid
  rw [escapedCodepoint]
  split
  · next small =>
    -- A character is no surrogate, so that its number may stand alone.
    have spelled := Spells.unicode (fourHex_hexify small) (by omega)
    rwa [Char.ofNat_toNat] at spelled
  · next large =>
    -- The two surrogates have the upper and the lower ten bits.
    have high : highSurrogate char.toNat = 0xd800 + (char.toNat - 0x10000) / 1024 := by
      rw [highSurrogate, and_eq_mod _ (show 1023 = 2 ^ 10 - 1 from rfl),
        Nat.shiftRight_eq_div_pow, or_eq_add 10 rfl (by omega)]
      omega
    have low : lowSurrogate char.toNat = 0xdc00 + (char.toNat - 0x10000) % 1024 := by
      rw [lowSurrogate, and_eq_mod _ (show 1023 = 2 ^ 10 - 1 from rfl),
        or_eq_add 10 rfl (by omega)]
      rfl
    have spelled := Spells.surrogates (@fourHex_hexify (highSurrogate char.toNat) (by omega))
      (by omega) (@fourHex_hexify (lowSurrogate char.toNat) (by omega)) (by omega)
    have number : 0x10000 + (highSurrogate char.toNat - 0xd800) * 0x400 +
        (lowSurrogate char.toNat - 0xdc00) = char.toNat := by omega
    rwa [number, Char.ofNat_toNat] at spelled

/-- The byte of an ASCII character. -/
theorem exists_escapes_ascii (ensureAscii : Bool) {char : Char} (small : char.toNat < 0x80) :
    ∃ written, Escapes ensureAscii [char.toNat.toUInt8] written ∧ Spells written char := by
  have byte : char.toNat.toUInt8.toNat = char.toNat := toNat_toUInt8_of_lt (by omega)
  cases short : shortEscape char.toNat.toUInt8 with
  | some letter =>
    refine ⟨_, escapes_short short, ?_⟩
    -- The seven short escapes are all in the table of the grammar.
    have known : (letter, char.toNat) ∈ shortEscapes := by
      rw [← byte]
      unfold shortEscape at short
      split_ifs at short with h1 h2 h3 h4 h5 h6 h7 <;> cases short <;> simp_all [shortEscapes]
    have spelled := Spells.short known
    rwa [Char.ofNat_toNat] at spelled
  | none =>
    by_cases control : char.toNat ≤ 0x1f ∨ ensureAscii ∧ char.toNat = 0x7f
    · -- The number of a control character is its byte.
      have escaped : escapeOf ensureAscii char.toNat.toUInt8 = .codepoint 0 := by
        rw [escapeOf, short, byte]
        simp only [bytesFollowing, byte]
        rw [if_pos (by grind), if_pos (by omega)]
      have decoded : Utf8.decode char.toNat.toUInt8 [] = char.toNat := byte
      have written := @escapes_codepoint ensureAscii char.toNat.toUInt8 [] escaped
        (by omega) (by rw [List.length_nil]; omega)
      rw [decoded] at written
      exact ⟨_, written, spells_escapedCodepoint char⟩
    · -- The others are visible, and neither a quotation mark nor a backslash.
      have asIs : escapeOf ensureAscii char.toNat.toUInt8 = .asIs := by
        rw [escapeOf, short, byte]
        simp only
        rw [if_neg (by grind)]
      refine ⟨_, escapes_asIs asIs, ?_⟩
      rw [← Utf8.utf8EncodeChar_ascii small]
      refine .plain (by omega) ?_ ?_
      · intro quote
        rw [quote] at short
        cases short
      · intro backslash
        rw [backslash] at short
        cases short

/-- No byte beyond ASCII has a short escape. -/
theorem shortEscape_wide {byte : UInt8} (large : 0x80 ≤ byte.toNat) : shortEscape byte = none := by
  unfold shortEscape
  split_ifs with quote backslash backspace formfeed newline carriage tab
  -- All bytes with a short escape are of ASCII.
  all_goals first | rfl | (subst byte; exact absurd large (by decide))

/-- Without `ensure_ascii` the bytes beyond ASCII stand for themselves. -/
theorem escapes_wide {text : Chars} (large : ∀ byte ∈ text, 0x80 ≤ byte.toNat) :
    Escapes false text text := by
  induction text with
  | nil => exact escapes_nil
  | cons byte text ih =>
    have here := large byte (by simp)
    have asIs : escapeOf false byte = .asIs := by
      rw [escapeOf, shortEscape_wide here]
      simp only
      rw [if_neg (by grind)]
    exact (escapes_asIs asIs).append (ih fun later member => large later (by simp [member]))

/-- With `ensure_ascii` a character of several bytes is escaped by its number. -/
theorem escapeOf_wide {lead : UInt8} {tail : Chars} (isChar : Utf8.IsChar lead tail)
    (large : 0xc2 ≤ lead.toNat) : escapeOf true lead = .codepoint tail.length := by
  -- The first byte tells how many follow, as it does for a reader.
  have following : bytesFollowing lead = some tail.length := by
    rw [bytesFollowing, if_neg (by omega)]
    rcases Utf8.isChar_iff.mp isChar with ⟨_, small⟩ | ⟨_, rfl, first, _⟩ | ⟨_, _, rfl, first, _⟩ |
      ⟨_, _, _, rfl, first, _⟩
    · omega
    · simp only [Utf8.InRange] at first
      rw [if_pos (by omega)]
      rfl
    · simp only [Utf8.InRange] at first
      rw [if_neg (by omega), if_pos (by omega)]
      rfl
    · simp only [Utf8.InRange] at first
      rw [if_neg (by omega), if_neg (by omega), if_pos (by omega)]
      rfl
  rw [escapeOf, shortEscape_wide (by omega)]
  simp only [following]
  rw [if_pos (by grind)]

/-- The character that needs two surrogates is the one of four bytes. -/
theorem length_tail_iff {lead : UInt8} {tail : Chars} (isChar : Utf8.IsChar lead tail) :
    tail.length ≤ 3 ∧ (tail.length = 3 ↔ 0x10000 ≤ Utf8.decode lead tail) := by
  -- The bounds on the second byte exclude longer forms than are needed.
  rcases Utf8.isChar_iff.mp isChar with ⟨rfl, small⟩ | ⟨second, rfl, first, next⟩ |
    ⟨second, third, rfl, first, next, last, low, high⟩ |
    ⟨second, third, fourth, rfl, first, next, later, last, low, high⟩
  · have decoded : Utf8.decode lead [] = lead.toNat := rfl
    simp only [List.length_nil, decoded]
    omega
  · rw [Utf8.decode_two first next]
    simp only [Utf8.InRange] at first next
    simp only [List.length_cons, List.length_nil]
    omega
  · rw [Utf8.decode_three first next last]
    simp only [Utf8.InRange] at first next last
    simp only [List.length_cons, List.length_nil]
    omega
  · rw [Utf8.decode_four first next later last]
    simp only [Utf8.InRange] at first next later last
    refine ⟨Nat.le_refl 3, iff_of_true rfl ?_⟩
    omega

/-- Every character is written in a way that spells it. -/
theorem exists_escapes_char (ensureAscii : Bool) (char : Char) :
    ∃ written, Escapes ensureAscii (String.utf8EncodeChar char) written ∧ Spells written char := by
  rcases lt_or_ge char.toNat 0x80 with small | large
  · rw [Utf8.utf8EncodeChar_ascii small]
    exact exists_escapes_ascii ensureAscii small
  · obtain ⟨lead, tail, bytes, isChar, wide⟩ := Utf8.utf8EncodeChar_wide large
    cases ensureAscii with
    | false =>
      -- All bytes of such a character are beyond ASCII.
      refine ⟨_, escapes_wide ?_, .plain (by omega) (by omega) (by omega)⟩
      rw [bytes]
      intro byte member
      rcases Utf8.isChar_iff.mp isChar with ⟨rfl, _⟩ | ⟨_, rfl, _⟩ | ⟨_, _, rfl, _⟩ |
        ⟨_, _, _, rfl, _⟩ <;> grind [Utf8.InRange]
    | true =>
      -- The number that is escaped is the character's, as its bytes determine it.
      obtain ⟨other, number, same⟩ := isChar.exists_char
      have equal : other = char := Utf8.utf8EncodeChar_injective (same.trans bytes.symm)
      rw [equal] at number
      have bounded : char.toNat ≤ 0x10ffff := by
        have valid : char.toNat.isValidChar := char.valid
        simp only [Nat.isValidChar] at valid
        omega
      have written := escapes_codepoint (escapeOf_wide isChar wide) (by omega)
        (length_tail_iff isChar)
      rw [← number, ← bytes] at written
      exact ⟨_, written, spells_escapedCodepoint char⟩

/-- A text in UTF-8 is dumped as the inside of a string that spells it. -/
theorem dumpEscaped_spells (ensureAscii : Bool) (chars : List Char) :
    ∃ written, dumpEscaped ensureAscii (Utf8.bytes chars) = .ok written ∧
      SpellsAll written chars := by
  -- Each character is a piece that is written on its own.
  have pieces : ∃ written, Escapes ensureAscii (Utf8.bytes chars) written ∧
      SpellsAll written chars := by
    induction chars with
    | nil => exact ⟨[], escapes_nil, .nil⟩
    | cons char chars ih =>
      obtain ⟨first, escapes, spelled⟩ := exists_escapes_char ensureAscii char
      obtain ⟨rest, later, spelledAll⟩ := ih
      exact ⟨first ++ rest, escapes.append later, .cons spelled spelledAll⟩
  obtain ⟨written, escapes, spelled⟩ := pieces
  exact ⟨written, escapes.dumpEscaped, spelled⟩

end LinuxPro.Json.Serializer
