import LinuxPro.Lib.Bits
import LinuxPro.Lib.CString

/-! Text in UTF-8: which bytes form a character, and code points as bytes. -/

namespace LinuxPro.Utf8

/-- The ranges of the bytes that follow the first byte of a character. -/
def tails (lead : UInt8) : Option (List (Nat × Nat)) :=
  if lead.toNat ≤ 0x7f then some []
  else if 0xc2 ≤ lead.toNat ∧ lead.toNat ≤ 0xdf then some [(0x80, 0xbf)]
  else if lead.toNat = 0xe0 then some [(0xa0, 0xbf), (0x80, 0xbf)]
  else if lead.toNat = 0xed then some [(0x80, 0x9f), (0x80, 0xbf)]
  else if 0xe1 ≤ lead.toNat ∧ lead.toNat ≤ 0xef then some [(0x80, 0xbf), (0x80, 0xbf)]
  else if lead.toNat = 0xf0 then some [(0x90, 0xbf), (0x80, 0xbf), (0x80, 0xbf)]
  else if 0xf1 ≤ lead.toNat ∧ lead.toNat ≤ 0xf3 then
    some [(0x80, 0xbf), (0x80, 0xbf), (0x80, 0xbf)]
  else if lead.toNat = 0xf4 then some [(0x80, 0x8f), (0x80, 0xbf), (0x80, 0xbf)]
  else none

/-- A byte is in a range. -/
def InRange (byte : UInt8) (range : Nat × Nat) : Prop :=
  range.1 ≤ byte.toNat ∧ byte.toNat ≤ range.2

instance (byte : UInt8) (range : Nat × Nat) : Decidable (InRange byte range) :=
  inferInstanceAs (Decidable (_ ∧ _))

/-- The bytes of one character. -/
def IsChar (lead : UInt8) (tail : Chars) : Prop :=
  ∃ ranges, tails lead = some ranges ∧ List.Forall₂ InRange tail ranges

/-- The bytes of characters, one after the other. -/
def bytes (chars : List Char) : Chars := chars.flatMap String.utf8EncodeChar

/-- Well-formed text is the bytes of some characters. -/
def Valid (text : Chars) : Prop := ∃ chars, text = bytes chars

/-- No characters have no bytes. -/
@[simp] theorem bytes_nil : bytes [] = [] := rfl

/-- The bytes of the first character come first. -/
@[simp] theorem bytes_cons (char : Char) (chars : List Char) :
    bytes (char :: chars) = String.utf8EncodeChar char ++ bytes chars := rfl

/-- Characters have their bytes one behind the other. -/
@[simp] theorem bytes_append (first second : List Char) :
    bytes (first ++ second) = bytes first ++ bytes second :=
  List.flatMap_append

/-- A byte below 128 is a character. -/
theorem isChar_ascii {byte : UInt8} (small : byte.toNat ≤ 0x7f) : IsChar byte [] :=
  ⟨[], by rw [tails, if_pos small], .nil⟩

/-- The bytes of a code point. -/
def encode (codepoint : Nat) : Chars :=
  if codepoint < 0x80 then [codepoint.toUInt8]
  else if codepoint ≤ 0x7ff then
    [(0xc0 ||| (codepoint >>> 6)).toUInt8, (0x80 ||| (codepoint &&& 0x3f)).toUInt8]
  else if codepoint ≤ 0xffff then
    [(0xe0 ||| (codepoint >>> 12)).toUInt8, (0x80 ||| ((codepoint >>> 6) &&& 0x3f)).toUInt8,
      (0x80 ||| (codepoint &&& 0x3f)).toUInt8]
  else
    [(0xf0 ||| (codepoint >>> 18)).toUInt8, (0x80 ||| ((codepoint >>> 12) &&& 0x3f)).toUInt8,
      (0x80 ||| ((codepoint >>> 6) &&& 0x3f)).toUInt8, (0x80 ||| (codepoint &&& 0x3f)).toUInt8]

/-- The code point of a first byte and up to three more. -/
def decode (lead : UInt8) : Chars → Nat
  | [] => lead.toNat
  | [second] => ((lead.toNat &&& 0x3f) <<< 6) + (second.toNat &&& 0x7f)
  | [second, third] =>
    ((lead.toNat &&& 0x1f) <<< 12) + ((second.toNat &&& 0x7f) <<< 6) + (third.toNat &&& 0x7f)
  | second :: third :: fourth :: _ =>
    ((lead.toNat &&& 0xf) <<< 18) + ((second.toNat &&& 0x7f) <<< 12) +
      ((third.toNat &&& 0x7f) <<< 6) + (fourth.toNat &&& 0x7f)

/-- The bytes of a code point as numbers. -/
theorem encode_two {codepoint : Nat} (low : 0x80 ≤ codepoint) (high : codepoint ≤ 0x7ff) :
    encode codepoint = [(0xc0 + codepoint / 64).toUInt8, (0x80 + codepoint % 64).toUInt8] := by
  -- The set bits of each byte are above those of the code point.
  have first : 0xc0 ||| (codepoint >>> 6) = 0xc0 + codepoint / 64 := by
    rw [Nat.shiftRight_eq_div_pow]
    exact or_eq_add 6 rfl (by omega)
  have second : 0x80 ||| (codepoint &&& 0x3f) = 0x80 + codepoint % 64 := by
    rw [and_eq_mod codepoint (show 63 = 2 ^ 6 - 1 from rfl)]
    exact or_eq_add 6 rfl (by omega)
  rw [encode, if_neg (by omega), if_pos high, first, second]

/-- The three bytes of a code point as numbers. -/
theorem encode_three {codepoint : Nat} (low : 0x800 ≤ codepoint) (high : codepoint ≤ 0xffff) :
    encode codepoint = [(0xe0 + codepoint / 4096).toUInt8, (0x80 + codepoint / 64 % 64).toUInt8,
      (0x80 + codepoint % 64).toUInt8] := by
  -- As for two bytes, with four bits left for the first one.
  have first : 0xe0 ||| (codepoint >>> 12) = 0xe0 + codepoint / 4096 := by
    rw [Nat.shiftRight_eq_div_pow]
    exact or_eq_add 5 rfl (by omega)
  have second : 0x80 ||| ((codepoint >>> 6) &&& 0x3f) = 0x80 + codepoint / 64 % 64 := by
    rw [and_eq_mod _ (show 63 = 2 ^ 6 - 1 from rfl), Nat.shiftRight_eq_div_pow]
    exact or_eq_add 6 rfl (by omega)
  have third : 0x80 ||| (codepoint &&& 0x3f) = 0x80 + codepoint % 64 := by
    rw [and_eq_mod codepoint (show 63 = 2 ^ 6 - 1 from rfl)]
    exact or_eq_add 6 rfl (by omega)
  rw [encode, if_neg (by omega), if_neg (by omega), if_pos high, first, second, third]

/-- The four bytes of a code point as numbers. -/
theorem encode_four {codepoint : Nat} (low : 0x10000 ≤ codepoint) (high : codepoint ≤ 0x10ffff) :
    encode codepoint = [(0xf0 + codepoint / 262144).toUInt8,
      (0x80 + codepoint / 4096 % 64).toUInt8, (0x80 + codepoint / 64 % 64).toUInt8,
      (0x80 + codepoint % 64).toUInt8] := by
  -- As for two bytes, with three bits left for the first one.
  have first : 0xf0 ||| (codepoint >>> 18) = 0xf0 + codepoint / 262144 := by
    rw [Nat.shiftRight_eq_div_pow]
    exact or_eq_add 4 rfl (by omega)
  have second : 0x80 ||| ((codepoint >>> 12) &&& 0x3f) = 0x80 + codepoint / 4096 % 64 := by
    rw [and_eq_mod _ (show 63 = 2 ^ 6 - 1 from rfl), Nat.shiftRight_eq_div_pow]
    exact or_eq_add 6 rfl (by omega)
  have third : 0x80 ||| ((codepoint >>> 6) &&& 0x3f) = 0x80 + codepoint / 64 % 64 := by
    rw [and_eq_mod _ (show 63 = 2 ^ 6 - 1 from rfl), Nat.shiftRight_eq_div_pow]
    exact or_eq_add 6 rfl (by omega)
  have fourth : 0x80 ||| (codepoint &&& 0x3f) = 0x80 + codepoint % 64 := by
    rw [and_eq_mod codepoint (show 63 = 2 ^ 6 - 1 from rfl)]
    exact or_eq_add 6 rfl (by omega)
  rw [encode, if_neg (by omega), if_neg (by omega), if_neg (by omega), first, second, third, fourth]

/-- One byte in a range. -/
theorem forall₂_singleton {tail : Chars} {first : Nat × Nat} :
    List.Forall₂ InRange tail [first] ↔ ∃ second, tail = [second] ∧ InRange second first := by
  simp only [List.forall₂_cons_right_iff, List.forall₂_nil_right_iff]
  grind

/-- Two bytes in their ranges. -/
theorem forall₂_pair {tail : Chars} {first next : Nat × Nat} :
    List.Forall₂ InRange tail [first, next] ↔
      ∃ second third, tail = [second, third] ∧ InRange second first ∧ InRange third next := by
  simp only [List.forall₂_cons_right_iff, List.forall₂_nil_right_iff]
  grind

/-- Three bytes in their ranges. -/
theorem forall₂_triple {tail : Chars} {first next last : Nat × Nat} :
    List.Forall₂ InRange tail [first, next, last] ↔
      ∃ second third fourth, tail = [second, third, fourth] ∧
        InRange second first ∧ InRange third next ∧ InRange fourth last := by
  simp only [List.forall₂_cons_right_iff, List.forall₂_nil_right_iff]
  grind

/-- The characters of one to four bytes. -/
theorem isChar_iff {lead : UInt8} {tail : Chars} : IsChar lead tail ↔
    (tail = [] ∧ lead.toNat ≤ 0x7f) ∨
    (∃ second, tail = [second] ∧ InRange lead (0xc2, 0xdf) ∧ InRange second (0x80, 0xbf)) ∨
    (∃ second third, tail = [second, third] ∧ InRange lead (0xe0, 0xef) ∧
      InRange second (0x80, 0xbf) ∧ InRange third (0x80, 0xbf) ∧
      (lead.toNat = 0xe0 → 0xa0 ≤ second.toNat) ∧ (lead.toNat = 0xed → second.toNat ≤ 0x9f)) ∨
    (∃ second third fourth, tail = [second, third, fourth] ∧ InRange lead (0xf0, 0xf4) ∧
      InRange second (0x80, 0xbf) ∧ InRange third (0x80, 0xbf) ∧ InRange fourth (0x80, 0xbf) ∧
      (lead.toNat = 0xf0 → 0x90 ≤ second.toNat) ∧ (lead.toNat = 0xf4 → second.toNat ≤ 0x8f)) := by
  constructor
  · rintro ⟨ranges, found, inside⟩
    unfold tails at found
    -- Each row of the table has up to three more bytes.
    split_ifs at found <;> cases found <;>
      simp only [List.forall₂_nil_right_iff, forall₂_singleton, forall₂_pair,
        forall₂_triple] at inside <;>
      grind [InRange]
  · rintro (⟨rfl, small⟩ | ⟨second, rfl, ⟨low, high⟩, next⟩ |
      ⟨second, third, rfl, ⟨low, high⟩, next, last, least, most⟩ |
      ⟨second, third, fourth, rfl, ⟨low, high⟩, next, later, last, least, most⟩)
    · exact isChar_ascii small
    · refine ⟨[(0x80, 0xbf)], ?_, forall₂_singleton.mpr ⟨second, rfl, next⟩⟩
      rw [tails, if_neg (by omega), if_pos ⟨low, high⟩]
    · -- The first byte says how far down or up the second may go.
      by_cases first : lead.toNat = 0xe0
      · refine ⟨[(0xa0, 0xbf), (0x80, 0xbf)], ?_,
          forall₂_pair.mpr ⟨second, third, rfl, ⟨least first, next.2⟩, last⟩⟩
        rw [tails, if_neg (by omega), if_neg (by omega), if_pos first]
      by_cases surrogate : lead.toNat = 0xed
      · refine ⟨[(0x80, 0x9f), (0x80, 0xbf)], ?_,
          forall₂_pair.mpr ⟨second, third, rfl, ⟨next.1, most surrogate⟩, last⟩⟩
        rw [tails, if_neg (by omega), if_neg (by omega), if_neg first, if_pos surrogate]
      · refine ⟨[(0x80, 0xbf), (0x80, 0xbf)], ?_,
          forall₂_pair.mpr ⟨second, third, rfl, next, last⟩⟩
        rw [tails, if_neg (by omega), if_neg (by omega), if_neg first, if_neg surrogate,
          if_pos (by omega)]
    · -- A first byte of four is in none of the earlier rows.
      have above : ¬lead.toNat ≤ 0x7f ∧ ¬(0xc2 ≤ lead.toNat ∧ lead.toNat ≤ 0xdf) ∧
          ¬lead.toNat = 0xe0 ∧ ¬lead.toNat = 0xed ∧
          ¬(0xe1 ≤ lead.toNat ∧ lead.toNat ≤ 0xef) := by omega
      by_cases first : lead.toNat = 0xf0
      · refine ⟨[(0x90, 0xbf), (0x80, 0xbf), (0x80, 0xbf)], ?_, forall₂_triple.mpr
          ⟨second, third, fourth, rfl, ⟨least first, next.2⟩, later, last⟩⟩
        simp only [tails, above, if_false, if_pos first]
      by_cases final : lead.toNat = 0xf4
      · refine ⟨[(0x80, 0x8f), (0x80, 0xbf), (0x80, 0xbf)], ?_, forall₂_triple.mpr
          ⟨second, third, fourth, rfl, ⟨next.1, most final⟩, later, last⟩⟩
        simp only [tails, above, if_false, if_neg first]
        rw [if_neg (by omega), if_pos final]
      · refine ⟨[(0x80, 0xbf), (0x80, 0xbf), (0x80, 0xbf)], ?_, forall₂_triple.mpr
          ⟨second, third, fourth, rfl, next, later, last⟩⟩
        simp only [tails, above, if_false, if_neg first]
        rw [if_pos (by omega)]

/-- The bytes of a scalar value are one character. -/
theorem isChar_encode {codepoint : Nat} (scalar : codepoint.isValidChar) :
    ∃ lead tail, encode codepoint = lead :: tail ∧ IsChar lead tail := by
  simp only [Nat.isValidChar] at scalar
  -- The code points are split as the encoder does.
  rcases lt_or_ge codepoint 0x80 with one | more
  · refine ⟨codepoint.toUInt8, [], by rw [encode, if_pos one], isChar_ascii ?_⟩
    rw [toNat_toUInt8_of_lt (by omega)]
    omega
  rcases le_or_gt codepoint 0x7ff with two | more
  · refine ⟨_, _, encode_two more two, isChar_iff.mpr (.inr (.inl ⟨_, rfl, ?_⟩))⟩
    simp only [InRange]
    rw [toNat_toUInt8_of_lt (by omega), toNat_toUInt8_of_lt (by omega)]
    omega
  -- Of three bytes the surrogates would be the ones that are not well formed.
  rcases le_or_gt codepoint 0xffff with three | more
  · refine ⟨_, _, encode_three more three, isChar_iff.mpr (.inr (.inr (.inl ⟨_, _, rfl, ?_⟩)))⟩
    simp only [InRange]
    rw [toNat_toUInt8_of_lt (by omega), toNat_toUInt8_of_lt (by omega), toNat_toUInt8_of_lt (by omega)]
    omega
  · refine ⟨_, _, encode_four more (by omega),
      isChar_iff.mpr (.inr (.inr (.inr ⟨_, _, _, rfl, ?_⟩)))⟩
    simp only [InRange]
    rw [toNat_toUInt8_of_lt (by omega), toNat_toUInt8_of_lt (by omega), toNat_toUInt8_of_lt (by omega),
      toNat_toUInt8_of_lt (by omega)]
    omega

/-- The low bits of a byte of at least 128. -/
theorem low_bits {byte : UInt8} (large : 0x80 ≤ byte.toNat) :
    byte.toNat &&& 0x7f = byte.toNat - 0x80 := by
  have small := byte.toNat_lt
  rw [and_eq_mod byte.toNat (show 127 = 2 ^ 7 - 1 from rfl)]
  omega

/-- The code point of two bytes. -/
theorem decode_two {lead second : UInt8} (first : InRange lead (0xc2, 0xdf))
    (next : InRange second (0x80, 0xbf)) :
    decode lead [second] = (lead.toNat - 0xc0) * 64 + (second.toNat - 0x80) := by
  obtain ⟨low, high⟩ := first
  have lead_bits : lead.toNat &&& 0x3f = lead.toNat - 0xc0 := by
    rw [and_eq_mod lead.toNat (show 63 = 2 ^ 6 - 1 from rfl)]
    omega
  rw [decode, lead_bits, low_bits next.1, Nat.shiftLeft_eq]

/-- The code point of three bytes. -/
theorem decode_three {lead second third : UInt8} (first : InRange lead (0xe0, 0xef))
    (next : InRange second (0x80, 0xbf)) (last : InRange third (0x80, 0xbf)) :
    decode lead [second, third] =
      (lead.toNat - 0xe0) * 4096 + (second.toNat - 0x80) * 64 + (third.toNat - 0x80) := by
  obtain ⟨low, high⟩ := first
  have lead_bits : lead.toNat &&& 0x1f = lead.toNat - 0xe0 := by
    rw [and_eq_mod lead.toNat (show 31 = 2 ^ 5 - 1 from rfl)]
    omega
  rw [decode, lead_bits, low_bits next.1, low_bits last.1, Nat.shiftLeft_eq, Nat.shiftLeft_eq]

/-- The code point of four bytes. -/
theorem decode_four {lead second third fourth : UInt8} (first : InRange lead (0xf0, 0xf4))
    (next : InRange second (0x80, 0xbf)) (later : InRange third (0x80, 0xbf))
    (last : InRange fourth (0x80, 0xbf)) :
    decode lead [second, third, fourth] = (lead.toNat - 0xf0) * 262144 +
      (second.toNat - 0x80) * 4096 + (third.toNat - 0x80) * 64 + (fourth.toNat - 0x80) := by
  obtain ⟨low, high⟩ := first
  have lead_bits : lead.toNat &&& 0xf = lead.toNat - 0xf0 := by
    rw [and_eq_mod lead.toNat (show 15 = 2 ^ 4 - 1 from rfl)]
    omega
  rw [decode, lead_bits, low_bits next.1, low_bits later.1, low_bits last.1, Nat.shiftLeft_eq,
    Nat.shiftLeft_eq, Nat.shiftLeft_eq]

/-- A character stands for the scalar value whose bytes it is. -/
theorem IsChar.decode {lead : UInt8} {tail : Chars} (char : IsChar lead tail) :
    (decode lead tail).isValidChar ∧ encode (decode lead tail) = lead :: tail := by
  -- A byte is known from its number.
  have same {number : Nat} {byte : UInt8} (equal : number = byte.toNat) :
      number.toUInt8 = byte := by
    rw [equal, Nat.toUInt8_eq, UInt8.ofNat_toNat]
  -- The ranges of the bytes exclude longer forms than are needed, and surrogates.
  rcases isChar_iff.mp char with ⟨rfl, small⟩ | ⟨second, rfl, first, next⟩ |
    ⟨second, third, rfl, first, next, last, low, high⟩ |
    ⟨second, third, fourth, rfl, first, next, later, last, low, high⟩
  · exact ⟨.inl (by rw [Utf8.decode]; omega),
      by rw [Utf8.decode, encode, if_pos (by omega), same rfl]⟩
  · rw [decode_two first next]
    simp only [InRange] at first next
    refine ⟨by simp only [Nat.isValidChar]; omega, ?_⟩
    rw [encode_two (by omega) (by omega)]
    simp only [List.cons.injEq, and_true]
    refine ⟨same ?_, same ?_⟩ <;> omega
  · rw [decode_three first next last]
    simp only [InRange] at first next last
    refine ⟨by simp only [Nat.isValidChar]; omega, ?_⟩
    rw [encode_three (by omega) (by omega)]
    simp only [List.cons.injEq, and_true]
    refine ⟨same ?_, same ?_, same ?_⟩ <;> omega
  · rw [decode_four first next later last]
    simp only [InRange] at first next later last
    refine ⟨by simp only [Nat.isValidChar]; omega, ?_⟩
    rw [encode_four (by omega) (by omega)]
    simp only [List.cons.injEq, and_true]
    refine ⟨same ?_, same ?_, same ?_, same ?_⟩ <;> omega

/-- A code point of a character has the bytes that the character has. -/
theorem encode_toNat (char : Char) : encode char.toNat = String.utf8EncodeChar char := by
  have valid : char.toNat.isValidChar := char.valid
  have same : char.val.toNat = char.toNat := rfl
  simp only [Nat.isValidChar] at valid
  -- The encoder of the core library masks the first byte, which changes nothing in its range.
  rcases lt_or_ge char.toNat 0x80 with one | more
  · rw [encode, if_pos one, String.utf8EncodeChar, same, if_pos (by omega), Nat.toUInt8_eq]
  rcases le_or_gt char.toNat 0x7ff with two | more
  · rw [encode_two (by omega) two, String.utf8EncodeChar, same, if_neg (by omega), if_pos two,
      Nat.mod_eq_of_lt (show char.toNat / 64 < 32 by omega)]
    simp only [Nat.toUInt8_eq, Nat.add_comm]
  rcases le_or_gt char.toNat 0xffff with three | more
  · rw [encode_three (by omega) three, String.utf8EncodeChar, same, if_neg (by omega),
      if_neg (by omega), if_pos three, Nat.mod_eq_of_lt (show char.toNat / 4096 < 16 by omega)]
    simp only [Nat.toUInt8_eq, Nat.add_comm]
  · rw [encode_four (by omega) (by omega), String.utf8EncodeChar, same, if_neg (by omega),
      if_neg (by omega), if_neg (by omega),
      Nat.mod_eq_of_lt (show char.toNat / 262144 < 8 by omega)]
    simp only [Nat.toUInt8_eq, Nat.add_comm]

/-- A code point that is no surrogate has the bytes of its character. -/
theorem encode_eq {codepoint : Nat} (scalar : codepoint.isValidChar) :
    encode codepoint = String.utf8EncodeChar (Char.ofNat codepoint) := by
  rw [← encode_toNat, Char.toNat_ofNat, if_pos scalar]

/-- The bytes of a character are a first byte with bytes in its ranges. -/
theorem isChar_utf8EncodeChar (char : Char) :
    ∃ lead tail, String.utf8EncodeChar char = lead :: tail ∧ IsChar lead tail := by
  rw [← encode_toNat]
  exact isChar_encode char.valid

/-- Different characters have different bytes. -/
theorem utf8EncodeChar_injective : Function.Injective String.utf8EncodeChar := by
  intro first second same
  have bytes : [first].utf8Encode = [second].utf8Encode := by
    rw [List.utf8Encode_singleton, List.utf8Encode_singleton, same]
  -- The strings of these bytes are equal, and so are their characters.
  have strings : String.ofList [first] = String.ofList [second] := by
    rw [← String.toByteArray_inj, String.toByteArray_ofList, String.toByteArray_ofList, bytes]
  simpa using congrArg String.toList strings

/-- A character of ASCII is one byte. -/
theorem utf8EncodeChar_ascii {char : Char} (small : char.toNat < 0x80) :
    String.utf8EncodeChar char = [char.toNat.toUInt8] := by
  rw [← encode_toNat, encode, if_pos small]

/-- Any other character starts with a byte that is none of ASCII. -/
theorem utf8EncodeChar_wide {char : Char} (large : 0x80 ≤ char.toNat) :
    ∃ lead tail, String.utf8EncodeChar char = lead :: tail ∧ IsChar lead tail ∧
      0xc2 ≤ lead.toNat := by
  obtain ⟨lead, tail, bytes, isChar⟩ := isChar_utf8EncodeChar char
  refine ⟨lead, tail, bytes, isChar, ?_⟩
  -- Every longer row of the table starts at 0xc2 or above.
  rcases isChar_iff.mp isChar with ⟨rfl, _⟩ | ⟨_, _, first, _⟩ | ⟨_, _, _, first, _⟩ |
    ⟨_, _, _, _, first, _⟩
  · -- One byte is too little for it.
    rw [← encode_toNat, encode, if_neg (by omega)] at bytes
    split_ifs at bytes <;> cases bytes
  all_goals
    simp only [InRange] at first
    omega

/-- A first byte with bytes in its ranges is the bytes of a character. -/
theorem IsChar.exists_char {lead : UInt8} {tail : Chars} (char : IsChar lead tail) :
    ∃ char : Char, char.toNat = Utf8.decode lead tail ∧
      String.utf8EncodeChar char = lead :: tail := by
  -- The decoded number is a scalar value, so it is that of a character.
  obtain ⟨scalar, same⟩ := char.decode
  refine ⟨Char.ofNat (Utf8.decode lead tail), ?_, ?_⟩
  · rw [Char.toNat_ofNat, if_pos scalar]
  · rw [← encode_eq scalar, same]

end LinuxPro.Utf8
