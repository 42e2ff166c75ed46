import LinuxPro.Lib.CString
import Mathlib.Data.List.Infix

/-! Percent encoding of text, its decoding, and the text that decoding leaves alone. -/

namespace LinuxPro.Percent

/-- The byte `%`. -/
def percent : UInt8 := 37

/-- The byte `+`. -/
def plus : UInt8 := 43

/-- The byte `?`. -/
def mark : UInt8 := 63

/-- The byte that a plus stands for in a query. -/
def space : UInt8 := 32

/-- The value of a hexadecimal digit in either case. -/
def hexValue (char : UInt8) : Option UInt8 :=
  if 48 ≤ char ∧ char ≤ 57 then some (char - 48)
  else if 65 ≤ char ∧ char ≤ 70 then some (char - 55)
  else if 97 ≤ char ∧ char ≤ 102 then some (char - 87)
  else none

/-- The hexadecimal digit of a value below sixteen. -/
def hexDigit (value : UInt8) : UInt8 := if value < 10 then 48 + value else 55 + value

/-- The byte that two digits stand for. -/
def hexByte (high low : UInt8) : Option UInt8 := do
  return 16 * (← hexValue high) + (← hexValue low)

/-- A byte as a percent sign and two digits. -/
def encodeByte (byte : UInt8) : Chars := [percent, hexDigit (byte / 16), hexDigit (byte % 16)]

/-- A text with those of its bytes encoded that are to be escaped. -/
def encode (escape : UInt8 → Bool) (source : Chars) : Chars :=
  source.flatMap fun byte => if escape byte then encodeByte byte else [byte]

/-- The byte that is encoded at the front of a text, if one is. -/
def escaped : Chars → Option UInt8
  | byte :: high :: low :: _ => if byte = percent then hexByte high low else none
  | _ => none

/-- The decoded text behind so many bytes that were dealt with. -/
def decodeBehind : Nat → Bool → Chars → Chars
  | _, _, [] => []
  -- The two digits of an encoded byte were used up together with its percent sign.
  | skip + 1, spaces, _ :: rest => decodeBehind skip spaces rest
  | 0, spaces, byte :: rest =>
    -- From the first question mark on a plus stands for a space.
    if byte = mark then byte :: decodeBehind 0 true rest
    else if byte = plus ∧ spaces then space :: decodeBehind 0 spaces rest
    else match escaped (byte :: rest) with
      | some decoded => decoded :: decodeBehind 2 spaces rest
      -- A percent sign without two digits behind it is kept.
      | none => byte :: decodeBehind 0 spaces rest

/-- The decoded text, where a plus stands for a space if so told or behind a question mark. -/
def decode (spaces : Bool) (source : Chars) : Chars := decodeBehind 0 spaces source

example : decode false (.ofString "a+b%4%41?a+b%") = .ofString "a+b%4A?a b%" := by decide

variable {escape : UInt8 → Bool} {spaces : Bool} {source rest : Chars} {byte : UInt8}

/-- The digit of a value below sixteen has that value. -/
theorem hexValue_hexDigit {value : UInt8} (small : value < 16) :
    hexValue (hexDigit value) = some value := by
  -- There are sixteen of them.
  have all : ∀ value : Fin 16, hexValue (hexDigit (.ofNat value)) = some (.ofNat value) := by
    decide
  simpa using all ⟨value.toNat, by simpa [UInt8.lt_iff_toNat_lt] using small⟩

/-- The two digits of every byte stand for it. -/
theorem hexByte_digits (byte : UInt8) :
    hexByte (hexDigit (byte / 16)) (hexDigit (byte % 16)) = some byte := by
  -- Both halves of a byte are below sixteen, and together they make it up again.
  have bound := byte.toNat_lt
  have high : byte / 16 < 16 := by
    simp only [UInt8.lt_iff_toNat_lt, UInt8.toNat_div, UInt8.reduceToNat]
    omega
  have low : byte % 16 < 16 := by
    simp only [UInt8.lt_iff_toNat_lt, UInt8.toNat_mod, UInt8.reduceToNat]
    omega
  have halves : 16 * (byte / 16) + byte % 16 = byte := by
    apply UInt8.toNat.inj
    simp only [UInt8.toNat_add, UInt8.toNat_mul, UInt8.toNat_div, UInt8.toNat_mod,
      UInt8.reduceToNat]
    omega
  simp [hexByte, hexValue_hexDigit high, hexValue_hexDigit low, halves]

/-- Only a percent sign begins an encoded byte. -/
theorem escaped_of_ne (ordinary : byte ≠ percent) : escaped (byte :: rest) = none := by
  -- With fewer than two bytes behind it not even a percent sign would do.
  match rest with
  | [] => rfl
  | [_] => rfl
  | _ :: _ :: _ => simp [escaped, ordinary]

/-- An encoded byte is a percent sign and two digits. -/
theorem digits_of_escaped {decoded : UInt8} (found : escaped source = some decoded) :
    ∃ high low rest, source = percent :: high :: low :: rest ∧ hexByte high low = some decoded := by
  match source with
  -- There is no room for two digits.
  | [] => cases found
  | [_] => cases found
  | [_, _] => cases found
  | byte :: high :: low :: rest =>
    by_cases here : byte = percent
    · exact ⟨high, low, rest, by rw [here], by simpa [escaped, here] using found⟩
    · simp [escaped, here] at found

/-- A question mark is no digit, so that an encoded byte ends before it. -/
theorem escaped_append_mark :
    escaped (byte :: (source ++ mark :: rest)) = escaped (byte :: source) := by
  match source with
  -- The question mark stands where the first digit would.
  | [] =>
    cases rest with
    | nil => rfl
    | cons low rest =>
      have none : hexByte mark low = none := rfl
      simp [escaped, none]
  -- The question mark stands where the second digit would.
  | [high] =>
    have none : hexByte high mark = none := by
      have digit : hexValue mark = none := rfl
      cases hexValue high <;> simp [hexByte, digit]
    simp [escaped, none]
  -- Both digits lie before the question mark, so that it is not looked at.
  | _ :: _ :: _ => rfl

/-- Each byte is decoded to one byte at most, and skipped ones to none. -/
theorem length_decodeBehind_le (skip : Nat) (spaces : Bool) (source : Chars) :
    (decodeBehind skip spaces source).length ≤ source.length := by
  fun_induction decodeBehind skip spaces source <;> grind

/-- Decoding never makes a text longer. -/
theorem length_decode_le (spaces : Bool) (source : Chars) :
    (decode spaces source).length ≤ source.length :=
  length_decodeBehind_le 0 spaces source

/-- A byte that is neither encoded nor a plus is left alone. -/
theorem decode_ordinary (single : escaped (byte :: rest) = none) (noPlus : byte ≠ plus) :
    decode true (byte :: rest) = byte :: decode true rest := by
  -- A question mark changes nothing here, since a plus stands for a space already.
  by_cases here : byte = mark
  · simp [decode, decodeBehind, here]
  · simp [decode, decodeBehind, here, noPlus, single]

/-- A plus behind a question mark is decoded to a space. -/
theorem decode_plus : decode true (plus :: rest) = space :: decode true rest := by
  simp [decode, decodeBehind, plus, mark]

/-- A percent sign with two digits behind it is decoded to the byte they stand for. -/
theorem decode_escaped {high low : UInt8} (digits : hexByte high low = some byte) :
    decode true (percent :: high :: low :: rest) = byte :: decode true rest := by
  have ordinary : percent ≠ mark ∧ percent ≠ plus := by decide
  simp [decode, decodeBehind, escaped, digits, ordinary]

/-- An encoded byte is decoded. -/
theorem decode_encodeByte : decode true (encodeByte byte ++ rest) = byte :: decode true rest :=
  decode_escaped (hexByte_digits byte)

/-- What was encoded is decoded to what it was, whatever follows it. -/
theorem decode_encode (percents : escape percent = true) (pluses : escape plus = true)
    (source rest : Chars) :
    decode true (encode escape source ++ rest) = source ++ decode true rest := by
  induction source with
  | nil => rfl
  | cons byte source ih =>
    cases coded : escape byte with
    | true =>
      -- The three bytes for an encoded one are decoded at once.
      simp only [encode, List.flatMap_cons, coded, if_true, List.append_assoc, decode_encodeByte]
      exact congrArg (byte :: ·) ih
    | false =>
      -- A byte that is not escaped is none of the two that decoding looks for.
      have single : byte ≠ percent := by
        rintro rfl
        simp [coded] at percents
      have noPlus : byte ≠ plus := by
        rintro rfl
        simp [coded] at pluses
      simp only [encode, List.flatMap_cons, coded, Bool.false_eq_true, if_false,
        List.cons_append, List.nil_append]
      rw [decode_ordinary (escaped_of_ne single) noPlus]
      exact congrArg (byte :: ·) ih

/-- Text without percent signs and pluses is left alone, whatever follows it. -/
theorem decode_append_ordinary (single : percent ∉ source) (noPlus : plus ∉ source) :
    decode true (source ++ rest) = source ++ decode true rest := by
  -- Each byte is passed over on its own.
  induction source with
  | nil => rfl
  | cons byte source ih =>
    simp only [List.mem_cons, not_or] at single noPlus
    rw [List.cons_append, decode_ordinary (escaped_of_ne (Ne.symm single.1)) (Ne.symm noPlus.1),
      ih single.2 noPlus.2, List.cons_append]

/-- What precedes the first question mark is decoded on its own. -/
theorem decode_append_mark (unmarked : mark ∉ source) :
    decode spaces (source ++ mark :: rest) = decode spaces source ++ mark :: decode true rest := by
  -- The bytes that an encoded one still takes lie before the question mark too.
  have behind : ∀ (source : Chars) (skip : Nat), mark ∉ source → skip ≤ source.length →
      decodeBehind skip spaces (source ++ mark :: rest) =
        decodeBehind skip spaces source ++ mark :: decode true rest := by
    intro source
    induction source with
    | nil =>
      -- At the question mark itself nothing is left to be skipped.
      intro skip _ none
      obtain rfl : skip = 0 := by simpa using none
      simp [decodeBehind, decode]
    | cons byte source ih =>
      intro skip unmarked within
      rw [List.mem_cons, not_or] at unmarked
      obtain ⟨other, unmarked⟩ := unmarked
      cases skip with
      | succ skip => exact ih skip unmarked (by simpa using within)
      | zero =>
        have next := ih 0 unmarked (Nat.zero_le _)
        by_cases spaced : byte = plus ∧ spaces = true
        · -- This plus is in a query and becomes a space.
          simp only [List.cons_append, decodeBehind, if_neg (Ne.symm other), if_pos spaced, next]
        cases found : escaped (byte :: source) with
        | none =>
          -- The byte is kept, and so it would be without what follows.
          simp [decodeBehind, Ne.symm other, spaced, escaped_append_mark, found, next]
        | some decoded =>
          -- Both digits lie in front of the question mark, so they can be skipped there.
          obtain ⟨high, low, after, split, _⟩ := digits_of_escaped found
          have later := ih 2 unmarked (by simp [(List.cons.inj split).2])
          simp [decodeBehind, Ne.symm other, spaced, escaped_append_mark, found, later]
  exact behind source 0 unmarked (Nat.zero_le _)

/-- Whether a text has neither a plus nor a percent sign with two digits behind it. -/
def Plain (source : Chars) : Prop :=
  plus ∉ source ∧ ∀ high low, (hexByte high low).isSome → ¬ [percent, high, low] <:+: source

/-- A text that begins with an encoded byte is not plain. -/
theorem not_plain_of_escaped {decoded : UInt8} (found : escaped source = some decoded) :
    ¬ Plain source := by
  obtain ⟨high, low, rest, rfl, digits⟩ := digits_of_escaped found
  intro plain
  exact plain.2 high low (by simp [digits]) ⟨[], rest, rfl⟩

/-- A byte in front that is no plus and does not begin an encoded byte leaves the rest plain. -/
theorem plain_cons_iff (single : escaped (byte :: rest) = none) (noPlus : byte ≠ plus) :
    Plain (byte :: rest) ↔ Plain rest := by
  -- An encoded byte at the front would have been found there.
  have front : ∀ high low, (hexByte high low).isSome → ¬ [percent, high, low] <+: byte :: rest := by
    rintro high low digits ⟨later, same⟩
    simp [← same, escaped, ← Option.not_isSome_iff_eq_none, digits] at single
  constructor
  · intro plain
    exact ⟨fun member => plain.1 (by simp [member]), fun high low digits inside =>
      plain.2 high low digits (inside.trans (List.suffix_cons byte rest).isInfix)⟩
  · intro plain
    refine ⟨by simpa [Ne.symm noPlus] using plain.1, fun high low digits inside => ?_⟩
    -- It begins at the front or lies within the rest.
    rcases List.infix_cons_iff.mp inside with start | inside
    · exact front high low digits start
    · exact plain.2 high low digits inside

/-- Decoding leaves exactly the plain texts alone. -/
theorem decode_eq_self_iff (source : Chars) : decode true source = source ↔ Plain source := by
  induction source with
  | nil => simp [decode, decodeBehind, Plain]
  | cons byte rest ih =>
    by_cases here : byte = plus
    · -- A plus becomes a space, which is another byte.
      rw [here, decode_plus]
      exact iff_of_false (by simp [space, plus]) (by simp [Plain])
    cases found : escaped (byte :: rest) with
    | none =>
      -- The first byte is kept, so that the rest decides.
      rw [decode_ordinary found here, plain_cons_iff found here, ← ih, List.cons.injEq,
        and_iff_right rfl]
    | some decoded =>
      refine iff_of_false (fun same => ?_) (not_plain_of_escaped found)
      -- Three bytes became one, and what follows did not become longer.
      obtain ⟨high, low, after, split, digits⟩ := digits_of_escaped found
      have decodes := congrArg List.length same
      rw [split, decode_escaped digits] at decodes
      have later := length_decode_le true after
      simp only [List.length_cons] at decodes
      omega

end LinuxPro.Percent
