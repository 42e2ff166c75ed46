import LinuxPro.Json.BinaryLaws
import LinuxPro.Json.Escaping
import LinuxPro.Json.Parsing

/-! That what `dump` writes for a value is a text of the grammar, which `parse` reads back. -/

namespace LinuxPro.Json

open Serializer

/-! Numbers. -/

/-- The digit of a value below ten. -/
def digitByte (value : Nat) : UInt8 := (0x30 + value).toUInt8

/-- The digit of a value is the decimal digit at its place. -/
theorem digitByte_spec {value : Nat} (small : value < 10) :
    digitByte value ∈ decimalDigits ∧ decimalDigits.idxOf (digitByte value) = value := by
  rw [decimalDigits_eq]
  interval_cases value <;> exact ⟨by simp [digitByte], rfl⟩

/-- The decimal digits of a number other than zero, the first one counting most. -/
def decimalText (number : Nat) : Chars := ((Nat.digits 10 number).map digitByte).reverse

/-- The digits of a number write it. -/
theorem wholeValue_decimalText (number : Nat) : wholeValue (decimalText number) = number := by
  -- The place of a digit among the digits is its value.
  have back : (Nat.digits 10 number).map (fun value => decimalDigits.idxOf (digitByte value)) =
      Nat.digits 10 number := by
    conv => rhs; rw [← List.map_id (Nat.digits 10 number)]
    apply List.map_congr_left
    intro value member
    exact (digitByte_spec (Nat.digits_lt_base (by decide) member)).2
  rw [wholeValue, decimalText, List.reverse_reverse, List.map_map]
  show Nat.ofDigits 10 ((Nat.digits 10 number).map fun value =>
    decimalDigits.idxOf (digitByte value)) = number
  rw [back, Nat.ofDigits_digits]

/-- The digits of a number other than zero do not start with a zero. -/
theorem isWhole_decimalText {number : Nat} (positive : number ≠ 0) :
    IsWhole (decimalText number) := by
  have filled : Nat.digits 10 number ≠ [] := Nat.digits_ne_nil_iff_ne_zero.mpr positive
  have small : ∀ value ∈ Nat.digits 10 number, value < 10 := fun value member =>
    Nat.digits_lt_base (by decide) member
  -- The last digit of the list counts most, and it is not zero.
  have first := Nat.getLast_digit_ne_zero 10 positive
  have split := List.dropLast_append_getLast filled
  generalize (Nat.digits 10 number).getLast filled = last at first split
  have digit := digitByte_spec (small last (by rw [← split]; simp))
  refine .inr ⟨digitByte last, ((Nat.digits 10 number).dropLast.map digitByte).reverse, ?_,
    digit.1, ?_, ?_⟩
  · rw [decimalText, ← split]
    simp
  · intro zero
    have place := digit.2
    rw [zero] at place
    exact first place.symm
  · intro byte member
    obtain ⟨value, among, rfl⟩ := List.mem_map.mp (List.mem_reverse.mp member)
    exact (digitByte_spec (small value (List.mem_of_mem_dropLast among))).1

/-- The loop of `dump_integer` takes the digits of the absolute value, the last one first. -/
theorem dumpDigits_eq (room : Nat) (x : Int) (buffer : Chars)
    (fits : (Nat.digits 10 x.natAbs).length ≤ room) :
    dumpDigits room x buffer = .ok (buffer ++ (Nat.digits 10 x.natAbs).map digitByte) := by
  -- The induction is on the room in the buffer, of which each digit takes one place.
  induction room generalizing x buffer with
  | zero =>
    have none : Nat.digits 10 x.natAbs = [] := List.length_eq_zero_iff.mp (by omega)
    have zero : x = 0 := by simpa [Nat.digits_eq_nil_iff_eq_zero] using none
    rw [dumpDigits, if_pos zero, none, List.map_nil, List.append_nil]
  | succ room ih =>
    rw [dumpDigits]
    by_cases zero : x = 0
    · simp [zero]
    · have digits := @Nat.digits_def' 10 (by decide) x.natAbs (by omega)
      -- The source divides towards zero, which is the division of the absolute value.
      have quotient : (x.tdiv 10).natAbs = x.natAbs / 10 := Int.natAbs_tdiv x 10
      have remainder : (x.tmod 10).natAbs = x.natAbs % 10 := Int.natAbs_tmod x 10
      rw [digits, List.length_cons] at fits
      rw [if_neg zero, ih _ _ (by rw [quotient]; omega), quotient, remainder, digits,
        List.map_cons, List.append_assoc]
      rfl

/-- The digits of a number of 64 bits fit the buffer by far. -/
theorem length_digits_le {number : Nat} (small : number < 2 ^ 64) :
    (Nat.digits 10 number).length ≤ 20 :=
  (Nat.digits_length_le_iff (by decide) number).mpr (by omega)

/-- A number that is not negative is dumped as its digits. -/
theorem dumpInteger_natural {number : Nat} (small : number < 2 ^ 64) :
    ∃ digits, dumpInteger number = .ok digits ∧ IsWhole digits ∧ wholeValue digits = number := by
  rw [dumpInteger]
  -- Zero is written without the loop.
  by_cases zero : number = 0
  · refine ⟨[0x30], ?_, .inl rfl, ?_⟩
    · rw [if_pos (by omega)]
    · rw [zero]
      rfl
  · have length := length_digits_le small
    have digits := dumpDigits_eq 63 number [] (by rw [Int.natAbs_natCast]; omega)
    refine ⟨decimalText number, ?_, isWhole_decimalText zero, wholeValue_decimalText number⟩
    rw [if_neg (by omega), digits, ok_bind, if_neg (by omega), Int.natAbs_natCast]
    rfl

/-- A negative number is dumped as a minus and the digits of its absolute value. -/
theorem dumpInteger_negative {number : Nat} (positive : number ≠ 0) (small : number ≤ 2 ^ 63) :
    ∃ digits, dumpInteger (-number) = .ok (0x2d :: digits) ∧ IsWhole digits ∧
      wholeValue digits = number := by
  -- The minus is put behind the digits before they are reversed.
  have absolute : (-(number : Int)).natAbs = number := by omega
  have length := @length_digits_le number (by omega)
  have digits := dumpDigits_eq 63 (-number) [] (by rw [absolute]; omega)
  refine ⟨decimalText number, ?_, isWhole_decimalText positive, wholeValue_decimalText number⟩
  rw [dumpInteger, if_neg (by omega), digits, ok_bind, if_pos (by omega), absolute, if_pos]
  · simp [decimalText]
  · rw [List.nil_append, List.length_map]
    omega

section Reading

variable (strtod : Chars → UInt64)

/-- What is dumped for an unsigned number is a text of it. -/
theorem dumpInteger_unsigned (value : UInt64) :
    ∃ text, dumpInteger value.toNat = .ok text ∧
      IsNumber strtod text (.numberUnsigned value) := by
  obtain ⟨digits, dumped, whole, same⟩ := dumpInteger_natural value.toNat_lt
  have number := @IsNumber.unsigned strtod digits whole (by rw [same]; exact value.toNat_lt)
  rw [same, UInt64.ofNat_toNat] at number
  exact ⟨digits, dumped, number⟩

/-- What is dumped for a signed number is a text of its canonical form. -/
theorem dumpInteger_signed (value : Int64) :
    ∃ text, dumpInteger value.toInt = .ok text ∧
      IsNumber strtod text (BasicJson.numberInteger value).canonicalLeaf := by
  have zero : Int64.toInt 0 = 0 := rfl
  rw [BasicJson.canonicalLeaf]
  split
  · next positive =>
    have sign := Int64.le_iff_toInt_le.mp positive
    rw [zero] at sign
    -- A number that is not negative is written like an unsigned one, and read as one.
    obtain ⟨digits, dumped, whole, same⟩ := dumpInteger_natural (toInt_toNat_lt value)
    rw [Int.toNat_of_nonneg sign] at dumped
    have number := @IsNumber.unsigned strtod digits whole
      (by rw [same]; exact toInt_toNat_lt value)
    rw [same, ofNat_toInt_toNat positive] at number
    exact ⟨digits, dumped, number⟩
  · next negative =>
    rw [Int64.le_iff_toInt_le, zero] at negative
    -- The absolute value of the lowest number fits, as the sign is read apart.
    have lowest := value.le_toInt
    have absolute : -(value.toInt.natAbs : Int) = value.toInt := by omega
    obtain ⟨digits, dumped, whole, same⟩ :=
      @dumpInteger_negative value.toInt.natAbs (by omega) (by omega)
    have number := @IsNumber.integer strtod digits whole (by rw [same]; omega)
    rw [same, absolute, Int64.ofInt_toInt] at number
    rw [absolute] at dumped
    exact ⟨_, dumped, number⟩

end Reading

/--
What `snprintf` prints for a finite double with `%.15g`, as far as it matters here: the text of a
number with a small letter in front of its exponent, short enough for the buffer.
-/
structure IsPrinted (text : Chars) : Prop where
  short : text.length < 64
  number : ∃ sign digits fraction exponent, text = sign ++ (digits ++ (fraction ++ exponent)) ∧
    (sign = [] ∨ sign = [0x2d]) ∧ IsWhole digits ∧ IsFraction fraction ∧ IsExponent exponent
  small : 0x45 ∉ text

/-- Digits have neither a point nor the letter of an exponent among them. -/
theorem AllDigits.not_mem {digits : Chars} (all : AllDigits digits) :
    0x2e ∉ digits ∧ 0x65 ∉ digits := by
  constructor
  · intro member
    exact absurd (mem_decimalDigits.mp (all _ member)) (by decide)
  · intro member
    exact absurd (mem_decimalDigits.mp (all _ member)) (by decide)

/-- A whole number gets a fraction, and any other text of a double stays as it is. -/
theorem IsPrinted.isNumber {text : Chars} (printed : IsPrinted text) (strtod : Chars → UInt64) :
    IsNumber strtod (floatText text) (.numberFloat (strtod (floatText text))) := by
  obtain ⟨sign, digits, fraction, exponent, rfl, signed, whole, point, power⟩ := printed.number
  have small := printed.small
  have plain := (IsWhole.allDigits whole).not_mem
  rw [floatText]
  by_cases broken : fraction ++ exponent = []
  · -- There is nothing but a sign and digits.
    obtain ⟨rfl, rfl⟩ := List.append_eq_nil_iff.mp broken
    have none : ((sign ++ (digits ++ ([] ++ []))).any fun byte =>
        decide (byte = 0x2e ∨ byte = 0x65)) = false := by
      rw [List.any_eq_false]
      intro byte member
      rcases signed with rfl | rfl <;> grind
    -- A fraction of zero makes it the text of a double.
    have number := @IsNumber.float strtod sign digits [0x2e, 0x30] [] signed whole
      (.inr ⟨[0x30], rfl, by simp, by simp [AllDigits, Lexer.IsDigit]⟩) (.inl rfl) (by simp)
    rw [if_neg (by rw [none]; simp)]
    simpa [Chars.ofString] using number
  · have some_ : ((sign ++ (digits ++ (fraction ++ exponent))).any fun byte =>
        decide (byte = 0x2e ∨ byte = 0x65)) = true := by
      rw [List.any_eq_true]
      -- The point or the letter is what the loop looks for.
      rcases point with rfl | ⟨more, rfl, _⟩
      · rcases power with rfl | ⟨letter, more, rfl, letters, _⟩
        · exact absurd rfl broken
        · refine ⟨letter, by simp, ?_⟩
          rcases letters with rfl | rfl
          · rfl
          · exact absurd (by simp) small
      · exact ⟨0x2e, by simp, rfl⟩
    rw [if_pos some_]
    exact .float signed whole point power broken

/-- A printed text is not empty, as it has digits. -/
theorem IsPrinted.length_pos {text : Chars} (printed : IsPrinted text) : text.length ≠ 0 := by
  obtain ⟨sign, digits, fraction, exponent, rfl, _, whole, _⟩ := printed.number
  rcases whole with rfl | ⟨digit, rest, rfl, _⟩ <;> simp

/-! Values. -/

namespace BasicJson

/-- A value that a text can tell: strings are in UTF-8, members are ordered, nothing is discarded. -/
def Textual : BasicJson → Prop
  | .object members => SortedMap.Sorted members ∧ ∀ entry ∈ members, Utf8.Valid entry.1
  | .string text => Utf8.Valid text
  | .discarded => False
  | _ => True

/-- What is read for a leaf that was dumped. -/
def rereadLeaf (strtod : Chars → UInt64) (snprintf : UInt64 → Chars) : BasicJson → BasicJson
  | .numberFloat bits =>
    if isFinite bits then .numberFloat (strtod (floatText (snprintf bits))) else .null
  | json => json.canonicalLeaf

/--
What is read for a value that was dumped.

A double comes back as `strtod` reads what `snprintf` printed of it, and one that is not finite as
`null`. Whole numbers that are not negative come back unsigned.
-/
def reread (strtod : Chars → UInt64) (snprintf : UInt64 → Chars) (json : BasicJson) : BasicJson :=
  json.mapLeaves (rereadLeaf strtod snprintf)

/-- What is read has the members in their order, so that it is the value of its own tree. -/
theorem settled_reread (strtod : Chars → UInt64) (snprintf : UInt64 → Chars) {json : BasicJson}
    (textual : json.Every Textual) :
    (json.reread strtod snprintf).settled = json.reread strtod snprintf := by
  induction json using BasicJson.induct with
  | object members ih =>
    obtain ⟨⟨sorted, _⟩, inside⟩ := every_object.mp textual
    have same : members.map (fun entry => (entry.1, (entry.2.reread strtod snprintf).settled)) =
        members.map fun entry => (entry.1, entry.2.reread strtod snprintf) :=
      List.map_congr_left fun entry member => by rw [ih entry member (inside entry member)]
    rw [reread, mapLeaves_object, settled_object, List.map_map]
    show object (SortedMap.firsts (members.map fun entry =>
      (entry.1, (entry.2.reread strtod snprintf).settled))) = _
    rw [same, SortedMap.firsts_of_sorted (sorted_map _ sorted)]
    rfl
  | array elements ih =>
    obtain ⟨_, inside⟩ := every_array.mp textual
    rw [reread, mapLeaves_array, settled_array, List.map_map]
    congr 1
    exact List.map_congr_left fun element member => ih element member (inside element member)
  | numberInteger value =>
    simp only [reread, mapLeaves, rereadLeaf, canonicalLeaf]
    split <;> rw [settled] <;> simp
  | numberFloat bits =>
    simp only [reread, mapLeaves, rereadLeaf]
    split <;> rw [settled] <;> simp
  | _ => simp [reread, mapLeaves, rereadLeaf, canonicalLeaf, settled]

end BasicJson

namespace Serializer

variable {style : Style}

/-- There is room for an indentation, and for the next one if it is at most 512 deeper. -/
def Room (style : Style) (current : Nat) (indentString : Chars) : Prop :=
  style.prettyPrint = true →
    Blank indentString ∧ 512 ≤ indentString.length ∧ current ≤ indentString.length

/-- An indentation that there was room for still has it. -/
def Grows (style : Style) (before after : Chars) : Prop :=
  ∀ current, Room style current before → Room style current after

/-- The start of a line is white space. -/
theorem indentation_blank {current : Nat} {indentString : Chars}
    (room : Room style current indentString) :
    ∃ indent, indentation style current indentString = .ok (indent, indentString) ∧
      Blank indent := by
  rw [indentation]
  by_cases pretty : style.prettyPrint = true
  · obtain ⟨blank, _, reaches⟩ := room pretty
    -- The terminator is not reached, as there is room.
    refine ⟨indentString.take current, ?_, fun byte member => blank byte (List.mem_of_mem_take member)⟩
    rw [if_pos pretty]
    show (if current ≤ indentString.length + 1 then _ else _ : Serializing Chars) indentString = _
    rw [if_pos (by omega), List.take_append_of_le_length reaches]
    rfl
  · exact ⟨[], by rw [if_neg pretty]; rfl, by simp [Blank]⟩

/-- The indentation inside an array or object, for which doubling once is enough. -/
theorem openIndent_room (bounded : style.indentStep ≤ 512) {current : Nat} {indentString : Chars}
    (room : Room style current indentString) :
    ∃ inner after, openIndent style current indentString = .ok (inner, after) ∧
      Room style inner after ∧ Grows style indentString after := by
  rw [openIndent]
  by_cases pretty : style.prettyPrint = true
  · obtain ⟨blank, long, reaches⟩ := room pretty
    -- The sum is one of 32 bits, and only becomes smaller if it wraps.
    have wrapped := Nat.mod_le (current + style.indentStep) (2 ^ 32)
    -- What is added are spaces, whatever the indentation character is.
    have doubled : Blank (indentString ++ List.replicate indentString.length 0x20) :=
      List.forall_mem_append.mpr ⟨blank, fun byte member => .inl (List.eq_of_mem_replicate member)⟩
    rw [if_pos pretty]
    refine ⟨(current + style.indentStep) % 2 ^ 32, _, rfl, fun _ => ?_, fun other roomy _ => ?_⟩
    · simp only
      split
      · refine ⟨doubled, ?_, ?_⟩ <;> rw [List.length_append, List.length_replicate] <;> omega
      · exact ⟨blank, long, by omega⟩
    · have reaches' := (roomy pretty).2.2
      simp only
      split
      · refine ⟨doubled, ?_, ?_⟩ <;> rw [List.length_append, List.length_replicate] <;> omega
      · exact roomy pretty
  · exact ⟨current, indentString, by rw [if_neg pretty]; rfl, room, fun _ => id⟩

/-- Code that returns with what holds of its result, and leaves room for what had it. -/
def Yields {α : Type} (style : Style) (code : Serializing α) (indentString : Chars)
    (P : α → Chars → Prop) : Prop :=
  ∃ value after, code indentString = .ok (value, after) ∧ P value after ∧
    Grows style indentString after

/-- Code in sequence. -/
theorem Yields.bind {α β : Type} {code : Serializing α} {next : α → Serializing β}
    {indentString : Chars} {P : α → Chars → Prop} {Q : β → Chars → Prop}
    (first : Yields style code indentString P)
    (second : ∀ value after, P value after → Grows style indentString after →
      Yields style (next value) after Q) :
    Yields style (code >>= next) indentString Q := by
  obtain ⟨value, middle, run, here, grows⟩ := first
  obtain ⟨result, after, rerun, there, grows'⟩ := second value middle here grows
  -- What had room before the first part has it behind the second.
  refine ⟨result, after, ?_, there, fun current room => grows' current (grows current room)⟩
  show (code indentString >>= fun ended => next ended.1 ended.2) = _
  rw [run, ok_bind, rerun]

/-- What is known of the result may be weakened. -/
theorem Yields.imp {α : Type} {code : Serializing α} {indentString : Chars}
    {P Q : α → Chars → Prop} (yields : Yields style code indentString P)
    (weaker : ∀ value after, P value after → Q value after) :
    Yields style code indentString Q := by
  obtain ⟨value, after, run, holds, grows⟩ := yields
  exact ⟨value, after, run, weaker value after holds, grows⟩

/-- Returning changes nothing. -/
theorem yields_pure {α : Type} {value : α} {indentString : Chars} {P : α → Chars → Prop}
    (holds : P value indentString) : Yields style (pure value) indentString P :=
  ⟨value, indentString, rfl, holds, fun _ => id⟩

/-- The start of a line. -/
theorem yields_indentation {current : Nat} {indentString : Chars}
    (room : Room style current indentString) :
    Yields style (indentation style current) indentString fun indent _ => Blank indent := by
  obtain ⟨indent, run, blank⟩ := indentation_blank room
  exact ⟨indent, indentString, run, blank, fun _ => id⟩

/-- A string is written between quotation marks. -/
theorem yields_dumpString {text indentString : Chars} (valid : Utf8.Valid text) :
    Yields style (dumpString style text) indentString fun written _ =>
      ∃ inside chars, written = 0x22 :: (inside ++ [0x22]) ∧ SpellsAll inside chars ∧
        text = Utf8.bytes chars := by
  obtain ⟨chars, rfl⟩ := valid
  obtain ⟨inside, dumped, spelled⟩ := dumpEscaped_spells style.ensureAscii chars
  refine ⟨_, indentString, ?_, ⟨inside, chars, rfl, spelled, rfl⟩, fun _ => id⟩
  rw [dumpString, dumped]
  rfl

/-- A line break is white space. -/
theorem blank_lineBreak : Blank (lineBreak style) := by
  rw [lineBreak]
  split <;> simp [Blank, IsSpace]

/-- A value is dumped as a text of what is read for it, whatever the indentation. -/
def Dumps (strtod : Chars → UInt64) (style : Style) (json : BasicJson) : Prop :=
  ∀ current indentString, Room style current indentString →
    Yields style (dumpValue style json current) indentString fun text _ =>
      Writes strtod text (json.reread strtod style.snprintf)

section Lists

variable {strtod : Chars → UInt64}

/-- The elements of an array, with any white space around them. -/
theorem yields_dumpElements {elements : List BasicJson} (filled : elements ≠ [])
    (dumps : ∀ element ∈ elements, Dumps strtod style element) {inner : Nat} {indentString : Chars}
    (room : Room style inner indentString) :
    Yields style (dumpElements style elements inner) indentString fun text _ =>
      ∀ before behind, Blank before → Blank behind →
        WritesElements strtod (before ++ (text ++ (behind ++ [0x5d])))
          (elements.map (BasicJson.reread strtod style.snprintf)) := by
  -- The induction is over the elements, as each of them may let the indentation grow.
  induction elements generalizing indentString with
  | nil => exact absurd rfl filled
  | cons element rest ih =>
    rw [dumpElements]
    apply (yields_indentation room).bind
    intro indent after blank grows
    have room := grows inner room
    apply (dumps element (by simp) inner after room).bind
    intro written after writes grows
    have room := grows inner room
    cases rest with
    | nil =>
      rw [dumpElements]
      apply (yields_pure rfl : Yields style _ _ fun later _ => later = []).bind
      intro later after _ _
      refine yields_pure fun before behind blank' blank'' => ?_
      -- Behind the last element there is no comma.
      have last := WritesElements.last (List.forall_mem_append.mpr ⟨blank', blank⟩) writes blank''
      simpa using last
    | cons next rest =>
      apply (ih (by simp) (fun later member => dumps later (by simp [member])) room).bind
      intro later after others _
      refine yields_pure fun before behind blank' blank'' => ?_
      have nothing : Blank [] := by simp [Blank]
      -- The line break behind the comma is the white space in front of the next element.
      have cons := WritesElements.cons (List.forall_mem_append.mpr ⟨blank', blank⟩) writes nothing
        (others (lineBreak style) behind blank_lineBreak blank'')
      simpa using cons

/-- The members of an object, with any white space around them. -/
theorem yields_dumpMembers {members : List (Chars × BasicJson)} (filled : members ≠ [])
    (valid : ∀ entry ∈ members, Utf8.Valid entry.1)
    (dumps : ∀ entry ∈ members, Dumps strtod style entry.2) {inner : Nat} {indentString : Chars}
    (room : Room style inner indentString) :
    Yields style (dumpMembers style members inner) indentString fun text _ =>
      ∀ before behind, Blank before → Blank behind →
        WritesMembers strtod (before ++ (text ++ (behind ++ [0x7d])))
          (members.map fun entry => (entry.1, entry.2.reread strtod style.snprintf)) := by
  -- As for elements, with the key and the colon in front of the value.
  induction members generalizing indentString with
  | nil => exact absurd rfl filled
  | cons entry rest ih =>
    obtain ⟨key, value⟩ := entry
    rw [dumpMembers]
    apply (yields_indentation room).bind
    intro indent after blank grows
    have room := grows inner room
    apply (yields_dumpString (valid (key, value) (by simp))).bind
    rintro _ after ⟨inside, chars, rfl, spelled, rfl⟩ grows
    have room := grows inner room
    apply (dumps (Utf8.bytes chars, value) (by simp) inner after room).bind
    intro written after writes grows
    have room := grows inner room
    have nothing : Blank [] := by simp [Blank]
    -- The member that is written, behind any white space.
    have member (before : Chars) (blank' : Blank before) :
        WritesMember strtod (before ++ indent ++ (0x22 :: (inside ++ [0x22]) ++
          (colon style ++ written))) (Utf8.bytes chars) (value.reread strtod style.snprintf) := by
      have start := List.forall_mem_append.mpr ⟨blank', blank⟩
      rw [colon]
      split
      · have space : Blank [0x20] := by simp [Blank, IsSpace]
        exact .mk start spelled nothing space writes
      · exact .mk start spelled nothing nothing writes
    cases rest with
    | nil =>
      rw [dumpMembers]
      apply (yields_pure rfl : Yields style _ _ fun later _ => later = []).bind
      intro later after _ _
      refine yields_pure fun before behind blank' blank'' => ?_
      simpa using WritesMembers.last (member before blank') blank''
    | cons next rest =>
      apply (ih (by simp) (fun later among => valid later (by simp [among]))
        (fun later among => dumps later (by simp [among])) room).bind
      intro later after others _
      refine yields_pure fun before behind blank' blank'' => ?_
      simpa using WritesMembers.cons (member before blank') nothing
        (others (lineBreak style) behind blank_lineBreak blank'')

/-- An array or object that is not empty: its lines stand between brackets, deeper than those. -/
theorem yields_container {opening closing : UInt8} {lines : Nat → Serializing Chars}
    (P : Chars → Prop) (bounded : style.indentStep ≤ 512) {current : Nat} {indentString : Chars}
    (room : Room style current indentString)
    (inside : ∀ inner indentString, Room style inner indentString →
      Yields style (lines inner) indentString fun text _ =>
        ∀ before behind, Blank before → Blank behind →
          P (before ++ (text ++ (behind ++ [closing])))) :
    Yields style (do
      let inner ← openIndent style current
      let written ← lines inner
      return opening :: (lineBreak style ++ (written ++
        (lineBreak style ++ ((← indentation style current) ++ [closing]))))) indentString
      fun text _ => ∃ rest, text = opening :: rest ∧ P rest := by
  obtain ⟨inner, middle, opened, deeper, grows⟩ := openIndent_room bounded room
  have start : Yields style (openIndent style current) indentString fun value after =>
      value = inner ∧ after = middle := ⟨inner, middle, opened, ⟨rfl, rfl⟩, grows⟩
  apply start.bind
  rintro _ _ ⟨rfl, rfl⟩ grows
  apply (inside _ _ deeper).bind
  intro written after writes grows'
  -- The closing bracket is on a line of its own, with the indentation from outside.
  apply (yields_indentation (grows' _ (grows _ room))).bind
  intro indent _ blank _
  refine yields_pure ⟨_, rfl, ?_⟩
  have ending := List.forall_mem_append.mpr ⟨@blank_lineBreak style, blank⟩
  simpa using writes (lineBreak style) (lineBreak style ++ indent) blank_lineBreak ending

/-- An array is a list of elements between brackets. -/
theorem dumps_array {elements : List BasicJson} (bounded : style.indentStep ≤ 512)
    (dumps : ∀ element ∈ elements, Dumps strtod style element) :
    Dumps strtod style (.array elements) := by
  intro current indentString room
  have reread : (BasicJson.array elements).reread strtod style.snprintf =
      .array (elements.map (BasicJson.reread strtod style.snprintf)) :=
    BasicJson.mapLeaves_array _ _
  rw [dumpValue, reread]
  cases elements with
  | nil => exact yields_pure (@Writes.emptyArray strtod [] (by simp [Blank]))
  | cons element rest =>
    rw [List.isEmpty_cons]
    apply (yields_container (WritesElements strtod · _) bounded room fun _ _ room =>
      yields_dumpElements (by simp) dumps room).imp
    rintro _ _ ⟨text, rfl, elements⟩
    exact .array elements

/-- An object is a list of members between braces. -/
theorem dumps_object {members : List (Chars × BasicJson)} (bounded : style.indentStep ≤ 512)
    (valid : ∀ entry ∈ members, Utf8.Valid entry.1)
    (dumps : ∀ entry ∈ members, Dumps strtod style entry.2) :
    Dumps strtod style (.object members) := by
  intro current indentString room
  have reread : (BasicJson.object members).reread strtod style.snprintf =
      .object (members.map fun entry => (entry.1, entry.2.reread strtod style.snprintf)) :=
    BasicJson.mapLeaves_object _ _
  rw [dumpValue, reread]
  cases members with
  | nil => exact yields_pure (@Writes.emptyObject strtod [] (by simp [Blank]))
  | cons entry rest =>
    rw [List.isEmpty_cons]
    apply (yields_container (WritesMembers strtod · _) bounded room fun _ _ room =>
      yields_dumpMembers (by simp) valid dumps room).imp
    rintro _ _ ⟨text, rfl, members⟩
    exact .object members

/-- A value of another kind is dumped without regard to the indentation. -/
theorem dumps_scalar {json : BasicJson} {text : Chars}
    (dumped : ∀ current, dumpValue style json current = (pure text : Serializing Chars))
    (written : IsScalar strtod text (json.reread strtod style.snprintf)) :
    Dumps strtod style json := by
  intro current indentString _
  rw [dumped]
  exact yields_pure (.scalar written)

/-- Every value that a text can tell is dumped as a text of what is read for it. -/
theorem dumps_value (bounded : style.indentStep ≤ 512)
    (printed : ∀ bits, isFinite bits = true → IsPrinted (style.snprintf bits)) {json : BasicJson}
    (textual : json.Every BasicJson.Textual) : Dumps strtod style json := by
  -- The induction is over the value, for all indentations at once.
  induction json using BasicJson.induct with
  | object members ih =>
    obtain ⟨⟨_, valid⟩, inside⟩ := BasicJson.every_object.mp textual
    exact dumps_object bounded valid fun entry member => ih entry member (inside entry member)
  | array elements ih =>
    obtain ⟨_, inside⟩ := BasicJson.every_array.mp textual
    exact dumps_array bounded fun element member => ih element member (inside element member)
  | string text =>
    intro current indentString _
    obtain ⟨written, after, run, ⟨inside, chars, rfl, spelled, rfl⟩, grows⟩ :=
      @yields_dumpString style text indentString textual
    exact ⟨_, after, run, .scalar (.string spelled), grows⟩
  | null => exact dumps_scalar (fun _ => rfl) .literalNull
  | boolean value =>
    cases value with
    | false => exact dumps_scalar (fun _ => rfl) .literalFalse
    | true => exact dumps_scalar (fun _ => rfl) .literalTrue
  | numberUnsigned value =>
    obtain ⟨text, dumped, number⟩ := dumpInteger_unsigned strtod value
    refine dumps_scalar (fun _ => ?_) (.number number)
    rw [dumpValue, dumped]
    rfl
  | numberInteger value =>
    obtain ⟨text, dumped, number⟩ := dumpInteger_signed strtod value
    refine dumps_scalar (fun _ => ?_) (.number number)
    rw [dumpValue, dumped]
    rfl
  | numberFloat bits =>
    by_cases finite : isFinite bits = true
    · have here := printed bits finite
      have leaf : (BasicJson.numberFloat bits).reread strtod style.snprintf =
          .numberFloat (strtod (floatText (style.snprintf bits))) := if_pos finite
      refine @dumps_scalar style strtod _ (floatText (style.snprintf bits)) (fun _ => ?_) ?_
      · -- What is printed fits the buffer, so that no assertion fails.
        have fits : ¬((style.snprintf bits).length = 0 ∨ 64 ≤ (style.snprintf bits).length) := by
          have short := here.short
          have long := here.length_pos
          omega
        rw [dumpValue, dumpFloat, if_pos finite, if_neg fits]
        rfl
      · rw [leaf]
        exact .number (here.isNumber strtod)
    · have leaf : (BasicJson.numberFloat bits).reread strtod style.snprintf = .null :=
        if_neg finite
      refine @dumps_scalar style strtod _ (Chars.ofString "null") (fun _ => ?_) ?_
      · rw [dumpValue, dumpFloat, if_neg finite]
        rfl
      · rw [leaf]
        exact .literalNull
  | discarded => exact absurd textual id

end Lists

end Serializer

/--
What `dump` writes for a value, in any layout, is read back by `parse`.

A double is the one that `strtod` makes of its fifteen digits. For the largest doubles that may be
none, and then the text is refused.
-/
theorem parse_dump {snprintf : UInt64 → Chars}
    (printed : ∀ bits, isFinite bits = true → IsPrinted (snprintf bits)) {json : BasicJson}
    (textual : json.Every BasicJson.Textual) {indent : Int} {indentChar : UInt8}
    (layout : 0 ≤ indent → indent ≤ 512 ∧ IsSpace indentChar) (ensureAscii : Bool)
    (strtod : Chars → UInt64) :
    ∃ text, dump snprintf json indent indentChar ensureAscii = .ok text ∧
      ((json.reread strtod snprintf).Every BasicJson.IsFinite →
        parse (plain strtod) () text = .ok (json.reread strtod snprintf, ())) ∧
      (¬(json.reread strtod snprintf).Every BasicJson.IsFinite →
        ∃ whatArg, parse (plain strtod) () text = .error (.thrown (.outOfRange 406 whatArg))) := by
  -- The string for the indentation starts with 512 characters.
  have room : Room ⟨0 ≤ indent, ensureAscii, indent.toNat, snprintf⟩ 0
      (List.replicate 512 indentChar) := by
    intro pretty
    have space := (layout (of_decide_eq_true pretty)).2
    refine ⟨fun byte member => ?_, by rw [List.length_replicate], Nat.zero_le _⟩
    rwa [List.eq_of_mem_replicate member]
  have bounded : indent.toNat ≤ 512 := by
    by_cases pretty : 0 ≤ indent
    · have := (layout pretty).1
      omega
    · omega
  obtain ⟨text, after, run, writes, _⟩ :=
    @dumps_value ⟨0 ≤ indent, ensureAscii, indent.toNat, snprintf⟩ strtod bounded printed json
      textual 0 _ room
  have nothing : Blank [] := by simp [Blank]
  -- The text is the value alone, with nothing around it.
  have isDocument : IsDocument strtod text (json.reread strtod snprintf) :=
    ⟨[], text, rfl, .inl rfl, [], text, [], [], by simp, nothing, writes, nothing, rfl⟩
  refine ⟨text, by rw [dump, run]; rfl, ?_, parse_overflow isDocument⟩
  intro finite
  have parsed := parse_settled ⟨isDocument, finite⟩
  rwa [BasicJson.settled_reread strtod snprintf textual] at parsed

/-- A value with a character of two bytes, a signed number and a double that is not finite. -/
theorem parse_dump_pretty :
    ∃ text, dump (fun _ => [0x31]) (.object [([0x61], .array [.string [0xc3, 0xa9],
        .numberInteger 5, .numberFloat infinity])]) 2 0x20 true = .ok text ∧
      parse (plain fun _ => 0) () text = .ok (.object [([0x61], .array [.string [0xc3, 0xa9],
        .numberUnsigned 5, .null])], ()) := by
  have printed : IsPrinted [0x31] :=
    ⟨by simp, ⟨[], [0x31], [], [], rfl, .inl rfl, .inr ⟨0x31, [], rfl, by simp [Lexer.IsDigit],
      by simp, by simp [AllDigits]⟩, .inl rfl, .inl rfl⟩, by simp⟩
  -- The only text in it is the character é, and the only key is the letter a.
  have textual : (BasicJson.object [([0x61], .array [.string [0xc3, 0xa9], .numberInteger 5,
      .numberFloat infinity])]).Every BasicJson.Textual := by
    refine ⟨⟨by simp [SortedMap.Sorted], ?_⟩, ⟨trivial, ⟨['é'], rfl⟩, trivial, trivial, trivial⟩,
      trivial⟩
    intro entry member
    rw [List.mem_singleton.mp member]
    exact ⟨['a'], rfl⟩
  obtain ⟨text, dumped, parsed, _⟩ := @parse_dump (fun _ => [0x31]) (fun _ _ => printed) _ textual
    2 0x20 (fun _ => ⟨by decide, .inl rfl⟩) true fun _ => 0
  refine ⟨text, dumped, parsed ?_⟩
  exact ⟨trivial, ⟨trivial, trivial, trivial, trivial, trivial⟩, trivial⟩

/-- The bytes of a text that is not UTF-8 may end inside a character, which `ensure_ascii` asserts. -/
example : dump (fun _ => []) (.string [0xc3]) (-1) 0x20 true = .error .assertion := rfl

/-- An indentation beyond the terminator of `indent_string` is read outside of it. -/
theorem indentation_outOfBounds {style : Style} (pretty : style.prettyPrint = true) {current : Nat}
    {indentString : Chars} (beyond : indentString.length + 1 < current) :
    indentation style current indentString = .error .outOfBounds := by
  rw [indentation, if_pos pretty]
  show (if current ≤ indentString.length + 1 then _ else _ : Serializing Chars) indentString = _
  rw [if_neg (by omega)]
  rfl

/--
The indentation string is doubled once for a level, so that an indentation of more than 1025 is read
outside of it at the first level.
-/
theorem dump_outOfBounds {json : BasicJson}
    (filled : (∃ elements, json = .array elements ∧ elements ≠ []) ∨
      ∃ members, json = .object members ∧ members ≠ []) {indent : Int}
    (deep : 1025 < indent ∧ indent < 2 ^ 31) (snprintf : UInt64 → Chars) (indentChar : UInt8)
    (ensureAscii : Bool) :
    dump snprintf json indent indentChar ensureAscii = .error .outOfBounds := by
  let style : Style := ⟨0 ≤ indent, ensureAscii, indent.toNat, snprintf⟩
  let grown : Chars := List.replicate 512 indentChar ++ List.replicate 512 0x20
  have pretty : style.prettyPrint = true := decide_eq_true (by omega)
  -- At the first level the string is doubled to 1024 characters.
  have opened : openIndent style 0 (List.replicate 512 indentChar) =
      .ok (indent.toNat, grown) := by
    have inner : (0 + style.indentStep) % 2 ^ 32 = indent.toNat := by
      show (0 + indent.toNat) % 2 ^ 32 = indent.toNat
      omega
    rw [openIndent, if_pos pretty, inner]
    show Except.ok (indent.toNat, if (List.replicate 512 indentChar).length < indent.toNat then
      List.replicate 512 indentChar ++
        List.replicate (List.replicate 512 indentChar).length 0x20 else _) = _
    rw [List.length_replicate, if_pos (by omega)]
  -- The terminator is one more, and the indentation goes beyond it.
  have outside : indentation style indent.toNat grown = .error .outOfBounds := by
    apply indentation_outOfBounds pretty
    rw [List.length_append, List.length_replicate, List.length_replicate]
    omega
  have faults : dumpValue style json 0 (List.replicate 512 indentChar) =
      .error .outOfBounds := by
    -- The first line inside is written before anything else.
    rcases filled with ⟨elements, rfl, some_⟩ | ⟨members, rfl, some_⟩
    · obtain ⟨element, rest, rfl⟩ := List.exists_cons_of_ne_nil some_
      rw [dumpValue]
      show (openIndent style 0 (List.replicate 512 indentChar) >>= fun ended => _) = _
      rw [opened, ok_bind, dumpElements]
      show ((indentation style indent.toNat grown >>= fun ended => _) >>= fun ended => _) = _
      rw [outside, error_bind, error_bind]
    · obtain ⟨entry, rest, rfl⟩ := List.exists_cons_of_ne_nil some_
      rw [dumpValue]
      show (openIndent style 0 (List.replicate 512 indentChar) >>= fun ended => _) = _
      rw [opened, ok_bind, dumpMembers]
      show ((indentation style indent.toNat grown >>= fun ended => _) >>= fun ended => _) = _
      rw [outside, error_bind, error_bind]
  show (dumpValue style json 0 (List.replicate 512 indentChar)).map Prod.fst = _
  rw [faults]
  rfl

/-- The first indentation that is too long. -/
theorem dump_outOfBounds_1026 :
    dump (fun _ => []) (.array [.null]) 1026 0x20 false = .error .outOfBounds :=
  dump_outOfBounds (.inl ⟨[.null], rfl, by simp⟩) (by decide) _ _ _

end LinuxPro.Json
