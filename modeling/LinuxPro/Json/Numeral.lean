import LinuxPro.Json.Spelling

/-! That `scan_number` reads the numbers of the grammar and nothing else, and what it makes of them. -/

namespace LinuxPro.Json

open Lexer

/-- The decimal digits as bytes. -/
theorem decimalDigits_eq : decimalDigits =
    [0x30, 0x31, 0x32, 0x33, 0x34, 0x35, 0x36, 0x37, 0x38, 0x39] := rfl

/-- The digits that `scan_number` knows are the decimal ones. -/
@[simp] theorem mem_decimalDigits {byte : UInt8} : byte ∈ decimalDigits ↔ IsDigit byte := by
  rw [decimalDigits_eq]
  constructor
  · intro member
    simp only [List.mem_cons, List.not_mem_nil, or_false] at member
    rcases member with rfl | rfl | rfl | rfl | rfl | rfl | rfl | rfl | rfl | rfl <;> decide
  · rintro ⟨low, high⟩
    have same : byte = UInt8.ofNat byte.toNat := by simp
    generalize byte.toNat = number at *
    subst same
    -- The byte is one of ten, by its number.
    interval_cases number <;> simp

/-- The value of a digit is how far it is from zero. -/
theorem idxOf_decimalDigits {byte : UInt8} (digit : IsDigit byte) :
    decimalDigits.idxOf byte = byte.toNat - 0x30 := by
  have member := mem_decimalDigits.mpr digit
  rw [decimalDigits_eq] at member ⊢
  simp only [List.mem_cons, List.not_mem_nil, or_false] at member
  -- There are ten digits, and each stands at the place of its value.
  rcases member with rfl | rfl | rfl | rfl | rfl | rfl | rfl | rfl | rfl | rfl <;> rfl

/-- `strtoull` and `strtoll` give the number that a row of digits writes. -/
theorem decimal_eq {digits : Chars} (all : AllDigits digits) :
    decimal digits = wholeValue digits := by
  -- The induction is on the last digit, which counts least.
  induction digits using List.reverseRecOn with
  | nil => rfl
  | append_singleton digits digit ih =>
    have known : IsDigit digit := mem_decimalDigits.mp (all digit (by simp))
    have before := ih fun byte member => all byte (by simp [member])
    -- Both sides multiply what stands in front by ten and add the digit.
    rw [wholeValue, List.reverse_concat, List.map_cons, Nat.ofDigits_cons, idxOf_decimalDigits known,
      decimal, List.foldl_concat]
    rw [wholeValue, decimal] at before
    rw [before, Nat.add_comm]

/-- The number type of a text with a type so far, followed by a fraction and an exponent. -/
def typeWith (type : NumberType) (suffix : Chars) : NumberType :=
  -- The labels for a point and for an exponent both set it.
  if suffix = [] then type else .float

/-- The text of a number, and the type by which `scan_number` converts it. -/
inductive NumberText : Chars → NumberType → Prop where
  | unsigned {whole fraction exponent : Chars} (digits : IsWhole whole)
      (point : IsFraction fraction) (power : IsExponent exponent) :
      NumberText (whole ++ (fraction ++ exponent)) (typeWith .unsigned (fraction ++ exponent))
  | negative {whole fraction exponent : Chars} (digits : IsWhole whole)
      (point : IsFraction fraction) (power : IsExponent exponent) :
      NumberText (0x2d :: (whole ++ (fraction ++ exponent)))
        (typeWith .integer (fraction ++ exponent))

/-- The value of a token that is a value by itself. -/
def Token.scalar : Token → Option BasicJson
  | .literalNull => some .null
  | .literalTrue => some (.boolean true)
  | .literalFalse => some (.boolean false)
  | .valueString text => some (.string text)
  | .valueUnsigned value => some (.numberUnsigned value)
  | .valueInteger value => some (.numberInteger value)
  | .valueFloat bits => some (.numberFloat bits)
  | _ => none

/-- A whole number is a row of digits. -/
theorem IsWhole.allDigits {digits : Chars} (whole : IsWhole digits) : AllDigits digits := by
  rcases whole with rfl | ⟨digit, rest, rfl, known, _, all⟩
  · intro byte member
    rw [List.mem_singleton.mp member]
    decide
  · exact List.forall_mem_cons.mpr ⟨known, all⟩

/-- What stands in front of a fraction and an exponent that are both left out. -/
theorem IsWhole.numberText {digits : Chars} (whole : IsWhole digits) :
    NumberText digits .unsigned ∧ NumberText (0x2d :: digits) .integer := by
  -- Fraction and exponent may both be empty.
  have plain := NumberText.unsigned whole (.inl rfl) (.inl rfl)
  have signed := NumberText.negative whole (.inl rfl) (.inl rfl)
  simp only [List.append_nil] at plain signed
  exact ⟨plain, signed⟩

/-- What `scan_number` converts its texts to are the values of the numbers of the grammar. -/
theorem isNumber_iff {strtod : Chars → UInt64} {text : Chars} {value : BasicJson} :
    IsNumber strtod text value ↔
      ∃ type, NumberText text type ∧ (scanNumberDone strtod type text).scalar = some value := by
  constructor
  · intro number
    cases number with
    | unsigned whole fits =>
      refine ⟨.unsigned, whole.numberText.1, ?_⟩
      simp only [scanNumberDone, decimal_eq whole.allDigits, if_pos fits, Token.scalar]
    | integer whole fits =>
      refine ⟨.integer, whole.numberText.2, ?_⟩
      simp only [scanNumberDone, List.tail_cons, decimal_eq whole.allDigits, if_pos fits,
        Token.scalar]
    | large whole large =>
      refine ⟨.unsigned, whole.numberText.1, ?_⟩
      simp only [scanNumberDone, decimal_eq whole.allDigits, if_neg (not_lt.mpr large),
        Token.scalar]
    | low whole low =>
      refine ⟨.integer, whole.numberText.2, ?_⟩
      simp only [scanNumberDone, List.tail_cons, decimal_eq whole.allDigits,
        if_neg (not_le.mpr low), Token.scalar]
    | float signed whole point power broken =>
      refine ⟨.float, ?_, rfl⟩
      -- With a fraction or an exponent the number type no longer depends on the sign.
      rcases signed with rfl | rfl
      · simpa [typeWith, broken] using NumberText.unsigned whole point power
      · simpa [typeWith, broken] using NumberText.negative whole point power
  · rintro ⟨type, number, known⟩
    cases number with
    | @unsigned whole fraction exponent digits point power =>
      by_cases broken : fraction ++ exponent = []
      · rw [typeWith, if_pos broken, broken, List.append_nil] at known
        rw [broken, List.append_nil]
        simp only [scanNumberDone, decimal_eq digits.allDigits] at known
        -- Without a suffix it depends on whether there is room for the number.
        split_ifs at known with fits <;> cases known
        · exact .unsigned digits fits
        · exact .large digits (not_lt.mp fits)
      · rw [typeWith, if_neg broken] at known
        cases known
        -- With one it is a double.
        exact .float (.inl rfl) digits point power broken
    | @negative whole fraction exponent digits point power =>
      by_cases broken : fraction ++ exponent = []
      · rw [typeWith, if_pos broken, broken, List.append_nil] at known
        rw [broken, List.append_nil]
        simp only [scanNumberDone, List.tail_cons, decimal_eq digits.allDigits] at known
        split_ifs at known with fits <;> cases known
        · exact .integer digits fits
        · exact .low digits (not_le.mp fits)
      · rw [typeWith, if_neg broken] at known
        cases known
        exact .float (.inr rfl) digits point power broken

/-- Where a text leads from a label of `scan_number`, and the number type there. -/
def Lexer.NumberState.run : NumberState → NumberType → Chars → Option (NumberState × NumberType)
  | state, type, [] => some (state, state.numberType type)
  | state, type, byte :: text =>
    (state.next byte).bind fun next => next.run (state.numberType type) text

/-- A text leads from a label to one where the number may end. -/
def Accepts (state : NumberState) (type : NumberType) (text : Chars) (final : NumberType) : Prop :=
  ∃ last, state.run type text = some (last, final) ∧ last.message = none

/-- A number may end where there is no message for that. -/
theorem accepts_nil {state : NumberState} {type final : NumberType} :
    Accepts state type [] final ↔ state.message = none ∧ final = state.numberType type := by
  simp only [Accepts, NumberState.run, Option.some.injEq, Prod.mk.injEq]
  constructor
  · rintro ⟨last, ⟨rfl, rfl⟩, ends⟩
    exact ⟨ends, rfl⟩
  · rintro ⟨ends, rfl⟩
    exact ⟨state, ⟨rfl, rfl⟩, ends⟩

/-- A number goes on with a byte that the state knows. -/
theorem accepts_cons {state : NumberState} {type final : NumberType} {byte : UInt8} {text : Chars} :
    Accepts state type (byte :: text) final ↔
      ∃ next, state.next byte = some next ∧ Accepts next (state.numberType type) text final := by
  simp only [Accepts, NumberState.run, Option.bind_eq_some_iff]
  constructor
  · rintro ⟨last, ⟨next, goes, run⟩, ends⟩
    exact ⟨next, goes, last, run, ends⟩
  · rintro ⟨next, goes, last, run, ends⟩
    exact ⟨last, ⟨next, goes, run⟩, ends⟩

/-- Behind the first digit of an exponent there are only digits. -/
theorem accepts_any2 {type final : NumberType} {text : Chars} :
    Accepts .any2 type text final ↔ AllDigits text ∧ final = type := by
  -- The label leads to itself, so the induction is over the text.
  induction text with
  | nil => simp [accepts_nil, AllDigits, NumberState.message, NumberState.numberType]
  | cons byte text ih =>
    rw [accepts_cons]
    by_cases digit : IsDigit byte
    · simp [NumberState.next, NumberState.numberType, ih, AllDigits, digit]
    · simp [NumberState.next, AllDigits, digit]

/-- Behind the sign of an exponent there is a digit. -/
theorem accepts_sign {type final : NumberType} {text : Chars} :
    Accepts .sign type text final ↔ text ≠ [] ∧ AllDigits text ∧ final = type := by
  cases text with
  | nil => simp [accepts_nil, NumberState.message]
  | cons byte text =>
    rw [accepts_cons]
    -- The first digit leads to the label for the others.
    by_cases digit : IsDigit byte
    · simp [NumberState.next, NumberState.numberType, accepts_any2, AllDigits, digit]
    · simp [NumberState.next, AllDigits, digit]

/-- A row of digits, by its first one. -/
theorem allDigits_cons {byte : UInt8} {text : Chars} :
    AllDigits (byte :: text) ↔ IsDigit byte ∧ AllDigits text := by
  simp [AllDigits]

/-- What follows the letter of an exponent starts with a sign or a digit. -/
theorem isPower_cons {byte : UInt8} {text : Chars} :
    IsPower (byte :: text) ↔
      (byte = 0x2b ∨ byte = 0x2d) ∧ text ≠ [] ∧ AllDigits text ∨ IsDigit byte ∧ AllDigits text := by
  constructor
  · rintro ⟨sign, digits, equal, rfl | rfl | rfl, some, all⟩
    · -- Without a sign the first byte is a digit.
      rw [List.nil_append] at equal
      exact .inr (allDigits_cons.mp (equal ▸ all))
    · cases equal
      exact .inl ⟨.inl rfl, some, all⟩
    · cases equal
      exact .inl ⟨.inr rfl, some, all⟩
  · rintro (⟨rfl | rfl, some, all⟩ | all)
    · exact ⟨[0x2b], text, rfl, .inr (.inl rfl), some, all⟩
    · exact ⟨[0x2d], text, rfl, .inr (.inr rfl), some, all⟩
    · exact ⟨[], byte :: text, rfl, .inl rfl, List.cons_ne_nil _ _, allDigits_cons.mpr all⟩

/-- An exponent starts with its letter. -/
theorem isExponent_cons {byte : UInt8} {text : Chars} :
    IsExponent (byte :: text) ↔ IsLetter byte ∧ IsPower text := by
  constructor
  · rintro (empty | ⟨letter, power, equal, known, rest⟩)
    · cases empty
    · cases equal
      exact ⟨known, rest⟩
  · rintro ⟨known, rest⟩
    exact .inr ⟨byte, text, rfl, known, rest⟩

/-- A fraction starts with its point. -/
theorem isFraction_cons {byte : UInt8} {text : Chars} :
    IsFraction (byte :: text) ↔ byte = 0x2e ∧ text ≠ [] ∧ AllDigits text := by
  constructor
  · rintro (empty | ⟨digits, equal, some, all⟩)
    · cases empty
    · cases equal
      exact ⟨rfl, some, all⟩
  · rintro ⟨rfl, some, all⟩
    exact .inr ⟨text, rfl, some, all⟩

/-- Something has to follow the letter of an exponent. -/
theorem not_isPower_nil : ¬IsPower [] := by
  rintro ⟨sign, digits, equal, _, some, _⟩
  exact some (List.append_eq_nil_iff.mp equal.symm).2

/-- The letter of an exponent is no digit. -/
theorem not_isDigit_of_isLetter {byte : UInt8} (letter : IsLetter byte) : ¬IsDigit byte := by
  rcases letter with rfl | rfl <;> decide

/-- Behind the letter of an exponent. -/
theorem accepts_exponent {type final : NumberType} {text : Chars} :
    Accepts .exponent type text final ↔ IsPower text ∧ final = .float := by
  cases text with
  | nil => simp [accepts_nil, NumberState.message, not_isPower_nil]
  | cons byte text =>
    rw [accepts_cons, isPower_cons]
    -- The labels follow the two forms: a sign and digits, or digits alone.
    by_cases sign : byte = 0x2b ∨ byte = 0x2d
    · -- No sign is a digit, so that only one of the forms applies.
      have no_digit : ¬IsDigit byte := by rcases sign with rfl | rfl <;> decide
      simp [NumberState.next, NumberState.numberType, sign, accepts_sign, no_digit, and_assoc]
    · by_cases digit : IsDigit byte <;>
        simp [NumberState.next, NumberState.numberType, sign, accepts_any2, digit]

/-- The exponent behind digits, with what it makes of the number type. -/
theorem accepts_decimal2 {type final : NumberType} {text : Chars} :
    Accepts .decimal2 type text final ↔ ∃ digits exponent, text = digits ++ exponent ∧
      AllDigits digits ∧ IsExponent exponent ∧ final = typeWith type exponent := by
  -- The label leads to itself on a digit, and to the exponent on its letter.
  induction text with
  | nil =>
    simp only [accepts_nil, NumberState.message, NumberState.numberType, true_and]
    constructor
    · rintro rfl
      exact ⟨[], [], rfl, by simp [AllDigits], .inl rfl, rfl⟩
    · rintro ⟨digits, exponent, equal, _, _, rfl⟩
      rw [(List.append_eq_nil_iff.mp equal.symm).2]
      rfl
  | cons byte text ih =>
    rw [accepts_cons]
    constructor
    · rintro ⟨next, goes, rest⟩
      simp only [NumberState.next] at goes
      split_ifs at goes with digit letter
      · cases goes
        -- A digit is put in front of those that the rest has.
        obtain ⟨digits, exponent, rfl, all, power, rfl⟩ := ih.mp rest
        exact ⟨byte :: digits, exponent, rfl, allDigits_cons.mpr ⟨digit, all⟩, power, rfl⟩
      · cases goes
        -- The letter ends the digits.
        obtain ⟨power, rfl⟩ := accepts_exponent.mp rest
        exact ⟨[], byte :: text, rfl, by simp [AllDigits], isExponent_cons.mpr ⟨letter, power⟩, rfl⟩
    · rintro ⟨digits, exponent, equal, all, power, rfl⟩
      cases digits with
      | nil =>
        rw [List.nil_append] at equal
        subst equal
        obtain ⟨letter, power⟩ := isExponent_cons.mp power
        refine ⟨.exponent, ?_, accepts_exponent.mpr ⟨power, rfl⟩⟩
        simp only [NumberState.next]
        -- The letter is tested behind the digits, and it is none of them.
        rw [if_neg (not_isDigit_of_isLetter letter), if_pos letter]
      | cons digit digits =>
        cases equal
        obtain ⟨here, all⟩ := allDigits_cons.mp all
        exact ⟨.decimal2, by simp only [NumberState.next, if_pos here],
          ih.mpr ⟨digits, exponent, rfl, all, power, rfl⟩⟩

/-- Behind the point there is a digit. -/
theorem accepts_decimal1 {type final : NumberType} {text : Chars} :
    Accepts .decimal1 type text final ↔ ∃ digits exponent, text = digits ++ exponent ∧
      digits ≠ [] ∧ AllDigits digits ∧ IsExponent exponent ∧ final = .float := by
  -- The point has made it a double, which an exponent does not change.
  have same (exponent : Chars) : typeWith .float exponent = .float := by simp [typeWith]
  cases text with
  | nil =>
    simp only [accepts_nil, NumberState.message]
    constructor
    · rintro ⟨impossible, _⟩
      cases impossible
    · rintro ⟨digits, exponent, equal, some, _⟩
      -- A point needs a digit behind it.
      exact absurd (List.append_eq_nil_iff.mp equal.symm).1 some
  | cons byte text =>
    rw [accepts_cons]
    constructor
    · rintro ⟨next, goes, rest⟩
      simp only [NumberState.next] at goes
      split_ifs at goes with digit
      cases goes
      obtain ⟨digits, exponent, rfl, all, power, rfl⟩ := accepts_decimal2.mp rest
      exact ⟨byte :: digits, exponent, rfl, List.cons_ne_nil _ _, allDigits_cons.mpr ⟨digit, all⟩,
        power, same exponent⟩
    · rintro ⟨_ | ⟨digit, digits⟩, exponent, equal, some, all, power, rfl⟩
      · exact absurd rfl some
      · cases equal
        obtain ⟨here, all⟩ := allDigits_cons.mp all
        exact ⟨.decimal2, by simp only [NumberState.next, if_pos here],
          accepts_decimal2.mpr ⟨digits, exponent, rfl, all, power, (same exponent).symm⟩⟩

/-- What may follow the whole part of a number. -/
theorem accepts_zero {type final : NumberType} {text : Chars} :
    Accepts .zero type text final ↔ ∃ fraction exponent, text = fraction ++ exponent ∧
      IsFraction fraction ∧ IsExponent exponent ∧ final = typeWith type text := by
  cases text with
  | nil =>
    simp only [accepts_nil, NumberState.message, NumberState.numberType, true_and]
    constructor
    · rintro rfl
      exact ⟨[], [], rfl, .inl rfl, .inl rfl, rfl⟩
    · rintro ⟨_, _, _, _, _, rfl⟩
      rfl
  | cons byte text =>
    rw [accepts_cons]
    constructor
    · rintro ⟨next, goes, rest⟩
      simp only [NumberState.next] at goes
      -- Behind a zero there may be a point, or the letter of an exponent.
      split_ifs at goes with point letter
      · cases goes
        obtain ⟨digits, exponent, rfl, some, all, power, rfl⟩ := accepts_decimal1.mp rest
        exact ⟨byte :: digits, exponent, rfl, isFraction_cons.mpr ⟨point, some, all⟩, power, rfl⟩
      · cases goes
        obtain ⟨power, rfl⟩ := accepts_exponent.mp rest
        exact ⟨[], byte :: text, rfl, .inl rfl, isExponent_cons.mpr ⟨letter, power⟩, rfl⟩
    · rintro ⟨fraction, exponent, equal, point, power, rfl⟩
      cases fraction with
      | nil =>
        rw [List.nil_append] at equal
        subst equal
        obtain ⟨letter, power⟩ := isExponent_cons.mp power
        -- The letter is not the point, which is tested first.
        have no_point : byte ≠ 0x2e := by rcases letter with rfl | rfl <;> decide
        refine ⟨.exponent, ?_, accepts_exponent.mpr ⟨power, rfl⟩⟩
        simp only [NumberState.next]
        rw [if_neg no_point, if_pos letter]
      | cons point_byte digits =>
        cases equal
        obtain ⟨rfl, some, all⟩ := isFraction_cons.mp point
        exact ⟨.decimal1, rfl,
          accepts_decimal1.mpr ⟨digits, exponent, rfl, some, all, power, rfl⟩⟩

/-- Behind a first digit there may be more of them. -/
theorem accepts_any1 {type final : NumberType} {text : Chars} :
    Accepts .any1 type text final ↔ ∃ digits rest, text = digits ++ rest ∧ AllDigits digits ∧
      Accepts .zero type rest final := by
  induction text with
  | nil =>
    constructor
    · intro ends
      refine ⟨[], [], rfl, by simp [AllDigits], ?_⟩
      simpa [accepts_nil, NumberState.message, NumberState.numberType] using ends
    · rintro ⟨digits, rest, equal, _, ends⟩
      rw [(List.append_eq_nil_iff.mp equal.symm).2] at ends
      simpa [accepts_nil, NumberState.message, NumberState.numberType] using ends
  | cons byte text ih =>
    rw [accepts_cons]
    -- On a digit the label leads to itself, and on anything else it is that of a zero.
    by_cases digit : IsDigit byte
    · simp only [NumberState.next, if_pos digit, Option.some.injEq]
      constructor
      · rintro ⟨_, rfl, goes⟩
        obtain ⟨digits, rest, rfl, all, ends⟩ := ih.mp goes
        exact ⟨byte :: digits, rest, rfl, allDigits_cons.mpr ⟨digit, all⟩, ends⟩
      · rintro ⟨_ | ⟨first, digits⟩, rest, equal, all, ends⟩
        · -- The label behind a zero does not go on with a digit.
          rw [List.nil_append] at equal
          subst equal
          obtain ⟨next, goes, _⟩ := accepts_cons.mp ends
          simp only [NumberState.next] at goes
          split_ifs at goes with point letter
          · subst point
            exact absurd digit (by decide)
          · exact absurd digit (not_isDigit_of_isLetter letter)
        · cases equal
          exact ⟨.any1, rfl, ih.mpr ⟨digits, rest, rfl, (allDigits_cons.mp all).2, ends⟩⟩
    · constructor
      · intro goes
        refine ⟨[], byte :: text, rfl, by simp [AllDigits], accepts_cons.mpr ?_⟩
        simpa only [NumberState.next, NumberState.numberType, if_neg digit] using goes
      · rintro ⟨_ | ⟨first, digits⟩, rest, equal, all, ends⟩
        · rw [List.nil_append] at equal
          subst equal
          simpa only [NumberState.next, NumberState.numberType, if_neg digit] using
            accepts_cons.mp ends
        · cases equal
          -- The byte is none of the digits, so there are none.
          exact absurd (allDigits_cons.mp all).1 digit

/-- A whole part starts with a digit. -/
theorem IsWhole.starts {whole : Chars} (digits : IsWhole whole) :
    ∃ digit rest, whole = digit :: rest ∧ IsDigit digit := by
  rcases digits with rfl | ⟨digit, rest, rfl, isDigit, _⟩
  · exact ⟨0x30, [], rfl, by decide⟩
  · exact ⟨digit, rest, rfl, mem_decimalDigits.mp isDigit⟩

/-- A number has a digit. -/
theorem NumberText.ne_nil {text : Chars} {type : NumberType} (number : NumberText text type) :
    text ≠ [] := by
  cases number with
  | unsigned digits =>
    obtain ⟨digit, rest, rfl, _⟩ := digits.starts
    exact List.cons_ne_nil _ _
  | negative => exact List.cons_ne_nil _ _

/-- The whole part of a number and what follows it, from its first digit. -/
theorem accepts_whole {type final : NumberType} {byte : UInt8} {text : Chars} :
    (∃ state, NumberState.minus.next byte = some state ∧ Accepts state type text final) ↔
      ∃ whole fraction exponent, byte :: text = whole ++ (fraction ++ exponent) ∧
        IsWhole whole ∧ IsFraction fraction ∧ IsExponent exponent ∧
        final = typeWith type (fraction ++ exponent) := by
  constructor
  · rintro ⟨state, goes, ends⟩
    simp only [NumberState.next] at goes
    -- The labels for a zero and for another digit are the two forms of the whole part.
    split_ifs at goes with zero digit
    · cases goes
      obtain ⟨fraction, exponent, rfl, point, power, rfl⟩ := accepts_zero.mp ends
      exact ⟨[byte], fraction, exponent, rfl, .inl (by rw [zero]), point, power, rfl⟩
    · cases goes
      obtain ⟨digits, rest, rfl, all, ends⟩ := accepts_any1.mp ends
      obtain ⟨fraction, exponent, rfl, point, power, rfl⟩ := accepts_zero.mp ends
      have known := mem_decimalDigits.mpr digit
      exact ⟨byte :: digits, fraction, exponent, rfl, .inr ⟨byte, digits, rfl, known, zero, all⟩,
        point, power, rfl⟩
  · rintro ⟨_, fraction, exponent, equal, rfl | ⟨digit, digits, rfl, isDigit, zero, all⟩, point,
      power, rfl⟩
    · cases equal
      exact ⟨.zero, rfl, accepts_zero.mpr ⟨fraction, exponent, rfl, point, power, rfl⟩⟩
    · cases equal
      have digit := mem_decimalDigits.mp isDigit
      refine ⟨.any1, by simp only [NumberState.next, if_neg zero, if_pos digit],
        accepts_any1.mpr ⟨digits, _, rfl, all, ?_⟩⟩
      exact accepts_zero.mpr ⟨fraction, exponent, rfl, point, power, rfl⟩

/-- The first character of a number and the rest of it. -/
theorem numberText_cons {byte : UInt8} {text : Chars} {final : NumberType} :
    NumberText (byte :: text) final ↔
      ∃ state, scanNumberInit byte = some state ∧ Accepts state .unsigned text final := by
  -- Without a sign a number starts as it does behind one.
  have init : byte ≠ 0x2d → scanNumberInit byte = NumberState.minus.next byte := by
    intro no_minus
    rw [scanNumberInit, if_neg no_minus]
    rfl
  -- Behind a minus sign the same automaton starts with another number type.
  have minus : Accepts .minus .unsigned text final ↔
      ∃ whole fraction exponent, text = whole ++ (fraction ++ exponent) ∧ IsWhole whole ∧
        IsFraction fraction ∧ IsExponent exponent ∧
        final = typeWith .integer (fraction ++ exponent) := by
    cases text with
    | nil =>
      rw [accepts_nil]
      constructor
      · rintro ⟨impossible, _⟩
        cases impossible
      · rintro ⟨whole, fraction, exponent, equal, digits, _⟩
        obtain ⟨digit, rest, rfl, _⟩ := digits.starts
        cases equal
    | cons byte text => exact accepts_cons.trans accepts_whole
  constructor
  · intro number
    generalize equal : byte :: text = whole_text at number
    cases number with
    | @unsigned whole fraction exponent digits point power =>
      -- A whole part starts with a digit, which the sign is not.
      have no_minus : byte ≠ 0x2d := by
        rintro rfl
        obtain ⟨digit, rest, rfl, isDigit⟩ := digits.starts
        cases equal
        exact absurd isDigit (by decide)
      rw [init no_minus]
      exact accepts_whole.mpr ⟨whole, fraction, exponent, equal, digits, point, power, rfl⟩
    | @negative whole fraction exponent digits point power =>
      cases equal
      exact ⟨.minus, rfl, minus.mpr ⟨whole, fraction, exponent, rfl, digits, point, power, rfl⟩⟩
  · rintro ⟨state, starts, ends⟩
    by_cases sign : byte = 0x2d
    · subst sign
      cases starts
      obtain ⟨whole, fraction, exponent, rfl, digits, point, power, rfl⟩ := minus.mp ends
      exact .negative digits point power
    · rw [init sign] at starts
      obtain ⟨whole, fraction, exponent, equal, digits, point, power, rfl⟩ :=
        accepts_whole.mp ⟨state, starts, ends⟩
      rw [equal]
      exact .unsigned digits point power

namespace Lexer

variable (strtod : Chars → UInt64)

/-- A byte that was read is put back. -/
@[simp] theorem unget_get_left (lexer : Lexer) : lexer.get.unget.left = lexer.left := by
  unfold get
  -- At the end of the text nothing was read, and nothing is put back.
  cases equal : lexer.left <;> simp [unget]

/-- The next character leads from a label to another. -/
theorem scanNumberRound_again {state next : NumberState} {type : NumberType} {lexer : Lexer}
    {byte : UInt8} {rest : Chars} (goes : state.next byte = some next)
    (here : lexer.left = byte :: rest) :
    scanNumberRound strtod (state, type, lexer) =
      .again (next, state.numberType type, lexer.get.add byte) := by
  have read : lexer.get.current = some byte := by simp [here]
  simp only [scanNumberRound, read, goes]

/-- The next character leads nowhere. -/
theorem scanNumberRound_leave {state : NumberState} {type : NumberType} {lexer : Lexer}
    (stops : lexer.left.head?.bind state.next = none) :
    scanNumberRound strtod (state, type, lexer) =
      .leave (scanNumberStop strtod state (state.numberType type) lexer.get) := by
  simp only [scanNumberRound]
  split
  · rfl
  · rename_i byte read
    rw [get_current] at read
    simp only [read, Option.bind_some] at stops
    simp only [stops]

/-- The loop of `scan_number` reads as far as its labels lead. -/
theorem loop_run {text : Chars} {state last : NumberState} {type final : NumberType}
    {lexer : Lexer} {rest : Chars} (run : state.run type text = some (last, final))
    (here : lexer.left = text ++ rest) (stops : rest.head?.bind last.next = none) :
    loop (scanNumberRound_shrinks strtod) (state, type, lexer) =
      scanNumberStop strtod last final ((lexer.reads text.length).addAll text).get := by
  -- The loop makes one round for each byte, and leaves at the first that leads nowhere.
  induction text generalizing state type lexer with
  | nil =>
    cases run
    rw [List.nil_append] at here
    rw [loop_leave _ (scanNumberRound_leave strtod (by rwa [here])), addAll_nil]
    rfl
  | cons byte text ih =>
    obtain ⟨next, goes, run⟩ := Option.bind_eq_some_iff.mp run
    rw [loop_again _ (scanNumberRound_again strtod goes here),
      ih run (by simp [add, here]), ← reads_add]

/-- From every label some beginning of what is left leads as far as possible. -/
theorem exists_run (left : Chars) (state : NumberState) (type : NumberType) :
    ∃ text rest last final, left = text ++ rest ∧ state.run type text = some (last, final) ∧
      rest.head?.bind last.next = none := by
  induction left generalizing state type with
  | nil => exact ⟨[], [], state, state.numberType type, rfl, rfl, rfl⟩
  | cons byte left ih =>
    -- The run stops where the next byte leads nowhere.
    cases goes : state.next byte with
    | none => exact ⟨[], byte :: left, state, state.numberType type, rfl, rfl, goes⟩
    | some next =>
      obtain ⟨text, rest, last, final, rfl, run, stops⟩ := ih next (state.numberType type)
      refine ⟨byte :: text, rest, last, final, rfl, ?_, stops⟩
      rw [NumberState.run, goes]
      exact run

/-- `scan_number` where its labels lead to one at which the number may end. -/
theorem scanNumber_run {byte : UInt8} {text rest : Chars} {state last : NumberState}
    {final : NumberType} {lexer : Lexer} (run : state.run .unsigned text = some (last, final))
    (here : lexer.left = text ++ rest) (stops : rest.head?.bind last.next = none)
    (ends : last.message = none) :
    (scanNumber strtod state byte lexer).1 = scanNumberDone strtod final (byte :: text) ∧
      (scanNumber strtod state byte lexer).2.left = rest := by
  -- The scanner starts with the first byte in its text.
  have start : (lexer.reset.add byte).left = text ++ rest := here
  rw [scanNumber, loop_run strtod run start stops, scanNumberStop, ends]
  constructor
  · simp only [get_yytext, addAll_yytext, reads_yytext]
    rfl
  · simp [start]

/-- `scan_number` reads a number that nothing after it could prolong. -/
theorem scanNumber_of_numberText {byte : UInt8} {text rest : Chars} {final : NumberType}
    {lexer : Lexer} (number : NumberText (byte :: text) final) (here : lexer.left = text ++ rest)
    (stops : ∀ state : NumberState, rest.head?.bind state.next = none) :
    ∃ state, scanNumberInit byte = some state ∧
      (scanNumber strtod state byte lexer).1 = scanNumberDone strtod final (byte :: text) ∧
      (scanNumber strtod state byte lexer).2.left = rest := by
  obtain ⟨state, starts, last, run, ends⟩ := numberText_cons.mp number
  exact ⟨state, starts, scanNumber_run strtod run here (stops last) ends⟩

/-- What `scan_number` gives is an error or the value of a number at the front of the text. -/
theorem scanNumber_cases {byte : UInt8} {state : NumberState} (lexer : Lexer)
    (starts : scanNumberInit byte = some state) :
    (scanNumber strtod state byte lexer).1 = .parseError ∨
      ∃ text rest final, NumberText (byte :: text) final ∧ lexer.left = text ++ rest ∧
        (scanNumber strtod state byte lexer).1 = scanNumberDone strtod final (byte :: text) ∧
        (scanNumber strtod state byte lexer).2.left = rest := by
  obtain ⟨text, rest, last, final, here, run, stops⟩ := exists_run lexer.left state .unsigned
  -- The run has stopped at a label with a message, or at one where a number may end.
  cases ends : last.message with
  | some message =>
    left
    have start : (lexer.reset.add byte).left = text ++ rest := here
    rw [scanNumber, loop_run strtod run start stops, scanNumberStop, ends]
    rfl
  | none =>
    exact .inr ⟨text, rest, final, numberText_cons.mpr ⟨state, starts, last, run, ends⟩, here,
      scanNumber_run strtod run here stops ends⟩

end Lexer

end LinuxPro.Json
