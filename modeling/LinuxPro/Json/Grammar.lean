import LinuxPro.Json.Double
import LinuxPro.Json.Value
import LinuxPro.Lib.Utf8

/-!
The grammar of JSON texts, with the tree of values that each text writes.

It is stated by the characters of a text alone. The only thing it takes as given is `strtod`, the
conversion of the C library from the text of a number to the bits of a double.
-/

namespace LinuxPro.Json

/-! Strings. -/

/-- The hexadecimal digits in the order of their values, with small letters. -/
def lowerHexDigits : Chars := Chars.ofString "0123456789abcdef"

/-- The hexadecimal digits in the order of their values, with capital letters. -/
def upperHexDigits : Chars := Chars.ofString "0123456789ABCDEF"

/-- A hexadecimal digit and its value. -/
def IsHexDigit (byte : UInt8) (value : Nat) : Prop :=
  lowerHexDigits[value]? = some byte ∨ upperHexDigits[value]? = some byte

/-- Four hexadecimal digits and their number. -/
inductive FourHex : Chars → Nat → Prop where
  | mk {a b c d : UInt8} {first second third fourth : Nat} (first_digit : IsHexDigit a first)
      (second_digit : IsHexDigit b second) (third_digit : IsHexDigit c third)
      (fourth_digit : IsHexDigit d fourth) :
      FourHex [a, b, c, d] (first * 4096 + second * 256 + third * 16 + fourth)

/-- The letters behind a backslash, with the code point that each stands for. -/
def shortEscapes : List (UInt8 × Nat) :=
  [(0x22, 0x22), (0x5c, 0x5c), (0x2f, 0x2f), (0x62, 0x08), (0x66, 0x0c), (0x6e, 0x0a),
    (0x72, 0x0d), (0x74, 0x09)]

/--
A piece of a string as it is written, and the character it stands for.

A character stands for itself unless it is a control character, a quotation mark or a backslash.
Any character can be written by its number, those beyond the first 65536 by two surrogates.
-/
inductive Spells : Chars → Char → Prop where
  | plain {char : Char} (visible : 0x20 ≤ char.toNat) (quote : char.toNat ≠ 0x22)
      (backslash : char.toNat ≠ 0x5c) : Spells (String.utf8EncodeChar char) char
  | short {letter : UInt8} {codepoint : Nat} (known : (letter, codepoint) ∈ shortEscapes) :
      Spells [0x5c, letter] (Char.ofNat codepoint)
  -- A surrogate alone stands for no character.
  | unicode {digits : Chars} {codepoint : Nat} (hex : FourHex digits codepoint)
      (apart : codepoint < 0xd800 ∨ 0xdfff < codepoint) :
      Spells (0x5c :: 0x75 :: digits) (Char.ofNat codepoint)
  -- Each surrogate has ten bits of what is left of the number above 65536.
  | surrogates {digits more : Chars} {high low : Nat} (first : FourHex digits high)
      (leading : 0xd800 ≤ high ∧ high ≤ 0xdbff) (second : FourHex more low)
      (trailing : 0xdc00 ≤ low ∧ low ≤ 0xdfff) :
      Spells (0x5c :: 0x75 :: (digits ++ 0x5c :: 0x75 :: more))
        (Char.ofNat (0x10000 + (high - 0xd800) * 0x400 + (low - 0xdc00)))

/-- The inside of a string as it is written, and the characters it stands for. -/
inductive SpellsAll : Chars → List Char → Prop where
  | nil : SpellsAll [] []
  | cons {text rest : Chars} {char : Char} {chars : List Char} (first : Spells text char)
      (later : SpellsAll rest chars) : SpellsAll (text ++ rest) (char :: chars)

/-- The insides of two strings can be written one behind the other. -/
theorem SpellsAll.append {text rest : Chars} {chars more : List Char}
    (first : SpellsAll text chars) (later : SpellsAll rest more) :
    SpellsAll (text ++ rest) (chars ++ more) := by
  induction first with
  | nil => exact later
  | cons here _ ih =>
    rw [List.append_assoc]
    exact .cons here ih

/-- A piece is the inside of a string of one character. -/
theorem Spells.all {text : Chars} {char : Char} (spelled : Spells text char) :
    SpellsAll text [char] := by
  simpa using SpellsAll.cons spelled .nil

/-! Numbers. -/

/-- The decimal digits in the order of their values. -/
def decimalDigits : Chars := Chars.ofString "0123456789"

/-- A row of digits, which may be empty. -/
def AllDigits (text : Chars) : Prop := ∀ byte ∈ text, byte ∈ decimalDigits

/-- A row of digits of which the first is not zero unless it is the only one. -/
def IsWhole (text : Chars) : Prop :=
  -- A zero in front of other digits is not allowed.
  text = [0x30] ∨
    ∃ digit rest, text = digit :: rest ∧ digit ∈ decimalDigits ∧ digit ≠ 0x30 ∧ AllDigits rest

/-- The number that a row of digits writes, the last of them counting least. -/
def wholeValue (digits : Chars) : Nat :=
  Nat.ofDigits 10 (digits.reverse.map fun digit => decimalDigits.idxOf digit)

/-- Nothing, or a point and digits. -/
def IsFraction (text : Chars) : Prop :=
  text = [] ∨ ∃ digits, text = 0x2e :: digits ∧ digits ≠ [] ∧ AllDigits digits

/-- Nothing, or the sign of an exponent. -/
def IsSign (text : Chars) : Prop := text = [] ∨ text = [0x2b] ∨ text = [0x2d]

/-- What follows the letter of an exponent. -/
def IsPower (text : Chars) : Prop :=
  ∃ sign digits, text = sign ++ digits ∧ IsSign sign ∧ digits ≠ [] ∧ AllDigits digits

/-- Nothing, or an exponent. -/
def IsExponent (text : Chars) : Prop :=
  text = [] ∨ ∃ letter power, text = letter :: power ∧ (letter = 0x65 ∨ letter = 0x45) ∧
    IsPower power

/--
The text of a number and its value.

A whole number is held exactly if its type has room for it. Any other number is what `strtod`
makes of its text, which may be infinite.
-/
inductive IsNumber (strtod : Chars → UInt64) : Chars → BasicJson → Prop where
  | unsigned {digits : Chars} (whole : IsWhole digits) (fits : wholeValue digits < 2 ^ 64) :
      IsNumber strtod digits (.numberUnsigned (.ofNat (wholeValue digits)))
  | integer {digits : Chars} (whole : IsWhole digits) (fits : wholeValue digits ≤ 2 ^ 63) :
      IsNumber strtod (0x2d :: digits) (.numberInteger (.ofInt (-wholeValue digits)))
  -- A whole number that has no room is held as a double.
  | large {digits : Chars} (whole : IsWhole digits) (large : 2 ^ 64 ≤ wholeValue digits) :
      IsNumber strtod digits (.numberFloat (strtod digits))
  | low {digits : Chars} (whole : IsWhole digits) (low : 2 ^ 63 < wholeValue digits) :
      IsNumber strtod (0x2d :: digits) (.numberFloat (strtod (0x2d :: digits)))
  -- With a fraction or an exponent it is a double in any case.
  | float {sign digits fraction exponent : Chars} (signed : sign = [] ∨ sign = [0x2d])
      (whole : IsWhole digits) (point : IsFraction fraction) (power : IsExponent exponent)
      (broken : fraction ++ exponent ≠ []) :
      IsNumber strtod (sign ++ (digits ++ (fraction ++ exponent)))
        (.numberFloat (strtod (sign ++ (digits ++ (fraction ++ exponent)))))

/-! Values. -/

/-- The text of a value that has no other values inside it. -/
inductive IsScalar (strtod : Chars → UInt64) : Chars → BasicJson → Prop where
  | literalNull : IsScalar strtod (Chars.ofString "null") .null
  | literalTrue : IsScalar strtod (Chars.ofString "true") (.boolean true)
  | literalFalse : IsScalar strtod (Chars.ofString "false") (.boolean false)
  | string {text : Chars} {chars : List Char} (spelled : SpellsAll text chars) :
      IsScalar strtod (0x22 :: (text ++ [0x22])) (.string (Utf8.bytes chars))
  | number {text : Chars} {value : BasicJson} (number : IsNumber strtod text value) :
      IsScalar strtod text value

/-- A byte of white space. -/
def IsSpace (byte : UInt8) : Prop := byte = 0x20 ∨ byte = 0x09 ∨ byte = 0x0a ∨ byte = 0x0d

instance (byte : UInt8) : Decidable (IsSpace byte) := inferInstanceAs (Decidable (_ ∨ _))

/-- White space. -/
def Blank (text : Chars) : Prop := ∀ byte ∈ text, IsSpace byte

mutual

/--
The text of a value, and its tree.

The tree has the members of an object as they are written, in that order and with every key that
is written twice.
-/
inductive Writes (strtod : Chars → UInt64) : Chars → BasicJson → Prop where
  | scalar {text : Chars} {value : BasicJson} (written : IsScalar strtod text value) :
      Writes strtod text value
  -- White space is allowed between the brackets, and on both sides of an element.
  | emptyArray {space : Chars} (blank : Blank space) :
      Writes strtod (0x5b :: (space ++ [0x5d])) (.array [])
  | array {text : Chars} {values : List BasicJson} (elements : WritesElements strtod text values) :
      Writes strtod (0x5b :: text) (.array values)
  | emptyObject {space : Chars} (blank : Blank space) :
      Writes strtod (0x7b :: (space ++ [0x7d])) (.object [])
  | object {text : Chars} {entries : List (Chars × BasicJson)}
      (members : WritesMembers strtod text entries) :
      Writes strtod (0x7b :: text) (.object entries)

/-- The text of one or more elements up to the closing bracket. -/
inductive WritesElements (strtod : Chars → UInt64) : Chars → List BasicJson → Prop where
  | last {before text behind : Chars} {value : BasicJson} (blank : Blank before)
      (element : Writes strtod text value) (blank' : Blank behind) :
      WritesElements strtod (before ++ (text ++ (behind ++ [0x5d]))) [value]
  -- Behind a comma another element has to follow.
  | cons {before text behind rest : Chars} {value : BasicJson} {values : List BasicJson}
      (blank : Blank before) (element : Writes strtod text value) (blank' : Blank behind)
      (later : WritesElements strtod rest values) :
      WritesElements strtod (before ++ (text ++ (behind ++ 0x2c :: rest))) (value :: values)

/-- The text of one or more members up to the closing bracket. -/
inductive WritesMembers (strtod : Chars → UInt64) : Chars → List (Chars × BasicJson) → Prop where
  | last {entry behind : Chars} {key : Chars} {value : BasicJson}
      (member : WritesMember strtod entry key value) (blank : Blank behind) :
      WritesMembers strtod (entry ++ (behind ++ [0x7d])) [(key, value)]
  | cons {entry behind rest : Chars} {key : Chars} {value : BasicJson}
      {entries : List (Chars × BasicJson)} (member : WritesMember strtod entry key value)
      (blank : Blank behind) (later : WritesMembers strtod rest entries) :
      WritesMembers strtod (entry ++ (behind ++ 0x2c :: rest)) ((key, value) :: entries)

/-- The text of a key and its value. -/
inductive WritesMember (strtod : Chars → UInt64) : Chars → Chars → BasicJson → Prop where
  | mk {before text between behind word : Chars} {chars : List Char} {value : BasicJson}
      (blank : Blank before) (spelled : SpellsAll text chars) (blank' : Blank between)
      (blank'' : Blank behind) (writes : Writes strtod word value) :
      WritesMember strtod
        (before ++ (0x22 :: (text ++ [0x22]) ++ (between ++ 0x3a :: (behind ++ word))))
        (Utf8.bytes chars) value

end

/-- A text with one value between white space, which ends there or has a null byte behind it. -/
def IsText (strtod : Chars → UInt64) (text : Chars) (tree : BasicJson) : Prop :=
  -- The parser takes a null byte for the end of its input.
  ∃ before word behind rest, text = before ++ (word ++ (behind ++ rest)) ∧ Blank before ∧
    Writes strtod word tree ∧ Blank behind ∧ rest.headD 0 = 0

/-- What may stand in front of a text: nothing, or the byte order mark. -/
def IsMark (mark : Chars) : Prop := mark = [] ∨ mark = [0xef, 0xbb, 0xbf]

/-- A text as it is given to the parser. -/
def IsDocument (strtod : Chars → UInt64) (text : Chars) (tree : BasicJson) : Prop :=
  ∃ mark body, text = mark ++ body ∧ IsMark mark ∧ IsText strtod body tree

/-! The value that a tree stands for. -/

namespace BasicJson

mutual

/-- The value of a tree, where the first of the members with one key counts. -/
def settled : BasicJson → BasicJson
  -- The members are settled before the first of each key is chosen.
  | .object entries => .object (SortedMap.firsts (settledMembers entries))
  | .array elements => .array (settledElements elements)
  | json => json

/-- The members with the values of their trees. -/
def settledMembers : List (Chars × BasicJson) → List (Chars × BasicJson)
  | [] => []
  | (key, tree) :: rest => (key, tree.settled) :: settledMembers rest

/-- The values of the trees of elements. -/
def settledElements : List BasicJson → List BasicJson
  | [] => []
  | tree :: rest => tree.settled :: settledElements rest

end

/-- The value of an object, by the values of its members. -/
@[simp] theorem settled_object (entries : List (Chars × BasicJson)) :
    (object entries).settled =
      .object (SortedMap.firsts (entries.map fun entry => (entry.1, entry.2.settled))) := by
  -- The recursion over the members is a map over them.
  have same : settledMembers entries = entries.map fun entry => (entry.1, entry.2.settled) := by
    induction entries with
    | nil => simp [settledMembers]
    | cons entry rest ih => simp [settledMembers, ih]
  rw [settled, same]

/-- The value of an array, by the values of its elements. -/
@[simp] theorem settled_array (elements : List BasicJson) :
    (array elements).settled = .array (elements.map settled) := by
  have same : settledElements elements = elements.map settled := by
    induction elements with
    | nil => simp [settledElements]
    | cons element rest ih => simp [settledElements, ih]
  rw [settled, same]

/-- A leaf that is no number or a finite one. -/
def IsFinite : BasicJson → Prop
  | .numberFloat bits => isFinite bits = true
  | _ => True

end BasicJson

/-- The value of a tree is there if the tree is. -/
theorem BasicJson.Kept.settled {tree : BasicJson} (kept : tree.Kept) :
    tree.settled.isDiscarded = false := by
  -- Settling does not change what kind of value it is.
  cases tree with
  | discarded => exact absurd rfl kept
  | object | array => simp [isDiscarded]
  | _ => simp [BasicJson.settled, isDiscarded]

section

variable {strtod : Chars → UInt64} {text : Chars}

/-- A scalar is its own value. -/
theorem IsScalar.settled {value : BasicJson} (written : IsScalar strtod text value) :
    value.settled = value := by
  -- A number is of one of three kinds, and none of them is a container.
  cases written with
  | number number => cases number <;> rw [BasicJson.settled] <;> simp
  | _ => rw [BasicJson.settled] <;> simp

/-- A scalar has nothing inside it, so what holds of it holds of everything in it. -/
theorem IsScalar.every {value : BasicJson} (written : IsScalar strtod text value)
    {P : BasicJson → Prop} (holds : P value) : value.Every P := by
  -- The recursion stops at once, as for any leaf.
  cases written with
  | number number => cases number <;> simpa [BasicJson.Every] using holds
  | _ => simpa [BasicJson.Every] using holds

/-- A scalar is there. -/
theorem IsScalar.kept {value : BasicJson} (written : IsScalar strtod text value) : value.Kept := by
  cases written with
  | number number => cases number <;> simp [BasicJson.Kept]
  | _ => simp [BasicJson.Kept]

mutual

/-- Everything in a tree that is written is there. -/
theorem Writes.kept {text : Chars} {tree : BasicJson} :
    Writes strtod text tree → tree.Every BasicJson.Kept
  | .scalar written => written.every written.kept
  -- Containers are there by their constructor, and what is inside by recursion.
  | .emptyArray _ => ⟨by simp [BasicJson.Kept], trivial⟩
  | .array elements => ⟨by simp [BasicJson.Kept], elements.kept⟩
  | .emptyObject _ => ⟨by simp [BasicJson.Kept], trivial⟩
  | .object members => ⟨by simp [BasicJson.Kept], members.kept⟩

/-- Everything in elements that are written is there. -/
theorem WritesElements.kept {text : Chars} {trees : List BasicJson} :
    WritesElements strtod text trees → BasicJson.EveryElement BasicJson.Kept trees
  | .last _ element _ => ⟨element.kept, trivial⟩
  | .cons _ element _ later => ⟨element.kept, later.kept⟩

/-- Everything in members that are written is there. -/
theorem WritesMembers.kept {text : Chars} {entries : List (Chars × BasicJson)} :
    WritesMembers strtod text entries → BasicJson.EveryMember BasicJson.Kept entries
  | .last (.mk _ _ _ _ writes) _ => ⟨writes.kept, trivial⟩
  | .cons (.mk _ _ _ _ writes) _ later => ⟨writes.kept, later.kept⟩

end

end

end LinuxPro.Json
