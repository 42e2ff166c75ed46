import LinuxPro.Json.BinaryReader
import LinuxPro.Lib.Utf8

/-! The serializer: how `dump` turns a value into text, with its buffers and its assertions. -/

namespace LinuxPro.Json

/-- How a dump can end early: an assertion fails, or a buffer is left at its end. -/
inductive DumpFault where
  | assertion
  | outOfBounds
  deriving DecidableEq, Repr

namespace Serializer

/-- `bytes_following`, with `none` for `npos`. -/
def bytesFollowing (byte : UInt8) : Option Nat :=
  if byte.toNat ≤ 127 then some 0
  else if 192 ≤ byte.toNat ∧ byte.toNat ≤ 223 then some 1
  else if 224 ≤ byte.toNat ∧ byte.toNat ≤ 239 then some 2
  else if 240 ≤ byte.toNat ∧ byte.toNat ≤ 247 then some 3
  -- The bytes from 128 to 191 only follow others, and those above 247 are none of UTF-8.
  else none

/-- The letter that stands for a byte behind a backslash. -/
def shortEscape (byte : UInt8) : Option UInt8 :=
  if byte = 0x22 then some 0x22
  else if byte = 0x5c then some 0x5c
  else if byte = 0x08 then some 0x62
  else if byte = 0x0c then some 0x66
  else if byte = 0x0a then some 0x6e
  else if byte = 0x0d then some 0x72
  else if byte = 0x09 then some 0x74
  else none

/-- What is made of a byte: a short escape, an escape by number with the bytes behind, or itself. -/
inductive Escape where
  | short (letter : UInt8)
  | codepoint (bytes : Nat)
  | asIs
  deriving DecidableEq, Repr

/-- The case of the `switch` over a byte, the same in `extra_space` and `dump_escaped`. -/
def escapeOf (ensureAscii : Bool) (byte : UInt8) : Escape :=
  match shortEscape byte with
  | some letter => .short letter
  | none =>
    -- These are control characters, and with `ensure_ascii` all that is not printable ASCII.
    if byte.toNat ≤ 0x1f ∨ ensureAscii ∧ (0x80 ≤ byte.toNat ∨ byte.toNat = 0x7f) then
      match bytesFollowing byte with
      | some bytes => .codepoint bytes
      | none => .asIs
    else .asIs

/-- `extra_space` behind bytes that are to be skipped. -/
def extraSpace (ensureAscii : Bool) : Nat → Chars → Nat
  | _, [] => 0
  | skip + 1, _ :: rest => extraSpace ensureAscii skip rest
  | 0, byte :: rest =>
    match escapeOf ensureAscii byte with
    | .short _ => 1 + extraSpace ensureAscii 0 rest
    | .codepoint bytes =>
      -- A character of four bytes is taken to need a surrogate pair.
      (if bytes = 3 then 12 - bytes - 1 else 6 - bytes - 1) + extraSpace ensureAscii bytes rest
    | .asIs => extraSpace ensureAscii 0 rest

/-- A write through `operator[]` of a string, which may not touch its terminator. -/
def store (result : Chars) (pos : Nat) (byte : UInt8) : Except DumpFault Chars :=
  if pos < result.length then .ok (result.set pos byte) else .error .outOfBounds

/-- A read through `operator[]` of a string, which may reach its terminator. -/
def load (result : Chars) (pos : Nat) : Except DumpFault UInt8 :=
  if pos ≤ result.length then .ok (result.getD pos 0) else .error .outOfBounds

/-- Several writes, one place behind the other. -/
def storeAll (result : Chars) (pos : Nat) : Chars → Except DumpFault Chars
  | [] => .ok result
  | byte :: rest => do storeAll (← store result pos byte) (pos + 1) rest

/-- Four digits of `hexify`. -/
def hexify (number : Nat) : Chars :=
  [lowerHexDigit ((number >>> 12) &&& 0x0f).toUInt8, lowerHexDigit ((number >>> 8) &&& 0x0f).toUInt8,
    lowerHexDigit ((number >>> 4) &&& 0x0f).toUInt8, lowerHexDigit (number &&& 0x0f).toUInt8]

/-- The first of the two numbers for a code point beyond the first 65536. -/
def highSurrogate (codepoint : Nat) : Nat := 0xd800 ||| (((codepoint - 0x10000) >>> 10) &&& 0x3ff)

/-- The second of the two numbers for a code point beyond the first 65536. -/
def lowSurrogate (codepoint : Nat) : Nat := 0xdc00 ||| ((codepoint - 0x10000) &&& 0x3ff)

/-- `escape_codepoint`, which leaves `pos` behind what it has written. -/
def escapeCodepoint (codepoint : Nat) (result : Chars) (pos : Nat) :
    Except DumpFault (Chars × Nat) := do
  -- Both assertions stand at the start of the function.
  if 0x10ffff < codepoint then .error .assertion
  else if (← load result pos) ≠ 0x5c then .error .assertion
  else if codepoint < 0x10000 then
    let result ← storeAll result (pos + 1) (0x75 :: hexify codepoint)
    .ok (result, pos + 6)
  else
    let result ← storeAll result (pos + 1) (0x75 :: hexify (highSurrogate codepoint))
    -- The backslash between the two is in the output already.
    let result ← storeAll result (pos + 7) (0x75 :: hexify (lowSurrogate codepoint))
    .ok (result, pos + 12)

/-- The loop of `dump_escaped` behind bytes that are to be skipped. -/
def dumpEscapedLoop (ensureAscii : Bool) :
    Nat → Chars → Chars → Nat → Except DumpFault (Chars × Nat)
  | _, [], result, pos => .ok (result, pos)
  | skip + 1, _ :: rest, result, pos => dumpEscapedLoop ensureAscii skip rest result pos
  | 0, byte :: rest, result, pos =>
    match escapeOf ensureAscii byte with
    | .short letter => do
      -- For a backslash there is nothing to change.
      let result ← if byte = 0x5c then .ok result else store result (pos + 1) letter
      dumpEscapedLoop ensureAscii 0 rest result (pos + 2)
    | .codepoint bytes =>
      -- The source asserts that the text does not end inside a character.
      if rest.length < bytes then .error .assertion
      else do
        let next ← escapeCodepoint (Utf8.decode byte (rest.take bytes)) result pos
        dumpEscapedLoop ensureAscii bytes rest next.1 next.2
    | .asIs => do dumpEscapedLoop ensureAscii 0 rest (← store result pos byte) (pos + 1)

/-- `dump_escaped` -/
def dumpEscaped (ensureAscii : Bool) (text : Chars) : Except DumpFault Chars := do
  let space := extraSpace ensureAscii 0 text
  -- A text without anything to escape is written as it is.
  if space = 0 then .ok text
  else
    -- The buffer is filled with backslashes, so that they need not be written.
    let (result, pos) ←
      dumpEscapedLoop ensureAscii 0 text (List.replicate (text.length + space) 0x5c) 0
    if pos = result.length then .ok result else .error .assertion

/-- The loop of `dump_integer` over the digits, with the room left in `number_buffer`. -/
def dumpDigits : Nat → Int → Chars → Except DumpFault Chars
  | 0, x, buffer => if x = 0 then .ok buffer else .error .assertion
  | room + 1, x, buffer =>
    if x = 0 then .ok buffer
    else dumpDigits room (x.tdiv 10) (buffer ++ [(0x30 + (x.tmod 10).natAbs).toUInt8])

/-- `dump_integer` -/
def dumpInteger (x : Int) : Except DumpFault Chars := do
  if x = 0 then .ok [0x30]
  else
    -- The loop condition leaves the last place of the buffer free.
    let buffer ← dumpDigits 63 x []
    if x < 0 then
      if buffer.length < 62 then .ok (buffer ++ [0x2d]).reverse else .error .assertion
    else .ok buffer.reverse

/-- The text of a double that `snprintf` printed, with a fraction if there is none. -/
def floatText (printed : Chars) : Chars :=
  if printed.any fun byte => byte = 0x2e ∨ byte = 0x65 then printed
  else printed ++ Chars.ofString ".0"

/-- `dump_float` in the locale of a program that has set none. -/
def dumpFloat (snprintf : UInt64 → Chars) (bits : UInt64) : Except DumpFault Chars :=
  if isFinite bits then
    -- The length is asserted to be positive and below the size of the buffer.
    if (snprintf bits).length = 0 ∨ 64 ≤ (snprintf bits).length then .error .assertion
    else .ok (floatText (snprintf bits))
  else .ok (Chars.ofString "null")

/-- The arguments of `dump` that do not change, and the double conversion of the C library. -/
structure Style where
  prettyPrint : Bool
  ensureAscii : Bool
  indentStep : Nat
  snprintf : UInt64 → Chars

/-- A step of the serializer, whose state is `indent_string`. -/
abbrev Serializing (α : Type) := StateT Chars (Except DumpFault) α

variable (style : Style)

/-- A line break where the text is to be pretty. -/
def lineBreak : Chars := if style.prettyPrint then [0x0a] else []

/-- What stands between a key and its value. -/
def colon : Chars := if style.prettyPrint then [0x3a, 0x20] else [0x3a]

/-- The `new_indent` for the inside of an array or object, for which `indent_string` is doubled. -/
def openIndent (current : Nat) : Serializing Nat := do
  if style.prettyPrint then
    let inner := (current + style.indentStep) % 2 ^ 32
    modify fun indentString =>
      -- It is doubled once, however much is missing.
      if indentString.length < inner then
        indentString ++ List.replicate indentString.length 0x20
      else indentString
    return inner
  else return current

/-- So many characters from the start of `indent_string`, which its terminator follows. -/
def indentation (count : Nat) : Serializing Chars := do
  if style.prettyPrint then
    let indentString ← get
    -- The terminator may be read, but nothing behind it.
    if count ≤ indentString.length + 1 then return (indentString ++ [0]).take count
    else throw .outOfBounds
  else return []

/-- `dump_escaped` between its quotation marks. -/
def dumpString (text : Chars) : Serializing Chars := do
  let escaped ← dumpEscaped style.ensureAscii text
  return 0x22 :: (escaped ++ [0x22])

mutual

/-- `dump` -/
def dumpValue : BasicJson → Nat → Serializing Chars
  | .object members, current => do
    -- An empty container is written without a line break.
    if members.isEmpty then return Chars.ofString "\x7b\x7d"
    else
      let inner ← openIndent style current
      let written ← dumpMembers members inner
      return 0x7b :: (lineBreak style ++ (written ++
        (lineBreak style ++ ((← indentation style current) ++ [0x7d]))))
  | .array elements, current => do
    if elements.isEmpty then return Chars.ofString "[]"
    else
      let inner ← openIndent style current
      let written ← dumpElements elements inner
      return 0x5b :: (lineBreak style ++ (written ++
        (lineBreak style ++ ((← indentation style current) ++ [0x5d]))))
  | .string text, _ => dumpString style text
  | .boolean value, _ => return Chars.ofString (if value then "true" else "false")
  | .numberInteger value, _ => dumpInteger value.toInt
  | .numberUnsigned value, _ => dumpInteger value.toNat
  | .numberFloat bits, _ => dumpFloat style.snprintf bits
  | .discarded, _ => return Chars.ofString "<discarded>"
  | .null, _ => return Chars.ofString "null"

/-- The members of an object with commas between them. -/
def dumpMembers : List (Chars × BasicJson) → Nat → Serializing Chars
  | [], _ => return []
  | (key, value) :: rest, inner => do
    -- The source writes the last member behind its loop, without a comma.
    let indent ← indentation style inner
    let key ← dumpString style key
    let written ← dumpValue value inner
    let later ← dumpMembers rest inner
    return indent ++ (key ++ (colon style ++ (written ++
      (if rest.isEmpty then [] else 0x2c :: (lineBreak style ++ later)))))

/-- The elements of an array with commas between them. -/
def dumpElements : List BasicJson → Nat → Serializing Chars
  | [], _ => return []
  | value :: rest, inner => do
    let indent ← indentation style inner
    let written ← dumpValue value inner
    let later ← dumpElements rest inner
    return indent ++ (written ++
      (if rest.isEmpty then [] else 0x2c :: (lineBreak style ++ later)))

end

end Serializer

/-- `basic_json::dump`; `indent` is an `int`, and a negative one asks for the compact text. -/
def dump (snprintf : UInt64 → Chars) (json : BasicJson) (indent : Int) (indentChar : UInt8)
    (ensureAscii : Bool) : Except DumpFault Chars :=
  (Serializer.dumpValue ⟨0 ≤ indent, ensureAscii, indent.toNat, snprintf⟩ json 0
    (List.replicate 512 indentChar)).map Prod.fst

end LinuxPro.Json
