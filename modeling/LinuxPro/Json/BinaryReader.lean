import LinuxPro.Json.BinaryWriter
import LinuxPro.Json.Double

/-! The class `binary_reader`, which reads values from CBOR and from MessagePack. -/

namespace LinuxPro.Json

/-- Code of the reader. -/
abbrev BinaryReader (α : Type) := Reader Failure α

/-- Throws a `parse_error` at the byte read last. -/
def throwParseError {α : Type} (id : Nat) (whatArg : Chars) : BinaryReader α := do
  throw (.thrown (.parseError id (← Reader.charsRead) whatArg))

/-- What is thrown where the input ends too early. -/
def unexpectedEnd {α : Type} : BinaryReader α :=
  throwParseError 110 (Chars.ofString "unexpected end of input")

/-- A digit of `std::hex`. -/
def lowerHexDigit (value : UInt8) : UInt8 := if value < 10 then 48 + value else 87 + value

/-- A byte as two digits of `std::hex`. -/
def lowerHex (byte : UInt8) : Chars := [lowerHexDigit (byte / 16), lowerHexDigit (byte % 16)]

/-- `get` followed by `check_eof`. -/
def getChecked : BinaryReader UInt8 := do
  match ← Reader.get with
  | none => unexpectedEnd
  | some byte => return byte

/-- `get_number`, which reads network order into an array and copies that to a number. -/
def getNumber (width : Nat) : BinaryReader Nat := do
  let bytes ← Reader.generateN width getChecked
  -- The bytes are stored so that the copy has them in the order of the host.
  let vec := if littleEndianess then bytes.reverse else bytes
  return ofBigEndian (if littleEndianess then vec.reverse else vec)

/-- `get_string` -/
def getString (len : Nat) : BinaryReader Chars := Reader.generateN len getChecked

/-- Reads the bytes of a string of indefinite length, up to the break. -/
def takeUntilBreak : Chars → Nat → Except Failure (Chars × Source)
  | [], charsRead =>
    .error (.thrown (.parseError 110 (charsRead + 1) (Chars.ofString "unexpected end of input")))
  | byte :: rest, charsRead =>
    -- The source compares before it adds the byte to the text.
    if byte = 0xff then .ok ([], ⟨rest, some 0xff, charsRead + 1⟩)
    else do
      let (text, source) ← takeUntilBreak rest (charsRead + 1)
      return (byte :: text, source)

/-- The loop of `get_cbor_string` over a string of indefinite length. -/
def getUntilBreak : BinaryReader Chars := fun source =>
  takeUntilBreak source.left source.charsRead

/--
The number or size that belongs to a control byte of CBOR, by the last five bits of that byte.

The cases of the source call `get_number` in each family alike.
-/
def cborArgument (info : Nat) : BinaryReader Nat :=
  if info ≤ 0x17 then pure info
  else if info = 0x18 then getNumber 1
  else if info = 0x19 then getNumber 2
  else if info = 0x1a then getNumber 4
  else getNumber 8

/-- `get_cbor_string` -/
def getCborString : BinaryReader Chars := do
  match ← Reader.current with
  | none => unexpectedEnd
  | some current =>
    if 0x60 ≤ current ∧ current ≤ 0x7b then
      let len ← cborArgument (current &&& 0x1f).toNat
      getString len
    else if current = 0x7f then getUntilBreak
    else throwParseError 113 (Chars.ofString "expected a CBOR string; last byte: 0x" ++ lowerHex current)

/-- The object built by inserting members one by one, of which the first of each key is kept. -/
def insertAll (members : List (Chars × BasicJson)) : List (Chars × BasicJson) :=
  members.foldl (fun built entry => SortedMap.insert entry.1 entry.2 built) []

/-- `get_cbor_array`, by the code that reads an element. -/
def getCborArray (parse : BinaryReader BasicJson) (len : Nat) : BinaryReader BasicJson := do
  return .array (← Reader.generateN len parse)

/-- The generator of `get_cbor_object` and of `get_msgpack_object`. -/
def getMember (getKey : BinaryReader Chars) (parse : BinaryReader BasicJson) :
    BinaryReader (Chars × BasicJson) := do
  let _ ← Reader.get
  let key ← getKey
  let value ← parse
  return (key, value)

/-- `get_cbor_object`, by the code that reads a value. -/
def getCborObject (parse : BinaryReader BasicJson) (len : Nat) : BinaryReader BasicJson := do
  return .object (insertAll (← Reader.generateN len (getMember getCborString parse)))

/-- The two bytes of a half-precision float. -/
def getHalf : BinaryReader BasicJson := do
  let byte1 ← getChecked
  let byte2 ← getChecked
  return .numberFloat (ofHalf (byte1.toNat * 256 + byte2.toNat))

/--
The switch of `parse_cbor_internal` over a control byte.

What the function does by calling itself is given: reading one value, and the loops over the
elements and over the members up to a break.
-/
def cborItem (parse : BinaryReader BasicJson) (elements : BinaryReader (List BasicJson))
    (members : BinaryReader (List (Chars × BasicJson))) (current : UInt8) :
    BinaryReader BasicJson := do
  -- The last five bits of a control byte hold a number, or tell the width of one.
  let info := (current &&& 0x1f).toNat
  if current ≤ 0x1b then
    return .numberUnsigned (.ofNat (← cborArgument info))
  else if 0x20 ≤ current ∧ current ≤ 0x3b then
    -- Of eight bytes the number is cast to a signed one before it is subtracted.
    return .numberInteger (-1 - (UInt64.ofNat (← cborArgument info)).toInt64)
  else if 0x60 ≤ current ∧ current ≤ 0x7b ∨ current = 0x7f then
    return .string (← getCborString)
  else if 0x80 ≤ current ∧ current ≤ 0x9b then
    getCborArray parse (← cborArgument info)
  else if current = 0x9f then return .array (← elements)
  else if 0xa0 ≤ current ∧ current ≤ 0xbb then
    getCborObject parse (← cborArgument info)
  else if current = 0xbf then return .object (← members)
  else if current = 0xf4 then return .boolean false
  else if current = 0xf5 then return .boolean true
  else if current = 0xf6 then return .null
  else if current = 0xf9 then getHalf
  else if current = 0xfa then return .numberFloat (ofSingle (← getNumber 4))
  else if current = 0xfb then return .numberFloat (.ofNat (← getNumber 8))
  else throwParseError 112 (Chars.ofString "error reading CBOR; last byte: 0x" ++ lowerHex current)

mutual

/-- `parse_cbor_internal` -/
def parseCborInternal : Nat → Bool → BinaryReader BasicJson
  | 0, _ => throw .outOfFuel
  | fuel + 1, getChar => do
    -- In a loop up to a break the byte was asked for by the test.
    match ← (if getChar then Reader.get else Reader.current) with
    | none => unexpectedEnd
    | some current =>
      cborItem (parseCborInternal fuel true) (cborElements fuel) (cborMembers fuel []) current

/-- The loop over an array of indefinite length. -/
def cborElements : Nat → BinaryReader (List BasicJson)
  | 0 => throw .outOfFuel
  | fuel + 1 => do
    if (← Reader.get) = some 0xff then return []
    else
      let element ← parseCborInternal fuel false
      let rest ← cborElements fuel
      return element :: rest

/-- The loop over an object of indefinite length, which assigns and so keeps the last of a key. -/
def cborMembers : Nat → List (Chars × BasicJson) → BinaryReader (List (Chars × BasicJson))
  | 0, _ => throw .outOfFuel
  | fuel + 1, result => do
    if (← Reader.get) = some 0xff then return result
    else
      -- The test for the break has asked for the control byte of the key.
      let key ← getCborString
      let value ← parseCborInternal fuel true
      cborMembers fuel (SortedMap.assign key value result)

end

/-- The end of `parse_cbor` and of `parse_msgpack`: in strict mode no byte may be left. -/
def expectEnd (strict : Bool) (res : BasicJson) : BinaryReader BasicJson := do
  if strict then
    -- One more byte is asked for, and it has to be the end.
    if (← Reader.get) ≠ none then
      throwParseError 110 (Chars.ofString "expected end of input")
    else return res
  else return res

/-- `parse_cbor` -/
def parseCbor (fuel : Nat) (strict : Bool) : BinaryReader BasicJson := do
  let res ← parseCborInternal fuel true
  expectEnd strict res

/-- `get_msgpack_string` -/
def getMsgpackString : BinaryReader Chars := do
  match ← Reader.current with
  | none => unexpectedEnd
  | some current =>
    if 0xa0 ≤ current ∧ current ≤ 0xbf then getString (current &&& 0x1f).toNat
    else if current = 0xd9 then getString (← getNumber 1)
    else if current = 0xda then getString (← getNumber 2)
    else if current = 0xdb then getString (← getNumber 4)
    else
      throwParseError 113
        (Chars.ofString "expected a MessagePack string; last byte: 0x" ++ lowerHex current)

/-- `get_msgpack_array`, by the code that reads an element. -/
def getMsgpackArray (parse : BinaryReader BasicJson) (len : Nat) : BinaryReader BasicJson := do
  return .array (← Reader.generateN len parse)

/-- `get_msgpack_object`, by the code that reads a value. -/
def getMsgpackObject (parse : BinaryReader BasicJson) (len : Nat) : BinaryReader BasicJson := do
  return .object (insertAll (← Reader.generateN len (getMember getMsgpackString parse)))

/-- The signed number of this width that bits stand for. -/
def ofTwosComplement (width bits : Nat) : Int64 :=
  .ofInt (if 2 * bits < 256 ^ width then bits else (bits : Int) - (256 ^ width : Nat))

/-- The switch of `parse_msgpack_internal` over a control byte. -/
def msgpackItem (parse : BinaryReader BasicJson) (current : UInt8) : BinaryReader BasicJson := do
  -- The ranges come first, from the positive fixint on.
  if current ≤ 0x7f then return .numberUnsigned (.ofNat current.toNat)
  else if current ≤ 0x8f then getMsgpackObject parse (current &&& 0x0f).toNat
  else if current ≤ 0x9f then getMsgpackArray parse (current &&& 0x0f).toNat
  else if current ≤ 0xbf then return .string (← getMsgpackString)
  else if current = 0xc0 then return .null
  else if current = 0xc2 then return .boolean false
  else if current = 0xc3 then return .boolean true
  else if current = 0xca then return .numberFloat (ofSingle (← getNumber 4))
  else if current = 0xcb then return .numberFloat (.ofNat (← getNumber 8))
  else if current = 0xcc then return .numberUnsigned (.ofNat (← getNumber 1))
  else if current = 0xcd then return .numberUnsigned (.ofNat (← getNumber 2))
  else if current = 0xce then return .numberUnsigned (.ofNat (← getNumber 4))
  else if current = 0xcf then return .numberUnsigned (.ofNat (← getNumber 8))
  else if current = 0xd0 then return .numberInteger (ofTwosComplement 1 (← getNumber 1))
  else if current = 0xd1 then return .numberInteger (ofTwosComplement 2 (← getNumber 2))
  else if current = 0xd2 then return .numberInteger (ofTwosComplement 4 (← getNumber 4))
  else if current = 0xd3 then return .numberInteger (ofTwosComplement 8 (← getNumber 8))
  else if 0xd9 ≤ current ∧ current ≤ 0xdb then return .string (← getMsgpackString)
  else if current = 0xdc then getMsgpackArray parse (← getNumber 2)
  else if current = 0xdd then getMsgpackArray parse (← getNumber 4)
  else if current = 0xde then getMsgpackObject parse (← getNumber 2)
  else if current = 0xdf then getMsgpackObject parse (← getNumber 4)
  else if 0xe0 ≤ current then return .numberInteger (ofTwosComplement 1 current.toNat)
  else
    throwParseError 112 (Chars.ofString "error reading MessagePack; last byte: 0x" ++ lowerHex current)

/-- `parse_msgpack_internal` -/
def parseMsgpackInternal : Nat → BinaryReader BasicJson
  | 0 => throw .outOfFuel
  | fuel + 1 => do
    match ← Reader.get with
    | none => unexpectedEnd
    | some current => msgpackItem (parseMsgpackInternal fuel) current

/-- `parse_msgpack` -/
def parseMsgpack (fuel : Nat) (strict : Bool) : BinaryReader BasicJson := do
  let res ← parseMsgpackInternal fuel
  expectEnd strict res

/-- The bytes that `input_buffer_adapter` gives: a byte order mark at the front is skipped. -/
def bufferAdapter (bytes : Chars) : Chars :=
  if [0xef, 0xbb, 0xbf].isPrefixOf bytes then bytes.drop 3 else bytes

/-- The adapter adds nothing. -/
theorem length_bufferAdapter_le (bytes : Chars) : (bufferAdapter bytes).length ≤ bytes.length := by
  unfold bufferAdapter
  split
  · rw [List.length_drop]
    omega
  · exact Nat.le_refl _

/-- Runs a reader on a buffer from its start. -/
def readBuffer {α : Type} (code : BinaryReader α) (bytes : Chars) : Except Failure α :=
  (code ⟨bufferAdapter bytes, none, 0⟩).map Prod.fst

/-- `to_cbor` -/
def toCbor (j : BasicJson) : Chars := writeCbor j

/-- `from_cbor`. The fuel is more than the reader uses. -/
def fromCbor (bytes : Chars) (strict : Bool) : Except Failure BasicJson :=
  readBuffer (parseCbor (2 * bytes.length + 1) strict) bytes

/-- `to_msgpack` -/
def toMsgpack (j : BasicJson) : Chars := writeMsgpack j

/-- `from_msgpack`. The fuel is more than the reader uses. -/
def fromMsgpack (bytes : Chars) (strict : Bool) : Except Failure BasicJson :=
  readBuffer (parseMsgpack (bytes.length + 1) strict) bytes

end LinuxPro.Json
