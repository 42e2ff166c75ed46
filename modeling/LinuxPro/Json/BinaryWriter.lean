import LinuxPro.Json.Value
import LinuxPro.Lib.ByteReader

/-! The class `binary_writer`, which serializes values to CBOR and to MessagePack. -/

namespace LinuxPro.Json

/-- Whether the host stores the low byte of a number first, which x86 does. -/
def littleEndianess : Bool := true

/-- The bytes of a number in the memory of the host. -/
def memory (width number : Nat) : Chars :=
  if littleEndianess then (bigEndian width number).reverse else bigEndian width number

/-- `write_number`, which copies a number to an array and writes that in network order. -/
def writeNumber (width number : Nat) : Chars :=
  let vec := memory width number
  if littleEndianess then vec.reverse else vec

/-- The bytes come in network order, as the copy is reversed on this host. -/
theorem writeNumber_eq (width number : Nat) : writeNumber width number = bigEndian width number := by
  simp [writeNumber, memory, littleEndianess]

/--
The control byte of CBOR with the number or size that belongs to it.

Unsigned and negative numbers, strings, arrays and objects write it alike, each from a control
byte of its own for the number zero.
-/
def cborHead (control number : Nat) : Chars :=
  -- The shortest of the five ways is chosen.
  if number ≤ 0x17 then writeNumber 1 (control + number)
  else if number ≤ 0xff then (control + 0x18).toUInt8 :: writeNumber 1 number
  else if number ≤ 0xffff then (control + 0x19).toUInt8 :: writeNumber 2 number
  else if number ≤ 0xffffffff then (control + 0x1a).toUInt8 :: writeNumber 4 number
  else (control + 0x1b).toUInt8 :: writeNumber 8 number

/-- A string in CBOR, which is also how the key of a member is written. -/
def writeCborString (text : Chars) : Chars := cborHead 0x60 text.length ++ text

mutual

/-- `write_cbor` -/
def writeCbor : BasicJson → Chars
  | .null => [0xf6]
  | .boolean value => [if value then 0xf5 else 0xf4]
  | .numberInteger value =>
    if 0 ≤ value then cborHead 0 value.toInt.toNat
    -- The sign is in the control byte, and -1 - n is written.
    else cborHead 0x20 (-1 - value).toInt.toNat
  | .numberUnsigned value => cborHead 0 value.toNat
  | .numberFloat bits => 0xfb :: writeNumber 8 bits.toNat
  | .string text => writeCborString text
  | .array elements => cborHead 0x80 elements.length ++ writeCborElements elements
  | .object members => cborHead 0xa0 members.length ++ writeCborMembers members
  -- Nothing is written for a discarded value, although it counts in an array or object.
  | .discarded => []

/-- The elements of an array, one behind the other. -/
def writeCborElements : List BasicJson → Chars
  | [] => []
  | element :: rest => writeCbor element ++ writeCborElements rest

/-- The members of an object, each as its key and its value. -/
def writeCborMembers : List (Chars × BasicJson) → Chars
  | [] => []
  | (key, value) :: rest => (writeCborString key ++ writeCbor value) ++ writeCborMembers rest

end

/-- What is written for elements, without the recursion. -/
theorem writeCborElements_eq (elements : List BasicJson) :
    writeCborElements elements = elements.flatMap writeCbor := by
  induction elements with
  | nil => rfl
  | cons element rest ih => rw [writeCborElements, ih, List.flatMap_cons]

/-- What is written for members, without the recursion. -/
theorem writeCborMembers_eq (members : List (Chars × BasicJson)) :
    writeCborMembers members =
      members.flatMap fun entry => writeCborString entry.1 ++ writeCbor entry.2 := by
  induction members with
  | nil => rfl
  | cons entry rest ih => rw [writeCborMembers, ih, List.flatMap_cons]

/-- An unsigned number in MessagePack, which is also how a positive signed one is written. -/
def msgpackUnsigned (number : Nat) : Chars :=
  -- The first form is the positive fixint, which is its own control byte.
  if number < 128 then writeNumber 1 number
  else if number ≤ 0xff then 0xcc :: writeNumber 1 number
  else if number ≤ 0xffff then 0xcd :: writeNumber 2 number
  else if number ≤ 0xffffffff then 0xce :: writeNumber 4 number
  else 0xcf :: writeNumber 8 number

/-- The bits of a signed number of this width. -/
def twosComplement (width : Nat) (number : Int) : Nat := (number % (256 ^ width : Nat)).toNat

/-- A negative number in MessagePack. The upper ends of the ranges need no test for it. -/
def msgpackNegative (number : Int) : Chars :=
  -- The first form is the negative fixint.
  if -32 ≤ number then writeNumber 1 (twosComplement 1 number)
  else if -0x80 ≤ number then 0xd0 :: writeNumber 1 (twosComplement 1 number)
  else if -0x8000 ≤ number then 0xd1 :: writeNumber 2 (twosComplement 2 number)
  else if -0x80000000 ≤ number then 0xd2 :: writeNumber 4 (twosComplement 4 number)
  else 0xd3 :: writeNumber 8 (twosComplement 8 number)

/-- A string in MessagePack. One that is too long is written without a control byte. -/
def writeMsgpackString (text : Chars) : Chars :=
  let size := text.length
  (if size ≤ 31 then writeNumber 1 (0xa0 ||| size)
  else if size ≤ 255 then 0xd9 :: writeNumber 1 size
  else if size ≤ 65535 then 0xda :: writeNumber 2 size
  else if size ≤ 4294967295 then 0xdb :: writeNumber 4 size
  else []) ++ text

/-- The control byte of an array or object of MessagePack with its size, if it is not too large. -/
def msgpackHead (fix control16 control32 : UInt8) (size : Nat) : Chars :=
  if size ≤ 15 then writeNumber 1 (fix.toNat ||| size)
  else if size ≤ 0xffff then control16 :: writeNumber 2 size
  else if size ≤ 0xffffffff then control32 :: writeNumber 4 size
  -- The source has no case for a larger size, and writes no head then.
  else []

mutual

/-- `write_msgpack` -/
def writeMsgpack : BasicJson → Chars
  | .null => [0xc0]
  | .boolean value => [if value then 0xc3 else 0xc2]
  | .numberInteger value =>
    if 0 ≤ value then msgpackUnsigned value.toInt.toNat else msgpackNegative value.toInt
  | .numberUnsigned value => msgpackUnsigned value.toNat
  | .numberFloat bits => 0xcb :: writeNumber 8 bits.toNat
  | .string text => writeMsgpackString text
  | .array elements =>
    msgpackHead 0x90 0xdc 0xdd elements.length ++ writeMsgpackElements elements
  | .object members => msgpackHead 0x80 0xde 0xdf members.length ++ writeMsgpackMembers members
  | .discarded => []

/-- The elements of an array, one behind the other. -/
def writeMsgpackElements : List BasicJson → Chars
  | [] => []
  | element :: rest => writeMsgpack element ++ writeMsgpackElements rest

/-- The members of an object, each as its key and its value. -/
def writeMsgpackMembers : List (Chars × BasicJson) → Chars
  | [] => []
  | (key, value) :: rest => (writeMsgpackString key ++ writeMsgpack value) ++ writeMsgpackMembers rest

end

/-- What is written for elements, without the recursion. -/
theorem writeMsgpackElements_eq (elements : List BasicJson) :
    writeMsgpackElements elements = elements.flatMap writeMsgpack := by
  induction elements with
  | nil => rfl
  | cons element rest ih => rw [writeMsgpackElements, ih, List.flatMap_cons]

/-- What is written for members, without the recursion. -/
theorem writeMsgpackMembers_eq (members : List (Chars × BasicJson)) :
    writeMsgpackMembers members =
      members.flatMap fun entry => writeMsgpackString entry.1 ++ writeMsgpack entry.2 := by
  induction members with
  | nil => rfl
  | cons entry rest ih => rw [writeMsgpackMembers, ih, List.flatMap_cons]

end LinuxPro.Json
