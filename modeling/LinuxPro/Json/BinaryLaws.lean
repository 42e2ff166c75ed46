import LinuxPro.Json.BinaryReader
import LinuxPro.Lib.Bits

/-! What the parts of the binary reader read of what the parts of the binary writer wrote. -/

namespace LinuxPro.Json

open Reader

/-- A byte that is there is read. -/
theorem reads_getChecked (before : Option UInt8) (byte : UInt8) :
    Reads getChecked before [byte] byte :=
  reads_get_bind (reads_pure byte (some byte))

/-- So many bytes are read as they are. -/
theorem reads_getString (before : Option UInt8) (text : Chars) :
    Reads (getString text.length) before text text := by
  have bytes := reads_generateN (fun byte => [byte]) id text
    (fun byte _ before => reads_getChecked before byte) before
  simpa [getString] using bytes

/-- A number that fits its width is read back. -/
theorem reads_getNumber {width number : Nat} (fits : number < 256 ^ width) (before : Option UInt8) :
    Reads (getNumber width) before (writeNumber width number) number := by
  have bytes := (reads_getString before (bigEndian width number)).map ofBigEndian
  -- The number is put together from as many bytes as its width.
  rw [length_bigEndian, ofBigEndian_bigEndian fits] at bytes
  rw [writeNumber_eq]
  simpa [getNumber, getString, littleEndianess] using bytes

/-- A number of one byte is that byte. -/
theorem writeNumber_one (number : Nat) : writeNumber 1 number = [number.toUInt8] := by
  rw [writeNumber_eq]
  rfl

/-- The bits of a signed number that is not negative are those of the number. -/
theorem ofNat_toInt_toNat {value : Int64} (positive : 0 ≤ value) :
    UInt64.ofNat value.toInt.toNat = value.toUInt64 := by
  -- A word and the signed number it stands for agree in the lower half.
  have same : value.toInt = value.toUInt64.toNat := by
    rw [Int64.le_iff_toInt_le] at positive
    have bits : value.toInt = value.toBitVec.toInt := rfl
    have word : value.toUInt64.toNat = value.toBitVec.toNat := rfl
    have zero : Int64.toInt 0 = 0 := rfl
    rw [bits, zero, BitVec.toInt_eq_toNat_cond] at positive
    rw [bits, word, BitVec.toInt_eq_toNat_cond]
    -- The upper half of the words stands for negative numbers.
    split at positive <;> split <;> omega
  rw [same]
  simp

/-- The complement of a negative number is not negative, and complementing it gives it back. -/
theorem complement_negative {value : Int64} (negative : ¬ 0 ≤ value) :
    -1 - (UInt64.ofNat (-1 - value).toInt.toNat).toInt64 = value ∧
      (-1 - value).toInt.toNat < 2 ^ 63 := by
  rw [Int64.le_iff_toInt_le] at negative
  have zero : Int64.toInt 0 = 0 := rfl
  have one : Int64.toInt (-1) = -1 := rfl
  have lowest := value.le_toInt
  -- The subtraction does not overflow.
  have exact_ : (-1 - value).toInt = -1 - value.toInt := by
    rw [Int64.toInt_sub, one, Int.bmod_eq_of_le] <;> omega
  constructor
  · -- So the complement is a number that a word holds as it is.
    have positive : 0 ≤ -1 - value := by
      rw [Int64.le_iff_toInt_le, exact_]
      omega
    rw [ofNat_toInt_toNat positive, Int64.toInt64_toUInt64]
    grind
  · omega

/-- A signed number fits eight bytes. -/
theorem toInt_toNat_lt (value : Int64) : value.toInt.toNat < 2 ^ 64 := by
  have bound := value.toInt_lt
  omega

/-- Members in the order of their keys are inserted as they are. -/
theorem insertAll_of_sorted {members : List (Chars × BasicJson)}
    (sorted : SortedMap.Sorted members) : insertAll members = members := by
  rw [insertAll, SortedMap.foldl_insert_eq_firsts, SortedMap.firsts_of_sorted sorted]

/-- The order of members is that of their keys. -/
theorem sorted_map {members : List (Chars × BasicJson)} (make : BasicJson → BasicJson)
    (sorted : SortedMap.Sorted members) :
    SortedMap.Sorted (members.map fun entry => (entry.1, make entry.2)) :=
  List.pairwise_map.mpr sorted

/-- A member is read as its key, of which the control byte is asked for first, and its value. -/
theorem reads_getMember {getKey : BinaryReader Chars} {parse : BinaryReader BasicJson}
    {control : UInt8} {keyRest valueBytes key : Chars} {value : BasicJson}
    (readsKey : Reads getKey (some control) keyRest key)
    (readsValue : ∀ before, Reads parse before valueBytes value) (before : Option UInt8) :
    Reads (getMember getKey parse) before (control :: keyRest ++ valueBytes) (key, value) := by
  apply reads_get_bind
  exact readsKey.bind ((readsValue _).map fun result => (key, result))

/-- What is written for one of several values is no longer than what is written for all. -/
theorem length_le_flatMap {α : Type} (write : α → Chars) {values : List α} {value : α}
    (member : value ∈ values) : (write value).length ≤ (values.flatMap write).length := by
  rw [List.flatMap_def]
  -- It is one of the pieces that are put together.
  exact (List.sublist_flatten_of_mem (List.mem_map_of_mem member)).length_le

/-- What does not start with the first byte of a byte order mark is given as it is. -/
theorem bufferAdapter_of_ne {byte : UInt8} {rest : Chars} (unmarked : byte ≠ 0xef) :
    bufferAdapter (byte :: rest) = byte :: rest := by
  simp [bufferAdapter, Ne.symm unmarked]

/-- The strict mode passes a value behind which the input ends, and no other. -/
theorem readBuffer_of_takes {parse : BinaryReader BasicJson} {bytes rest : Chars}
    {value : BasicJson} (unmarked : bufferAdapter (bytes ++ rest) = bytes ++ rest)
    (takes : Takes parse none bytes value) (strict : Bool) :
    readBuffer (do expectEnd strict (← parse)) (bytes ++ rest) =
      if strict ∧ rest ≠ [] then
        .error (.thrown (.parseError 110 (bytes.length + 1)
          (Chars.ofString "expected end of input")))
      else .ok value := by
  obtain ⟨last, ran⟩ := takes rest 0
  -- Nothing was read before, so that the count is the number of bytes taken.
  rw [Nat.zero_add] at ran
  show ((parse ⟨bufferAdapter (bytes ++ rest), none, 0⟩ >>= fun ended =>
    expectEnd strict ended.1 ended.2).map Prod.fst) = _
  rw [unmarked, ran]
  -- Only the strict mode asks for one more byte.
  cases strict with
  | false => rfl
  | true =>
    cases rest with
    | nil => rfl
    | cons byte rest => rfl

end LinuxPro.Json
