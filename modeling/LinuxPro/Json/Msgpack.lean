import LinuxPro.Json.BinaryLaws

/-! A value written as MessagePack is read back from it. -/

namespace LinuxPro.Json

open Reader

/-- The sizes of a value for which MessagePack has control bytes. -/
def BasicJson.Short : BasicJson → Prop
  | .object members =>
    members.length ≤ 0xffffffff ∧ ∀ entry ∈ members, entry.1.length ≤ 0xffffffff
  | json => json.extent ≤ 0xffffffff

/-- A value is read by its control byte and the switch on that. -/
theorem reads_parseMsgpackInternal {fuel : Nat} {before : Option UInt8} {control : UInt8}
    {rest : Chars} {value : BasicJson}
    (item : Reads (msgpackItem (parseMsgpackInternal fuel) control) (some control) rest value) :
    Reads (parseMsgpackInternal (fuel + 1)) before (control :: rest) value := by
  rw [parseMsgpackInternal]
  exact reads_get_bind item

/-- An unsigned number is read back, however it was held. -/
theorem reads_msgpackUnsigned (fuel : Nat) {number : Nat} (fits : number < 2 ^ 64)
    (before : Option UInt8) :
    Reads (parseMsgpackInternal (fuel + 1)) before (msgpackUnsigned number)
      (.numberUnsigned (.ofNat number)) := by
  -- The four longer forms read a number of their width.
  have wide : ∀ width, number < 256 ^ width → ∀ before,
      Reads (do return BasicJson.numberUnsigned (.ofNat (← getNumber width))) before
        (writeNumber width number) (.numberUnsigned (.ofNat number)) := by
    intro width room before
    exact (reads_getNumber room before).map fun result => BasicJson.numberUnsigned (.ofNat result)
  unfold msgpackUnsigned
  split
  · -- The number is its own control byte.
    have byte : number.toUInt8.toNat = number := toNat_toUInt8_of_lt (by omega)
    have low : number.toUInt8 ≤ 0x7f := UInt8.le_iff_toNat_le.mpr (by rw [byte]; show _ ≤ 127; omega)
    rw [writeNumber_one]
    apply reads_parseMsgpackInternal
    rw [msgpackItem, if_pos low, byte]
    exact reads_pure _ _
  · split
    · exact reads_parseMsgpackInternal (wide 1 (by omega) _)
    · split
      · exact reads_parseMsgpackInternal (wide 2 (by omega) _)
      · split
        · exact reads_parseMsgpackInternal (wide 4 (by omega) _)
        · exact reads_parseMsgpackInternal (wide 8 (by omega) _)

/-- The bits of a signed number fit its width. -/
theorem twosComplement_lt (width : Nat) (number : Int) :
    twosComplement width number < 256 ^ width := by
  have positive : 0 < 256 ^ width := Nat.pow_pos (by omega)
  unfold twosComplement
  -- It is a remainder by the size of the range.
  generalize 256 ^ width = range at positive ⊢
  have low := Int.emod_nonneg number (b := range) (by omega)
  have high := Int.emod_lt_of_pos number (b := range) (by omega)
  omega

/-- A negative number has the bits of what it lacks to the end of the range. -/
theorem twosComplement_negative {width : Nat} {number : Int}
    (low : -(256 ^ width : Nat) ≤ 2 * number) (negative : number < 0) :
    (twosComplement width number : Int) = number + (256 ^ width : Nat) := by
  unfold twosComplement
  generalize 256 ^ width = range at low ⊢
  rw [← Int.add_emod_right, Int.emod_eq_of_lt] <;> omega

/-- A negative number that fits its width is what its bits stand for. -/
theorem ofTwosComplement_twosComplement {width : Nat} {number : Int}
    (low : -(256 ^ width : Nat) ≤ 2 * number) (negative : number < 0) :
    ofTwosComplement width (twosComplement width number) = .ofInt number := by
  have bits := twosComplement_negative low negative
  unfold ofTwosComplement
  generalize 256 ^ width = range at low bits ⊢
  -- The bits of a negative number are in the upper half of the range.
  rw [if_neg (by omega), bits]
  congr 1
  omega

/-- A negative number is read back, in each of its widths. -/
theorem reads_msgpackNegative (fuel : Nat) {value : Int64} (negative : value.toInt < 0)
    (before : Option UInt8) :
    Reads (parseMsgpackInternal (fuel + 1)) before (msgpackNegative value.toInt)
      (.numberInteger value) := by
  -- The four longer forms read the bits of a number of their width.
  have wide : ∀ width, -(256 ^ width : Nat) ≤ 2 * value.toInt → ∀ before,
      Reads (do return BasicJson.numberInteger (ofTwosComplement width (← getNumber width))) before
        (writeNumber width (twosComplement width value.toInt)) (.numberInteger value) := by
    intro width room before
    have result := (reads_getNumber (twosComplement_lt width value.toInt) before).map
      fun result => BasicJson.numberInteger (ofTwosComplement width result)
    rwa [ofTwosComplement_twosComplement room negative, Int64.ofInt_toInt] at result
  have lowest := value.le_toInt
  unfold msgpackNegative
  split
  · next small =>
    -- The bits of the number are its own control byte, among the 32 last ones.
    have bits := @twosComplement_negative 1 _ (by omega) negative
    have byte : (twosComplement 1 value.toInt).toUInt8.toNat = twosComplement 1 value.toInt :=
      toNat_toUInt8_of_lt (by omega)
    have high : 0xe0 ≤ (twosComplement 1 value.toInt).toUInt8 :=
      UInt8.le_iff_toNat_le.mpr (by rw [byte]; show 224 ≤ _; omega)
    rw [writeNumber_one]
    apply reads_parseMsgpackInternal
    generalize control : (twosComplement 1 value.toInt).toUInt8 = current at byte high
    have item : msgpackItem (parseMsgpackInternal fuel) current =
        pure (.numberInteger (ofTwosComplement 1 current.toNat)) := by
      rw [msgpackItem]
      -- None of the other cases of the switch has this byte.
      iterate 22 rw [if_neg (by grind)]
      rw [if_pos high]
    rw [item, byte, ofTwosComplement_twosComplement (by omega) negative, Int64.ofInt_toInt]
    exact reads_pure _ _
  · split
    · exact reads_parseMsgpackInternal (wide 1 (by omega) _)
    · split
      · exact reads_parseMsgpackInternal (wide 2 (by omega) _)
      · split
        · exact reads_parseMsgpackInternal (wide 4 (by omega) _)
        · exact reads_parseMsgpackInternal (wide 8 (by omega) _)

/-- A signed number is read back by its sign. -/
theorem reads_msgpackInteger (fuel : Nat) (value : Int64) (before : Option UInt8) :
    Reads (parseMsgpackInternal (fuel + 1)) before (writeMsgpack (.numberInteger value))
      (BasicJson.canonical (.numberInteger value)) := by
  rw [writeMsgpack, BasicJson.canonical_numberInteger]
  by_cases positive : 0 ≤ value
  · -- A number that is not negative is written as an unsigned one.
    rw [if_pos positive, if_pos positive, ← ofNat_toInt_toNat positive]
    exact reads_msgpackUnsigned fuel (toInt_toNat_lt value) before
  · rw [if_neg positive, if_neg positive]
    rw [Int64.le_iff_toInt_le] at positive
    exact reads_msgpackNegative fuel (not_le.mp positive) before

/-- A double is read back by its bits. -/
theorem reads_msgpackFloat (fuel : Nat) (bits : UInt64) (before : Option UInt8) :
    Reads (parseMsgpackInternal (fuel + 1)) before (writeMsgpack (.numberFloat bits))
      (.numberFloat bits) := by
  rw [writeMsgpack]
  apply reads_parseMsgpackInternal
  have number := @reads_getNumber 8 bits.toNat bits.toNat_lt (some 0xcb)
  have result := number.map fun word => BasicJson.numberFloat (.ofNat word)
  rwa [UInt64.ofNat_toNat] at result

/-- A string is read by its control byte, which was asked for already. -/
theorem writeMsgpackString_reads {text : Chars} (short : text.length ≤ 0xffffffff) :
    ∃ byte rest, writeMsgpackString text = byte :: rest ∧
      (0xa0 ≤ byte ∧ byte ≤ 0xbf ∨ 0xd9 ≤ byte ∧ byte ≤ 0xdb) ∧
      Reads getMsgpackString (some byte) rest text := by
  -- The three longer forms have the length in bytes of its own.
  have wide : ∀ width before, text.length < 256 ^ width →
      Reads (do getString (← getNumber width)) before (writeNumber width text.length ++ text) text :=
    fun width before room => (reads_getNumber room before).bind (reads_getString _ text)
  unfold writeMsgpackString
  simp only
  split
  · -- A short text has its length in the last five bits of the control byte.
    have joined : 0xa0 ||| text.length = 0xa0 + text.length :=
      or_eq_add 5 rfl (by omega)
    have byte : (0xa0 + text.length).toUInt8.toNat = 0xa0 + text.length :=
      toNat_toUInt8_of_lt (by omega)
    rw [joined, writeNumber_one]
    generalize (0xa0 + text.length).toUInt8 = control at byte
    have low : 0xa0 ≤ control := UInt8.le_iff_toNat_le.mpr (by rw [byte]; show 160 ≤ _; omega)
    have high : control ≤ 0xbf := UInt8.le_iff_toNat_le.mpr (by rw [byte]; show _ ≤ 191; omega)
    refine ⟨control, text, rfl, .inl ⟨low, high⟩, ?_⟩
    apply reads_current_bind
    show Reads (if 0xa0 ≤ control ∧ control ≤ 0xbf then _ else _) _ _ _
    have size : (0xa0 + text.length) % 32 = text.length := by omega
    rw [if_pos ⟨low, high⟩, toNat_and_1f, byte, size]
    exact reads_getString _ text
  · split
    · exact ⟨0xd9, _, rfl, by decide, reads_current_bind (wide 1 _ (by omega))⟩
    · split
      · exact ⟨0xda, _, rfl, by decide, reads_current_bind (wide 2 _ (by omega))⟩
      · exact ⟨0xdb, _, rfl, by decide, reads_current_bind (wide 4 _ (by omega))⟩

/-- A text is read back. -/
theorem reads_msgpackString (fuel : Nat) {text : Chars} (short : text.length ≤ 0xffffffff)
    (before : Option UInt8) :
    Reads (parseMsgpackInternal (fuel + 1)) before (writeMsgpackString text) (.string text) := by
  obtain ⟨byte, rest, head, inside, reads⟩ := writeMsgpackString_reads short
  rw [head]
  apply reads_parseMsgpackInternal
  -- Both ranges of control bytes lead to the same branch.
  have item : msgpackItem (parseMsgpackInternal fuel) byte =
      (do return .string (← getMsgpackString)) := by
    rw [msgpackItem]
    rcases inside with fix | sized
    · iterate 3 rw [if_neg (by grind)]
      rw [if_pos fix.2]
    · iterate 17 rw [if_neg (by grind)]
      rw [if_pos sized]
  rw [item]
  exact reads.map BasicJson.string

/--
The size of an array or object is read by the control byte in front of it.

The two families differ in their control bytes and in what is done with the size.
-/
theorem msgpackHead_reads {fix control16 control32 : UInt8} {size : Nat}
    {parse : BinaryReader BasicJson} (sequence : Nat → BinaryReader BasicJson)
    (aligned : fix.toNat % 16 = 0) (room : fix.toNat < 240)
    (small : ∀ current : UInt8, fix.toNat ≤ current.toNat → current.toNat < fix.toNat + 16 →
      msgpackItem parse current = sequence (current &&& 0x0f).toNat)
    (medium : msgpackItem parse control16 = (do sequence (← getNumber 2)))
    (large : msgpackItem parse control32 = (do sequence (← getNumber 4)))
    (short : size ≤ 0xffffffff) :
    ∃ byte rest, msgpackHead fix control16 control32 size = byte :: rest ∧
      ∀ bytes value, (∀ before, Reads (sequence size) before bytes value) →
        Reads (msgpackItem parse byte) (some byte) (rest ++ bytes) value := by
  unfold msgpackHead
  split
  · -- A small size is in the last four bits of the control byte.
    have joined : fix.toNat ||| size = fix.toNat + size := or_eq_add 4 aligned (by omega)
    have byte : (fix.toNat + size).toUInt8.toNat = fix.toNat + size :=
      toNat_toUInt8_of_lt (by omega)
    rw [joined, writeNumber_one]
    refine ⟨_, [], rfl, fun bytes value reads => ?_⟩
    have last : (fix.toNat + size) % 16 = size := by omega
    rw [small _ (by omega) (by omega), toNat_and_0f, byte, last]
    exact reads _
  · split
    · refine ⟨control16, _, rfl, fun bytes value reads => ?_⟩
      rw [medium]
      exact (reads_getNumber (by omega) _).bind (reads _)
    · refine ⟨control32, _, rfl, fun bytes value reads => ?_⟩
      rw [large]
      exact (reads_getNumber (by omega) _).bind (reads _)

/-- The control bytes of short arrays. -/
theorem msgpackItem_fixarray {parse : BinaryReader BasicJson} {current : UInt8}
    (low : 0x90 ≤ current.toNat) (high : current.toNat < 0xa0) :
    msgpackItem parse current = getMsgpackArray parse (current &&& 0x0f).toNat := by
  have atLeast : 0x90 ≤ current := UInt8.le_iff_toNat_le.mpr low
  have atMost : current ≤ 0x9f := UInt8.le_iff_toNat_le.mpr (Nat.le_of_lt_succ high)
  rw [msgpackItem, if_neg (by grind), if_neg (by grind), if_pos atMost]

/-- The control bytes of short objects. -/
theorem msgpackItem_fixmap {parse : BinaryReader BasicJson} {current : UInt8}
    (low : 0x80 ≤ current.toNat) (high : current.toNat < 0x90) :
    msgpackItem parse current = getMsgpackObject parse (current &&& 0x0f).toNat := by
  have atLeast : 0x80 ≤ current := UInt8.le_iff_toNat_le.mpr low
  have atMost : current ≤ 0x8f := UInt8.le_iff_toNat_le.mpr (Nat.le_of_lt_succ high)
  rw [msgpackItem, if_neg (by grind), if_pos atMost]

/-- The first byte of a size is one of the control bytes of its family. -/
theorem msgpackHead_cons {fix control16 control32 : UInt8} {size : Nat}
    (aligned : fix.toNat % 16 = 0) (room : fix.toNat < 240) (short : size ≤ 0xffffffff) :
    ∃ byte rest, msgpackHead fix control16 control32 size = byte :: rest ∧
      (byte.toNat < fix.toNat + 16 ∨ byte = control16 ∨ byte = control32) := by
  unfold msgpackHead
  split
  · -- The control byte with a small size is one of sixteen.
    have joined : fix.toNat ||| size = fix.toNat + size := or_eq_add 4 aligned (by omega)
    have byte : (fix.toNat + size).toUInt8.toNat = fix.toNat + size :=
      toNat_toUInt8_of_lt (by omega)
    rw [joined, writeNumber_one]
    exact ⟨_, [], rfl, .inl (by omega)⟩
  · split
    · exact ⟨control16, _, rfl, .inr (.inl rfl)⟩
    · exact ⟨control32, _, rfl, .inr (.inr rfl)⟩

/-- A value is written as bytes that start like a byte order mark only if it is the number -17. -/
theorem writeMsgpack_cons {json : BasicJson} (kept : json.Kept) (short : json.Short) :
    ∃ byte rest, writeMsgpack json = byte :: rest ∧
      (byte = 0xef → json = .numberInteger (-17) ∧ rest = []) := by
  -- No number that is not negative starts with the first byte of the mark.
  have unsigned : ∀ number, ∃ byte rest, msgpackUnsigned number = byte :: rest ∧ byte ≠ 0xef := by
    intro number
    unfold msgpackUnsigned
    split
    · rw [writeNumber_one]
      refine ⟨_, [], rfl, fun same => ?_⟩
      have byte : number.toUInt8.toNat = number := toNat_toUInt8_of_lt (by omega)
      have marked : UInt8.toNat 0xef = 239 := rfl
      rw [same] at byte
      omega
    · split
      · exact ⟨0xcc, _, rfl, by decide⟩
      · split
        · exact ⟨0xcd, _, rfl, by decide⟩
        · split
          · exact ⟨0xce, _, rfl, by decide⟩
          · exact ⟨0xcf, _, rfl, by decide⟩
  cases json with
  | discarded => exact absurd rfl kept
  | null => exact ⟨0xc0, [], rfl, fun same => absurd same (by decide)⟩
  | boolean value =>
    cases value with
    | false => exact ⟨0xc2, [], rfl, fun same => absurd same (by decide)⟩
    | true => exact ⟨0xc3, [], rfl, fun same => absurd same (by decide)⟩
  | numberFloat bits => exact ⟨0xcb, _, rfl, fun same => absurd same (by decide)⟩
  | numberUnsigned value =>
    obtain ⟨byte, rest, written, differs⟩ := unsigned value.toNat
    exact ⟨byte, rest, written, fun same => absurd same differs⟩
  | numberInteger value =>
    rw [writeMsgpack]
    split
    · obtain ⟨byte, rest, written, differs⟩ := unsigned value.toInt.toNat
      exact ⟨byte, rest, written, fun same => absurd same differs⟩
    · next positive =>
      rw [Int64.le_iff_toInt_le] at positive
      have zero : Int64.toInt 0 = 0 := rfl
      unfold msgpackNegative
      split
      · -- A small negative number is one byte, and only one number is the first of the mark.
        rw [writeNumber_one]
        refine ⟨_, [], rfl, fun same => ⟨?_, rfl⟩⟩
        -- The byte is the number and 256.
        have bits := @twosComplement_negative 1 value.toInt (by omega) (by omega)
        have byte : (twosComplement 1 value.toInt).toUInt8.toNat = twosComplement 1 value.toInt :=
          toNat_toUInt8_of_lt (by omega)
        have marked : UInt8.toNat 0xef = 239 := rfl
        rw [same] at byte
        have number : value.toInt = Int64.toInt (-17) := by
          show value.toInt = -17
          omega
        rw [Int64.toInt_inj.mp number]
      · split
        · exact ⟨0xd0, _, rfl, fun same => absurd same (by decide)⟩
        · split
          · exact ⟨0xd1, _, rfl, fun same => absurd same (by decide)⟩
          · split
            · exact ⟨0xd2, _, rfl, fun same => absurd same (by decide)⟩
            · exact ⟨0xd3, _, rfl, fun same => absurd same (by decide)⟩
  | string text =>
    obtain ⟨byte, rest, written, inside, _⟩ := writeMsgpackString_reads short
    refine ⟨byte, rest, written, fun same => absurd inside ?_⟩
    rw [same]
    decide
  | array elements =>
    obtain ⟨byte, rest, written, inside⟩ :=
      @msgpackHead_cons 0x90 0xdc 0xdd elements.length rfl (by decide) short
    refine ⟨byte, rest ++ _, by rw [writeMsgpack, written]; rfl, fun same => absurd inside ?_⟩
    rw [same]
    decide
  | object members =>
    obtain ⟨byte, rest, written, inside⟩ :=
      @msgpackHead_cons 0x80 0xde 0xdf _ rfl (by decide) short.1
    refine ⟨byte, rest ++ _, by rw [writeMsgpack, written]; rfl, fun same => absurd inside ?_⟩
    rw [same]
    decide

/-- An array is read if its elements are. -/
theorem reads_msgpackArray {fuel : Nat} {elements : List BasicJson}
    (short : elements.length ≤ 0xffffffff)
    (inside : ∀ element ∈ elements, ∀ before,
      Reads (parseMsgpackInternal fuel) before (writeMsgpack element) element.canonical)
    (before : Option UInt8) :
    Reads (parseMsgpackInternal (fuel + 1)) before (writeMsgpack (.array elements))
      (BasicJson.array elements).canonical := by
  -- The head of an array leads to the code that reads so many elements.
  obtain ⟨byte, rest, head, reads⟩ := @msgpackHead_reads 0x90 0xdc 0xdd _ _
    (getMsgpackArray (parseMsgpackInternal fuel)) rfl (by decide)
    (fun _ => msgpackItem_fixarray) rfl rfl short
  rw [writeMsgpack, writeMsgpackElements_eq, head, BasicJson.canonical_array]
  apply reads_parseMsgpackInternal
  apply reads
  intro before
  exact (reads_generateN writeMsgpack BasicJson.canonical elements inside _).map BasicJson.array

/-- An object is read if its values are, as its members come in the order of their keys. -/
theorem reads_msgpackObject {fuel : Nat} {members : List (Chars × BasicJson)}
    (short : (BasicJson.object members).Short) (sorted : SortedMap.Sorted members)
    (inside : ∀ entry ∈ members, ∀ before,
      Reads (parseMsgpackInternal fuel) before (writeMsgpack entry.2) entry.2.canonical)
    (before : Option UInt8) :
    Reads (parseMsgpackInternal (fuel + 1)) before (writeMsgpack (.object members))
      (BasicJson.object members).canonical := by
  obtain ⟨byte, rest, head, reads⟩ := @msgpackHead_reads 0x80 0xde 0xdf _ _
    (getMsgpackObject (parseMsgpackInternal fuel)) rfl (by decide)
    (fun _ => msgpackItem_fixmap) rfl rfl short.1
  rw [writeMsgpack, writeMsgpackMembers_eq, head, BasicJson.canonical_object]
  apply reads_parseMsgpackInternal
  apply reads
  intro before
  -- Of a key the control byte is asked for before it is read as a string.
  have each : ∀ entry ∈ members, ∀ before,
      Reads (getMember getMsgpackString (parseMsgpackInternal fuel)) before
        (writeMsgpackString entry.1 ++ writeMsgpack entry.2) (entry.1, entry.2.canonical) := by
    intro entry member before
    obtain ⟨control, keyRest, key, _, readsKey⟩ :=
      writeMsgpackString_reads (short.2 entry member)
    rw [key]
    exact reads_getMember readsKey (inside entry member) before
  have all := (reads_generateN _ _ members each before).map
    fun read => BasicJson.object (insertAll read)
  -- The members come back in the order in which they are kept.
  rwa [insertAll_of_sorted (sorted_map BasicJson.canonical sorted)] at all

/--
Every value is read back from what is written for it, whatever follows.

The fuel may be as little as the bytes written, as each value inside another takes fewer of them.
-/
theorem reads_writeMsgpack (json : BasicJson) (writable : json.Writable)
    (short : json.Every BasicJson.Short) (fuel : Nat)
    (enough : (writeMsgpack json).length ≤ fuel + 1) (before : Option UInt8) :
    Reads (parseMsgpackInternal (fuel + 1)) before (writeMsgpack json) json.canonical := by
  -- The induction is over the value, with any fuel that is enough for what is inside.
  induction json using BasicJson.induct generalizing fuel before with
  | discarded => exact absurd rfl writable.kept.here
  | null => exact reads_parseMsgpackInternal (reads_pure _ _)
  | boolean value =>
    cases value with
    | false => exact reads_parseMsgpackInternal (reads_pure _ _)
    | true => exact reads_parseMsgpackInternal (reads_pure _ _)
  | numberInteger value => exact reads_msgpackInteger fuel value before
  | numberUnsigned value =>
    have read := reads_msgpackUnsigned fuel value.toNat_lt before
    rwa [UInt64.ofNat_toNat] at read
  | numberFloat bits => exact reads_msgpackFloat fuel bits before
  | string text => exact reads_msgpackString fuel short.here before
  | array elements ih =>
    apply reads_msgpackArray short.here
    intro element member before
    have here := writable.element member
    have shortHere := ((BasicJson.every_array.mp short).2 element member)
    -- An element takes a byte, and fewer than the array, so there is fuel to read it.
    obtain ⟨_, _, one, _⟩ := writeMsgpack_cons here.kept.here shortHere.here
    obtain ⟨_, _, head, _⟩ :=
      @msgpackHead_cons 0x90 0xdc 0xdd elements.length rfl (by decide) short.here
    have part := length_le_flatMap writeMsgpack member
    rw [writeMsgpack, writeMsgpackElements_eq, List.length_append, head, List.length_cons] at enough
    have taken := congrArg List.length one
    rw [List.length_cons] at taken
    obtain ⟨left, rfl⟩ : ∃ left, fuel = left + 1 := ⟨fuel - 1, by omega⟩
    exact ih element member here shortHere left (by omega) before
  | object members ih =>
    apply reads_msgpackObject short.here writable.ordered.here.1
    intro entry member before
    have here := writable.value member
    have shortHere := ((BasicJson.every_object.mp short).2 entry member)
    -- As for an element, with the key in front of the value.
    obtain ⟨_, _, one, _⟩ := writeMsgpack_cons here.kept.here shortHere.here
    obtain ⟨_, _, head, _⟩ := @msgpackHead_cons 0x80 0xde 0xdf _ rfl (by decide) short.here.1
    have part := length_le_flatMap
      (fun entry => writeMsgpackString entry.1 ++ writeMsgpack entry.2) member
    rw [writeMsgpack, writeMsgpackMembers_eq, List.length_append, head, List.length_cons] at enough
    have taken := congrArg List.length one
    rw [List.length_cons] at taken
    simp only [List.length_append] at part
    obtain ⟨left, rfl⟩ : ∃ left, fuel = left + 1 := ⟨fuel - 1, by omega⟩
    exact ih entry member here shortHere left (by omega) before

/-- What is written for a value is read from a buffer, unless it looks like a byte order mark. -/
theorem readBuffer_writeMsgpack {json : BasicJson} (writable : json.Writable)
    (short : json.Every BasicJson.Short) (rest : Chars)
    (unmarked : json = .numberInteger (-17) → ¬ [0xbb, 0xbf] <+: rest) (strict : Bool) :
    fromMsgpack (toMsgpack json ++ rest) strict =
      if strict ∧ rest ≠ [] then
        .error (.thrown (.parseError 110 ((toMsgpack json).length + 1)
          (Chars.ofString "expected end of input")))
      else .ok json.canonical := by
  apply readBuffer_of_takes
  · obtain ⟨byte, tail, written, marked⟩ := writeMsgpack_cons writable.kept.here short.here
    rw [toMsgpack, written]
    -- Only the number -17 starts like a mark, and what follows does not go on like one.
    by_cases first : byte = 0xef
    · obtain ⟨number, rfl⟩ := marked first
      have apart := unmarked number
      simp [bufferAdapter, first, apart]
    · exact bufferAdapter_of_ne first
  · apply Reads.takes
    apply reads_writeMsgpack json writable short
    rw [toMsgpack, List.length_append]
    omega

/--
What `to_msgpack` returns for a value with sizes below 2^32 is read by `from_msgpack` as its
canonical form, whatever follows.

The number -17 is the first byte of a byte order mark, so that the rest of one may not follow it.
-/
theorem fromMsgpack_toMsgpack (document : Document)
    (short : document.root.Every BasicJson.Short) (rest : Chars)
    (unmarked : document.root = .numberInteger (-17) → ¬ [0xbb, 0xbf] <+: rest) (strict : Bool) :
    fromMsgpack (toMsgpack document.root ++ rest) strict =
      if strict ∧ rest ≠ [] then
        .error (.thrown (.parseError 110 ((toMsgpack document.root).length + 1)
          (Chars.ofString "expected end of input")))
      else .ok document.root.canonical :=
  readBuffer_writeMsgpack document.writable short rest unmarked strict

/-- The number -17 with a byte behind it that is none of a mark. -/
theorem fromMsgpack_toMsgpack_fixint :
    fromMsgpack (toMsgpack (.numberInteger (-17)) ++ [0x00]) false =
      .ok (.numberInteger (-17)) := by
  have read := fromMsgpack_toMsgpack
    ⟨.numberInteger (-17), by simp [BasicJson.Every, BasicJson.Kept],
      by simp [BasicJson.Every, BasicJson.Ordered], by simp [BasicJson.Every, BasicJson.extent]⟩
    (by simp [BasicJson.Every, BasicJson.Short, BasicJson.extent]) [0x00] (fun _ => by decide) false
  simpa [BasicJson.canonical_numberInteger] using read

end LinuxPro.Json
