import LinuxPro.Json.BinaryLaws

/-! A value written as CBOR is read back from it. -/

namespace LinuxPro.Json

open Reader

/--
The ways to write a number or size in a family of control bytes: in the control byte itself, or
behind it in one, two, four or eight bytes.
-/
inductive IsCborHead (control number : Nat) : Chars → Prop where
  | tiny (small : number ≤ 0x17) : IsCborHead control number [(control + number).toUInt8]
  | wide {offset width : Nat}
      (known : (offset, width) ∈ [(0x18, 1), (0x19, 2), (0x1a, 4), (0x1b, 8)])
      (fits : number < 256 ^ width) :
      IsCborHead control number ((control + offset).toUInt8 :: bigEndian width number)

/-- A number starts with a control byte of its family, and is read from what follows. -/
theorem IsCborHead.reads {control number : Nat} {head : Chars}
    (isHead : IsCborHead control number head) (family : control % 32 = 0) (room : control < 224) :
    ∃ byte rest, head = byte :: rest ∧ control ≤ byte.toNat ∧ byte.toNat ≤ control + 0x1b ∧
      ∀ before, Reads (cborArgument (byte &&& 0x1f).toNat) before rest number := by
  cases isHead with
  | tiny small =>
    have byte : (control + number).toUInt8.toNat = control + number :=
      toNat_toUInt8_of_lt (by omega)
    -- The number is what the last five bits of the control byte hold.
    have info : (control + number) % 32 = number := by omega
    refine ⟨_, [], rfl, by omega, by omega, fun before => ?_⟩
    rw [toNat_and_1f, byte, info, cborArgument, if_pos small]
    exact reads_pure number before
  | @wide offset width known fits =>
    -- The control byte tells the width of the number behind it by how far it is from its family's.
    have argument : offset ≤ 0x1b ∧ cborArgument offset = getNumber width := by
      simp only [List.mem_cons, Prod.mk.injEq, List.not_mem_nil, or_false] at known
      rcases known with ⟨rfl, rfl⟩ | ⟨rfl, rfl⟩ | ⟨rfl, rfl⟩ | ⟨rfl, rfl⟩ <;> exact ⟨by omega, rfl⟩
    have byte : (control + offset).toUInt8.toNat = control + offset :=
      toNat_toUInt8_of_lt (by omega)
    have info : (control + offset) % 32 = offset := by omega
    refine ⟨_, _, rfl, by omega, by omega, fun before => ?_⟩
    rw [toNat_and_1f, byte, info, argument.2, ← writeNumber_eq]
    exact reads_getNumber fits before

/-- The writer chooses the shortest of these ways. -/
theorem isCborHead_cborHead (control : Nat) {number : Nat} (fits : number < 2 ^ 64) :
    IsCborHead control number (cborHead control number) := by
  unfold cborHead
  simp only [writeNumber_eq]
  -- The cases are those of the writer, from the shortest on.
  split
  · next small => exact .tiny small
  · split
    · exact .wide (by simp) (by omega)
    · split
      · exact .wide (by simp) (by omega)
      · split
        · exact .wide (by simp) (by omega)
        · exact .wide (by simp) (by omega)

/-- What the writer writes for a number or size is read as that. -/
theorem cborHead_reads (control : Nat) {number : Nat} (family : control % 32 = 0)
    (room : control < 224) (fits : number < 2 ^ 64) :
    ∃ byte rest, cborHead control number = byte :: rest ∧ control ≤ byte.toNat ∧
      byte.toNat ≤ control + 0x1b ∧
      ∀ before, Reads (cborArgument (byte &&& 0x1f).toNat) before rest number :=
  (isCborHead_cborHead control fits).reads family room

/-- A string is read by its control byte, which was asked for already. -/
theorem writeCborString_reads {text : Chars} (sized : text.length < 2 ^ 64) :
    ∃ byte rest, writeCborString text = byte :: rest ∧ 0x60 ≤ byte ∧ byte ≤ 0x7b ∧
      Reads getCborString (some byte) rest text := by
  obtain ⟨byte, rest, head, low, high, reads⟩ := cborHead_reads 0x60 rfl (by omega) sized
  have atLeast : 0x60 ≤ byte := UInt8.le_iff_toNat_le.mpr low
  have atMost : byte ≤ 0x7b := UInt8.le_iff_toNat_le.mpr high
  refine ⟨byte, rest ++ text, by rw [writeCborString, head]; rfl, atLeast, atMost, ?_⟩
  -- The control byte is the current one, as it was asked for by the caller.
  apply reads_current_bind
  show Reads (if 0x60 ≤ byte ∧ byte ≤ 0x7b then _ else _) _ _ _
  rw [if_pos ⟨atLeast, atMost⟩]
  exact (reads _).bind (reads_getString _ text)

section Switch

/-! The switch at the control bytes that the writer uses. -/

variable {parse : BinaryReader BasicJson} {elements : BinaryReader (List BasicJson)}
  {members : BinaryReader (List (Chars × BasicJson))} {current : UInt8}

/-- The control bytes of numbers that are not negative. -/
theorem cborItem_unsigned (high : current ≤ 0x1b) :
    cborItem parse elements members current = (do
      return .numberUnsigned (.ofNat (← cborArgument (current &&& 0x1f).toNat))) := by
  rw [cborItem, if_pos high]

/-- The control bytes of negative numbers. -/
theorem cborItem_negative (low : 0x20 ≤ current) (high : current ≤ 0x3b) :
    cborItem parse elements members current = (do
      return .numberInteger
        (-1 - (UInt64.ofNat (← cborArgument (current &&& 0x1f).toNat)).toInt64)) := by
  rw [cborItem, if_neg (by grind), if_pos ⟨low, high⟩]

/-- The control bytes of texts that tell their length. -/
theorem cborItem_string (low : 0x60 ≤ current) (high : current ≤ 0x7b) :
    cborItem parse elements members current = (do return .string (← getCborString)) := by
  rw [cborItem, if_neg (by grind), if_neg (by grind), if_pos (.inl ⟨low, high⟩)]

/-- The control bytes of arrays that tell their length. -/
theorem cborItem_array (low : 0x80 ≤ current) (high : current ≤ 0x9b) :
    cborItem parse elements members current = (do
      getCborArray parse (← cborArgument (current &&& 0x1f).toNat)) := by
  rw [cborItem, if_neg (by grind), if_neg (by grind), if_neg (by grind), if_pos ⟨low, high⟩]

/-- The control bytes of objects that tell their length. -/
theorem cborItem_object (low : 0xa0 ≤ current) (high : current ≤ 0xbb) :
    cborItem parse elements members current = (do
      getCborObject parse (← cborArgument (current &&& 0x1f).toNat)) := by
  rw [cborItem, if_neg (by grind), if_neg (by grind), if_neg (by grind), if_neg (by grind),
    if_neg (by grind), if_pos ⟨low, high⟩]

end Switch

/-- Bytes are read as a value by the switch on the first of them. -/
def ReadsItem (fuel : Nat) (bytes : Chars) (value : BasicJson) : Prop :=
  ∃ control rest, bytes = control :: rest ∧
    Reads (cborItem (parseCborInternal fuel true) (cborElements fuel) (cborMembers fuel []) control)
      (some control) rest value

/-- A value is read by asking for its control byte first. -/
theorem ReadsItem.parse {fuel : Nat} {bytes : Chars} {value : BasicJson}
    (item : ReadsItem fuel bytes value) (before : Option UInt8) :
    Reads (parseCborInternal (fuel + 1) true) before bytes value := by
  obtain ⟨control, rest, rfl, reads⟩ := item
  rw [parseCborInternal]
  exact reads_get_bind reads

/--
A value is written as a control byte and more, and neither the break nor the first byte of a byte
order mark is such a control byte.
-/
theorem writeCbor_cons {json : BasicJson} (kept : json.Kept) (sized : json.extent < 2 ^ 64) :
    ∃ control rest, writeCbor json = control :: rest ∧
      (control.toNat ≤ 0xbb ∨ 0xf4 ≤ control.toNat ∧ control.toNat ≤ 0xfb) := by
  -- The control bytes of the families with a number or size go up to 0xbb.
  have head : ∀ control number (more : Chars), control % 32 = 0 → control ≤ 0xa0 →
      number < 2 ^ 64 → ∃ byte rest, cborHead control number ++ more = byte :: rest ∧
        (byte.toNat ≤ 0xbb ∨ 0xf4 ≤ byte.toNat ∧ byte.toNat ≤ 0xfb) := by
    intro control number more family small fits
    obtain ⟨byte, tail, written, _, high, _⟩ := cborHead_reads control family (by omega) fits
    exact ⟨byte, tail ++ more, by rw [written]; rfl, .inl (by omega)⟩
  cases json with
  | discarded => exact absurd rfl kept
  | null => exact ⟨0xf6, [], rfl, .inr (by decide)⟩
  | boolean value =>
    cases value with
    | false => exact ⟨0xf4, [], rfl, .inr (by decide)⟩
    | true => exact ⟨0xf5, [], rfl, .inr (by decide)⟩
  -- The sign decides between two families.
  | numberInteger value =>
    rw [writeCbor]
    split
    · simpa using head 0 value.toInt.toNat [] rfl (by omega) (toInt_toNat_lt value)
    · simpa using head 0x20 (-1 - value).toInt.toNat [] rfl (by omega) (toInt_toNat_lt _)
  | numberUnsigned value =>
    simpa [writeCbor] using head 0 value.toNat [] rfl (by omega) value.toNat_lt
  | numberFloat bits => exact ⟨0xfb, _, rfl, .inr (by decide)⟩
  | string text => exact head 0x60 text.length text rfl (by omega) sized
  | array elements =>
    rw [writeCbor]
    exact head 0x80 elements.length _ rfl (by omega) sized
  | object members =>
    rw [writeCbor]
    exact head 0xa0 members.length _ rfl (by omega) sized

/-- No value is written so that it starts like a byte order mark. -/
theorem bufferAdapter_writeCbor {json : BasicJson} (kept : json.Kept)
    (sized : json.extent < 2 ^ 64) (rest : Chars) :
    bufferAdapter (writeCbor json ++ rest) = writeCbor json ++ rest := by
  obtain ⟨control, tail, written, range⟩ := writeCbor_cons kept sized
  rw [written]
  apply bufferAdapter_of_ne
  -- The first byte of the mark is in neither of the two ranges.
  intro same
  rw [same] at range
  exact absurd range (by decide)

/-- Something is written for every value that is there. -/
theorem writeCbor_length_pos {json : BasicJson} (kept : json.Kept) (sized : json.extent < 2 ^ 64) :
    0 < (writeCbor json).length := by
  obtain ⟨control, rest, written, _⟩ := writeCbor_cons kept sized
  rw [written]
  exact Nat.succ_pos _

/-- A head has its control byte. -/
theorem cborHead_length_pos (control number : Nat) : 0 < (cborHead control number).length := by
  unfold cborHead
  split
  · simp [writeNumber_one]
  · split
    · simp
    · split
      · simp
      · split <;> simp

/-- An unsigned number is read back, however it was held. -/
theorem reads_cborUnsigned (fuel : Nat) {number : Nat} (fits : number < 2 ^ 64) :
    ReadsItem fuel (cborHead 0 number) (.numberUnsigned (.ofNat number)) := by
  obtain ⟨byte, rest, head, _, high, reads⟩ := cborHead_reads 0 rfl (by omega) fits
  refine ⟨byte, rest, head, ?_⟩
  rw [cborItem_unsigned (UInt8.le_iff_toNat_le.mpr high)]
  exact (reads _).map fun result => BasicJson.numberUnsigned (.ofNat result)

/-- A signed number is read back by its sign. -/
theorem reads_cborInteger (fuel : Nat) (value : Int64) :
    ReadsItem fuel (writeCbor (.numberInteger value))
      (BasicJson.canonical (.numberInteger value)) := by
  rw [writeCbor, BasicJson.canonical_numberInteger]
  by_cases positive : 0 ≤ value
  · -- A number that is not negative is written as an unsigned one.
    rw [if_pos positive, if_pos positive, ← ofNat_toInt_toNat positive]
    exact reads_cborUnsigned fuel (toInt_toNat_lt value)
  · rw [if_neg positive, if_neg positive]
    -- What is written is the complement of the number, which is complemented again.
    obtain ⟨same, bound⟩ := complement_negative positive
    obtain ⟨byte, rest, head, low, high, reads⟩ :=
      cborHead_reads 0x20 rfl (by omega) (Nat.lt_trans bound (by omega))
    refine ⟨byte, rest, head, ?_⟩
    rw [cborItem_negative (UInt8.le_iff_toNat_le.mpr low) (UInt8.le_iff_toNat_le.mpr high)]
    have result := (reads (some byte)).map fun number =>
      BasicJson.numberInteger (-1 - (UInt64.ofNat number).toInt64)
    rwa [same] at result

/-- A double is read back by its bits. -/
theorem reads_cborFloat (fuel : Nat) (bits : UInt64) :
    ReadsItem fuel (writeCbor (.numberFloat bits)) (.numberFloat bits) := by
  refine ⟨0xfb, _, by rw [writeCbor], ?_⟩
  have number := @reads_getNumber 8 bits.toNat bits.toNat_lt (some 0xfb)
  have result := number.map fun word => BasicJson.numberFloat (.ofNat word)
  rwa [UInt64.ofNat_toNat] at result

/-- A text is read back. -/
theorem reads_cborString (fuel : Nat) {text : Chars} (sized : text.length < 2 ^ 64) :
    ReadsItem fuel (writeCborString text) (.string text) := by
  obtain ⟨byte, rest, head, low, high, reads⟩ := writeCborString_reads sized
  refine ⟨byte, rest, head, ?_⟩
  rw [cborItem_string low high]
  exact reads.map BasicJson.string

/-- An array is read if its elements are. -/
theorem reads_cborArray {fuel : Nat} {elements : List BasicJson} (sized : elements.length < 2 ^ 64)
    (inside : ∀ element ∈ elements, ∀ before,
      Reads (parseCborInternal fuel true) before (writeCbor element) element.canonical) :
    ReadsItem fuel (writeCbor (.array elements)) (BasicJson.array elements).canonical := by
  obtain ⟨byte, rest, head, low, high, reads⟩ := cborHead_reads 0x80 rfl (by omega) sized
  rw [writeCbor, writeCborElements_eq, head, BasicJson.canonical_array]
  refine ⟨byte, _, rfl, ?_⟩
  rw [cborItem_array (UInt8.le_iff_toNat_le.mpr low) (UInt8.le_iff_toNat_le.mpr high)]
  apply (reads _).bind
  -- As many elements are read as the head says.
  exact (reads_generateN writeCbor BasicJson.canonical elements inside _).map BasicJson.array

/-- Members behind their number are read if their values are, and are inserted one by one. -/
theorem reads_cborMembersN {fuel : Nat} {members : List (Chars × BasicJson)}
    (sized : members.length < 2 ^ 64) (keySized : ∀ entry ∈ members, entry.1.length < 2 ^ 64)
    (inside : ∀ entry ∈ members, ∀ before,
      Reads (parseCborInternal fuel true) before (writeCbor entry.2) entry.2.canonical) :
    ReadsItem fuel (cborHead 0xa0 members.length ++
        members.flatMap fun entry => writeCborString entry.1 ++ writeCbor entry.2)
      (.object (insertAll (members.map fun entry => (entry.1, entry.2.canonical)))) := by
  obtain ⟨byte, rest, head, low, high, reads⟩ := cborHead_reads 0xa0 rfl (by omega) sized
  rw [head]
  refine ⟨byte, _, rfl, ?_⟩
  rw [cborItem_object (UInt8.le_iff_toNat_le.mpr low) (UInt8.le_iff_toNat_le.mpr high)]
  apply (reads _).bind
  -- Of a key the control byte is asked for before it is read as a string.
  have each : ∀ entry ∈ members, ∀ before,
      Reads (getMember getCborString (parseCborInternal fuel true)) before
        (writeCborString entry.1 ++ writeCbor entry.2) (entry.1, entry.2.canonical) := by
    intro entry member before
    obtain ⟨control, keyRest, key, _, _, readsKey⟩ := writeCborString_reads (keySized entry member)
    rw [key]
    exact reads_getMember readsKey (inside entry member) before
  exact (reads_generateN _ _ members each (rest.getLast?.or (some byte))).map
    fun read => BasicJson.object (insertAll read)

/-- An object is read if its values are, as its members come in the order of their keys. -/
theorem reads_cborObject {fuel : Nat} {members : List (Chars × BasicJson)}
    (sized : members.length < 2 ^ 64) (ordered : (BasicJson.object members).Ordered)
    (inside : ∀ entry ∈ members, ∀ before,
      Reads (parseCborInternal fuel true) before (writeCbor entry.2) entry.2.canonical) :
    ReadsItem fuel (writeCbor (.object members)) (BasicJson.object members).canonical := by
  have read := reads_cborMembersN sized ordered.2 inside
  -- The members come back in the order in which they are kept.
  rw [insertAll_of_sorted (sorted_map BasicJson.canonical ordered.1)] at read
  rwa [writeCbor, writeCborMembers_eq, BasicJson.canonical_object]

/--
Every value is read back from what is written for it, whatever follows.

The fuel may be as little as the bytes written, as each value inside another takes fewer of them.
-/
theorem reads_writeCbor (json : BasicJson) (writable : json.Writable) (fuel : Nat)
    (enough : (writeCbor json).length ≤ fuel + 1) :
    ReadsItem fuel (writeCbor json) json.canonical := by
  -- The induction is over the value, with any fuel that is enough for what is inside.
  induction json using BasicJson.induct generalizing fuel with
  | discarded => exact absurd rfl writable.kept.here
  | null => exact ⟨0xf6, [], rfl, reads_pure _ _⟩
  | boolean value =>
    cases value with
    | false => exact ⟨0xf4, [], rfl, reads_pure _ _⟩
    | true => exact ⟨0xf5, [], rfl, reads_pure _ _⟩
  | numberInteger value => exact reads_cborInteger fuel value
  | numberUnsigned value =>
    have read := reads_cborUnsigned fuel value.toNat_lt
    rwa [UInt64.ofNat_toNat] at read
  | numberFloat bits => exact reads_cborFloat fuel bits
  | string text => exact reads_cborString fuel writable.sized.here
  | array elements ih =>
    apply reads_cborArray writable.sized.here
    intro element member before
    have here := writable.element member
    -- An element takes a byte, and fewer than the array, so there is fuel to read it.
    have some_ := writeCbor_length_pos here.kept.here here.sized.here
    have part := length_le_flatMap writeCbor member
    have head := cborHead_length_pos 0x80 elements.length
    rw [writeCbor, writeCborElements_eq, List.length_append] at enough
    obtain ⟨left, rfl⟩ : ∃ left, fuel = left + 1 := ⟨fuel - 1, by omega⟩
    exact (ih element member here left (by omega)).parse before
  | object members ih =>
    apply reads_cborObject writable.sized.here writable.ordered.here
    intro entry member before
    have here := writable.value member
    have some_ := writeCbor_length_pos here.kept.here here.sized.here
    have part := length_le_flatMap
      (fun entry => writeCborString entry.1 ++ writeCbor entry.2) member
    have head := cborHead_length_pos 0xa0 members.length
    rw [writeCbor, writeCborMembers_eq, List.length_append] at enough
    simp only [List.length_append] at part
    obtain ⟨left, rfl⟩ : ∃ left, fuel = left + 1 := ⟨fuel - 1, by omega⟩
    exact (ih entry member here left (by omega)).parse before

/-- What is written for a value is read from a buffer, whatever follows in it. -/
theorem readBuffer_writeCbor {json : BasicJson} (writable : json.Writable) (rest : Chars)
    (strict : Bool) :
    fromCbor (toCbor json ++ rest) strict =
      if strict ∧ rest ≠ [] then
        .error (.thrown (.parseError 110 ((toCbor json).length + 1)
          (Chars.ofString "expected end of input")))
      else .ok json.canonical := by
  -- The bytes do not look like a mark, and the fuel is more than they are.
  apply readBuffer_of_takes (bufferAdapter_writeCbor writable.kept.here writable.sized.here rest)
  apply ((reads_writeCbor json writable _ _).parse none).takes
  rw [toCbor, List.length_append]
  omega

/--
What `to_cbor` returns for a value is read by `from_cbor` as its canonical form, whatever follows.

The strict mode refuses bytes behind it by the position of the first of them, and the other ignores
them.
-/
theorem fromCbor_toCbor (document : Document) (rest : Chars) (strict : Bool) :
    fromCbor (toCbor document.root ++ rest) strict =
      if strict ∧ rest ≠ [] then
        .error (.thrown (.parseError 110 ((toCbor document.root).length + 1)
          (Chars.ofString "expected end of input")))
      else .ok document.root.canonical :=
  readBuffer_writeCbor document.writable rest strict

end LinuxPro.Json
