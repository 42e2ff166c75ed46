import LinuxPro.Json.Truncation

/-! CBOR in forms that the library reads but does not write. -/

namespace LinuxPro.Json

open Reader

/--
Bytes that `from_cbor` accepts on their own as a value.

A byte order mark in front of them would be skipped, which it is nowhere else in a document.
-/
structure Encodes (bytes : Chars) (value : BasicJson) : Prop where
  accepted : fromCbor bytes true = .ok value
  unmarked : ¬ [0xef, 0xbb, 0xbf] <+: bytes

/-- A byte that was asked for before makes no difference to a value that is read from its start. -/
theorem parseCborInternal_again (fuel : Nat) (byte : UInt8) (left : Chars) (before : Option UInt8)
    (count : Nat) :
    parseCborInternal fuel false ⟨left, some byte, count + 1⟩ =
      parseCborInternal fuel true ⟨byte :: left, before, count⟩ := by
  -- With fuel both run the same switch on the byte, from the same source.
  cases fuel with
  | zero => rfl
  | succ fuel =>
    rw [parseCborInternal, parseCborInternal]
    rfl

/-- The reader gets such bytes as they are. -/
theorem Encodes.given {bytes : Chars} {value : BasicJson} (encodes : Encodes bytes value) :
    bufferAdapter bytes = bytes :=
  (@bufferAdapter_of_append bytes [] (by simpa using encodes.unmarked)).2

/-- What is accepted on its own has a first byte, and it is not the break. -/
theorem Encodes.starts {bytes : Chars} {value : BasicJson} (encodes : Encodes bytes value) :
    ∃ byte tail, bytes = byte :: tail ∧ byte ≠ 0xff := by
  have given := encodes.given
  obtain ⟨last, count, ran⟩ := ran_of_accepted given encodes.accepted
  -- No bytes at all are reported as the end of the input.
  cases bytes with
  | nil => cases ran
  | cons byte tail =>
    refine ⟨byte, tail, rfl, ?_⟩
    -- The switch knows no break, so a value that starts with one is refused.
    rintro rfl
    rw [parseCborInternal] at ran
    cases ran

/-- What is accepted on its own is read wherever it stands, given as much fuel. -/
theorem Encodes.takes {bytes : Chars} {value : BasicJson} (encodes : Encodes bytes value)
    {fuel : Nat} (enough : 2 * bytes.length + 1 ≤ fuel) (before : Option UInt8) :
    Takes (parseCborInternal fuel true) before bytes value := by
  intro rest count
  have given := encodes.given
  obtain ⟨last, total, ran⟩ := ran_of_accepted given encodes.accepted
  obtain ⟨byte, tail, rfl, _⟩ := encodes.starts
  -- It was read to its end, and this is continued by any input behind it.
  have continued := (extends_parseCborInternal _ fuel enough).1 true none
  refine ⟨last, ?_⟩
  rw [← continued.takes ran count rest, List.cons_append, ← parseCborInternal_again,
    ← parseCborInternal_again]

/-- Code that never gives a string. -/
def GivesNoString (code : BinaryReader BasicJson) : Prop :=
  ∀ source key after, code source ≠ .ok (.string key, after)

/-- A value of another kind is no string. -/
theorem givesNoString_pure {value : BasicJson} (kind : ∀ text, value ≠ .string text) :
    GivesNoString (pure value) := by
  intro source key after run
  cases run
  exact kind key rfl

/-- Code gives no string if its last part gives none. -/
theorem givesNoString_bind {α : Type} {code : BinaryReader α} {next : α → BinaryReader BasicJson}
    (later : ∀ value, GivesNoString (next value)) : GivesNoString (code >>= next) := by
  intro source key after run
  change (code source >>= fun ended => next ended.1 ended.2) = _ at run
  -- An error of the first part is one of the whole.
  cases ran : code source with
  | error failure =>
    rw [ran] at run
    cases run
  | ok ended =>
    rw [ran] at run
    exact later ended.1 ended.2 key after run

/-- A test between code that gives no string. -/
theorem givesNoString_ite {condition : Prop} [Decidable condition] {yes no : BinaryReader BasicJson}
    (whenTrue : condition → GivesNoString yes) (whenFalse : ¬ condition → GivesNoString no) :
    GivesNoString (if condition then yes else no) := by
  split
  · next holds => exact whenTrue holds
  · next fails => exact whenFalse fails

section Switch

variable {parse : BinaryReader BasicJson} {elements : BinaryReader (List BasicJson)}
  {members : BinaryReader (List (Chars × BasicJson))} {current : UInt8}

/-- The switch gives strings at the control bytes of strings only. -/
theorem givesNoString_cborItem (other : ¬(0x60 ≤ current ∧ current ≤ 0x7b ∨ current = 0x7f)) :
    GivesNoString (cborItem parse elements members current) := by
  -- Most branches build the value from what a helper has read.
  have made {α : Type} (code : BinaryReader α) (make : α → BasicJson)
      (kind : ∀ value text, make value ≠ .string text) :
      GivesNoString (do return make (← code)) :=
    givesNoString_bind fun value => givesNoString_pure (kind value)
  unfold cborItem
  apply givesNoString_ite (fun _ => made _ _ (by simp))
  intro _
  apply givesNoString_ite (fun _ => made _ _ (by simp))
  intro _
  -- This is the one branch that gives strings.
  apply givesNoString_ite (fun text => absurd text other)
  intro _
  apply givesNoString_ite (fun _ => givesNoString_bind fun _ => made _ _ (by simp))
  intro _
  apply givesNoString_ite (fun _ => made _ _ (by simp))
  intro _
  apply givesNoString_ite (fun _ => givesNoString_bind fun _ => made _ _ (by simp))
  intro _
  apply givesNoString_ite (fun _ => made _ _ (by simp))
  intro _
  apply givesNoString_ite (fun _ => givesNoString_pure (by simp))
  intro _
  apply givesNoString_ite (fun _ => givesNoString_pure (by simp))
  intro _
  apply givesNoString_ite (fun _ => givesNoString_pure (by simp))
  intro _
  apply givesNoString_ite (fun _ => givesNoString_bind fun _ => made _ _ (by simp))
  intro _
  apply givesNoString_ite (fun _ => made _ _ (by simp))
  intro _
  apply givesNoString_ite (fun _ => made _ _ (by simp))
  intro _ source key after run
  cases run

/-- Where the switch gives a string, it has called `get_cbor_string`. -/
theorem getCborString_of_cborItem {source after : Source} {key : Chars}
    (run : cborItem parse elements members current source = .ok (.string key, after)) :
    getCborString source = .ok (key, after) := by
  by_cases text : 0x60 ≤ current ∧ current ≤ 0x7b ∨ current = 0x7f
  · -- The control bytes of strings are above those of numbers.
    rw [cborItem, if_neg (by grind), if_neg (by grind), if_pos text] at run
    change (getCborString source >>= fun ended => _) = _ at run
    cases ran : getCborString source with
    | error failure =>
      rw [ran] at run
      cases run
    | ok ended =>
      rw [ran] at run
      cases run
      rfl
  · exact absurd run (givesNoString_cborItem text source key after)

end Switch

/-- A string that is accepted on its own is read as a key wherever it stands. -/
theorem Encodes.takesKey {bytes key : Chars} (encodes : Encodes bytes (.string key))
    (before : Option UInt8) :
    Takes (do let _ ← Reader.get; getCborString : BinaryReader Chars) before bytes key := by
  intro rest count
  obtain ⟨last, run⟩ := encodes.takes (Nat.le_refl _) before rest count
  obtain ⟨byte, tail, rfl, _⟩ := encodes.starts
  -- As a value it was given by the switch, which has called the same function.
  rw [parseCborInternal] at run
  exact ⟨last, getCborString_of_cborItem run⟩

/-- A value in an encoding of it that is accepted. -/
structure EncodedValue where
  bytes : Chars
  value : BasicJson
  encodes : Encodes bytes value

/-- A member of an object, with its key and its value in encodings that are accepted. -/
structure EncodedMember where
  keyBytes : Chars
  key : Chars
  valueBytes : Chars
  value : BasicJson
  encodesKey : Encodes keyBytes (.string key)
  encodesValue : Encodes valueBytes value

/-- A member is its key, and its value behind it. -/
def EncodedMember.bytes (member : EncodedMember) : Chars := member.keyBytes ++ member.valueBytes

/-- The member that is encoded. -/
def EncodedMember.entry (member : EncodedMember) : Chars × BasicJson := (member.key, member.value)

/-- The loop over the elements of an array of indefinite length, from a first byte on. -/
theorem cborElements_cons (fuel : Nat) {byte : UInt8} (left : Chars) (before : Option UInt8)
    (count : Nat) (going : byte ≠ 0xff) :
    cborElements (fuel + 1) ⟨byte :: left, before, count⟩ =
      (do
        let element ← parseCborInternal fuel true
        let rest ← cborElements fuel
        return element :: rest : BinaryReader (List BasicJson)) ⟨byte :: left, before, count⟩ := by
  rw [cborElements]
  show (if some byte = some 0xff then _ else _ : BinaryReader (List BasicJson))
    ⟨left, some byte, count + 1⟩ = _
  rw [if_neg (by simpa using going)]
  -- The control byte was asked for by the test for the break.
  show (parseCborInternal fuel false ⟨left, some byte, count + 1⟩ >>= fun ended => _) = _
  rw [parseCborInternal_again fuel byte left before count]
  rfl

/-- The loop over the elements of an array of indefinite length. -/
theorem takes_cborElements (elements : List EncodedValue) (fuel : Nat)
    (enough : 2 * (elements.flatMap EncodedValue.bytes).length + 2 ≤ fuel)
    (before : Option UInt8) :
    Takes (cborElements fuel) before (elements.flatMap EncodedValue.bytes ++ [0xff])
      (elements.map EncodedValue.value) := by
  -- Each element takes a byte, and so leaves fuel for the round behind it.
  induction elements generalizing fuel before with
  | nil =>
    -- The break alone takes one round.
    obtain ⟨fuel, rfl⟩ : ∃ less, fuel = less + 1 := ⟨fuel - 1, by omega⟩
    rw [cborElements]
    exact (reads_get_bind (reads_pure [] _)).takes
  | cons element elements ih =>
    obtain ⟨byte, tail, bytes, going⟩ := element.encodes.starts
    have length := congrArg List.length bytes
    rw [List.flatMap_cons, List.length_append] at enough
    rw [List.length_cons] at length
    obtain ⟨fuel, rfl⟩ : ∃ less, fuel = less + 1 := ⟨fuel - 1, by omega⟩
    have first := element.encodes.takes (show _ ≤ fuel by omega) before
    have later (last : Option UInt8) :=
      (ih fuel (by omega) last).map fun rest => element.value :: rest
    have both := @Takes.bind _ _ _ _
      (fun read => do return read :: (← cborElements fuel)) _ _ _ _ _ first later
    -- The round that the loop makes is the reading of both.
    intro rest count
    obtain ⟨last, run⟩ := both rest count
    refine ⟨last, ?_⟩
    rw [List.flatMap_cons, List.append_assoc element.bytes, List.map_cons, ← run, bytes]
    exact cborElements_cons fuel _ before count going

/-- The loop over the members of an object of indefinite length, from a first byte on. -/
theorem cborMembers_cons (fuel : Nat) (result : List (Chars × BasicJson)) {byte : UInt8}
    (left : Chars) (before : Option UInt8) (count : Nat) (going : byte ≠ 0xff) :
    cborMembers (fuel + 1) result ⟨byte :: left, before, count⟩ =
      (do
        let key ← (do let _ ← Reader.get; getCborString)
        let value ← parseCborInternal fuel true
        cborMembers fuel (SortedMap.assign key value result) :
          BinaryReader (List (Chars × BasicJson))) ⟨byte :: left, before, count⟩ := by
  rw [cborMembers]
  show (if some byte = some 0xff then _ else _ : BinaryReader (List (Chars × BasicJson)))
    ⟨left, some byte, count + 1⟩ = _
  -- The test has asked for the byte, which is what a member does first.
  rw [if_neg (by simpa using going)]
  rfl

/-- The loop over the members of an object of indefinite length, which assigns them one by one. -/
theorem takes_cborMembers (members : List EncodedMember) (fuel : Nat)
    (enough : 2 * (members.flatMap EncodedMember.bytes).length + 2 ≤ fuel)
    (result : List (Chars × BasicJson)) (before : Option UInt8) :
    Takes (cborMembers fuel result) before (members.flatMap EncodedMember.bytes ++ [0xff])
      ((members.map EncodedMember.entry).foldl
        (fun built entry => SortedMap.assign entry.1 entry.2 built) result) := by
  -- The induction is over the members, and the object read so far changes with each.
  induction members generalizing fuel result before with
  | nil =>
    obtain ⟨fuel, rfl⟩ : ∃ less, fuel = less + 1 := ⟨fuel - 1, by omega⟩
    rw [cborMembers]
    exact (reads_get_bind (reads_pure result _)).takes
  | cons member members ih =>
    obtain ⟨byte, tail, keyBytes, going⟩ := member.encodesKey.starts
    have length := congrArg List.length keyBytes
    rw [List.flatMap_cons, List.length_append, EncodedMember.bytes, List.length_append] at enough
    rw [List.length_cons] at length
    obtain ⟨fuel, rfl⟩ : ∃ less, fuel = less + 1 := ⟨fuel - 1, by omega⟩
    have key := member.encodesKey.takesKey before
    have value (last : Option UInt8) :=
      member.encodesValue.takes (show _ ≤ fuel by omega) last
    have later (last : Option UInt8) :=
      ih fuel (by omega) (SortedMap.assign member.key member.value result) last
    -- The value is read behind the key, and then the loop goes on.
    have both (last : Option UInt8) := @Takes.bind _ _ _ _
      (fun read => cborMembers fuel (SortedMap.assign member.key read result)) _ _ _ _ _
      (value last) later
    have all := @Takes.bind _ _ _ _ (fun key => do
      let value ← parseCborInternal fuel true
      cborMembers fuel (SortedMap.assign key value result)) _ _ _ _ _ key both
    have bytes : (member :: members).flatMap EncodedMember.bytes ++ [0xff] =
        member.keyBytes ++
          (member.valueBytes ++ (members.flatMap EncodedMember.bytes ++ [0xff])) := by
      simp [EncodedMember.bytes]
    intro rest count
    obtain ⟨last, run⟩ := all rest count
    refine ⟨last, ?_⟩
    rw [bytes, List.map_cons, List.foldl_cons]
    -- The round that the loop makes is the reading of all three.
    refine Eq.trans ?_ run
    rw [keyBytes]
    exact cborMembers_cons fuel result _ before count going

/-- A control byte and what the switch takes for it, at the start of what is given. -/
theorem fromCbor_of_takes {control : UInt8} {bytes rest : Chars} {value : BasicJson}
    (unmarked : control ≠ 0xef)
    (takes : Takes (cborItem (parseCborInternal (2 * (bytes ++ rest).length + 2) true)
      (cborElements (2 * (bytes ++ rest).length + 2))
      (cborMembers (2 * (bytes ++ rest).length + 2) []) control) (some control) bytes value)
    (strict : Bool) :
    fromCbor (control :: (bytes ++ rest)) strict =
      if strict ∧ rest ≠ [] then
        .error (.thrown (.parseError 110 (bytes.length + 2)
          (Chars.ofString "expected end of input")))
      else .ok value := by
  -- The control byte is asked for by the function around the switch.
  have whole : Takes (parseCborInternal (2 * (bytes ++ rest).length + 3) true) none
      (control :: bytes) value := by
    intro rest count
    obtain ⟨last, run⟩ := takes rest (count + 1)
    refine ⟨last, ?_⟩
    rw [parseCborInternal, List.length_cons, Nat.add_comm bytes.length, ← Nat.add_assoc]
    exact run
  exact @readBuffer_of_takes _ (control :: bytes) rest _ (bufferAdapter_of_ne unmarked) whole strict

/-- A control byte and what the switch takes for it, with nothing behind it. -/
theorem fromCbor_of_takes_end {control : UInt8} {bytes : Chars} {value : BasicJson}
    (unmarked : control ≠ 0xef)
    (takes : Takes (cborItem (parseCborInternal (2 * bytes.length + 2) true)
      (cborElements (2 * bytes.length + 2)) (cborMembers (2 * bytes.length + 2) []) control)
      (some control) bytes value) (strict : Bool) :
    fromCbor (control :: bytes) strict = .ok value := by
  have read := @fromCbor_of_takes control bytes [] value unmarked
    (by rwa [List.append_nil]) strict
  rwa [List.append_nil, if_neg (by simp)] at read

/--
An array is read from the encodings of its elements, behind their number or up to a break.

The number may be written in any width that holds it.
-/
theorem fromCbor_indefiniteArray (elements : List EncodedValue) {head : Chars}
    (isHead : IsCborHead 0x80 elements.length head) (strict : Bool) :
    fromCbor (head ++ elements.flatMap EncodedValue.bytes) strict =
        .ok (.array (elements.map EncodedValue.value)) ∧
      fromCbor (0x9f :: (elements.flatMap EncodedValue.bytes ++ [0xff])) strict =
        .ok (.array (elements.map EncodedValue.value)) := by
  constructor
  · obtain ⟨byte, rest, rfl, low, high, number⟩ := isHead.reads rfl (by decide)
    apply fromCbor_of_takes_end
    · rintro rfl
      exact absurd high (by decide)
    rw [cborItem_array (UInt8.le_iff_toNat_le.mpr low) (UInt8.le_iff_toNat_le.mpr high)]
    apply (number _).takes.bind
    intro last
    refine (takes_generateN EncodedValue.bytes EncodedValue.value elements ?_ last).map
      BasicJson.array
    intro element member before
    -- The fuel is twice all bytes, and an element has only some of them.
    have part := length_le_flatMap EncodedValue.bytes member
    have whole := @List.length_append _ rest (elements.flatMap EncodedValue.bytes)
    exact element.encodes.takes (by rw [List.append_eq] at *; omega) before
  · apply fromCbor_of_takes_end (by decide)
    -- Up to a break the loop needs a round for each element and one for the break.
    refine (takes_cborElements elements _ ?_ _).map BasicJson.array
    rw [List.length_append, List.length_singleton]
    omega

/-- Two elements, of which one takes two bytes where one would do. -/
theorem fromCbor_indefiniteArray_pair :
    fromCbor [0x98, 0x02, 0x18, 0x01, 0xf5] true = .ok (.array [.numberUnsigned 1, .boolean true]) ∧
      fromCbor [0x9f, 0x18, 0x01, 0xf5, 0xff] true =
        .ok (.array [.numberUnsigned 1, .boolean true]) :=
  -- Neither the number of elements nor the first of them is written in the shortest way.
  fromCbor_indefiniteArray
    [⟨[0x18, 0x01], .numberUnsigned 1, rfl, by simp⟩, ⟨[0xf5], .boolean true, rfl, by simp⟩]
    (@IsCborHead.wide 0x80 2 0x18 1 (by simp) (by decide)) true

/-- A member behind the number of members is read as its key and its value. -/
theorem EncodedMember.takes (member : EncodedMember) {fuel : Nat}
    (enough : 2 * member.bytes.length + 1 ≤ fuel) (before : Option UInt8) :
    Takes (getMember getCborString (parseCborInternal fuel true)) before member.bytes
      member.entry := by
  rw [EncodedMember.bytes, List.length_append] at enough
  have key := member.encodesKey.takesKey before
  have value (last : Option UInt8) :=
    (member.encodesValue.takes (show _ ≤ fuel by omega) last).map fun value => (member.key, value)
  have both := @Takes.bind _ _ _ _ (fun key => do return (key, ← parseCborInternal fuel true))
    _ _ _ _ _ key value
  -- The key is asked for and read in two steps.
  rwa [bind_assoc] at both

/--
The two encodings of an object differ on duplicate keys: of members behind their number the first
of each key is kept, and of members up to a break the last.
-/
theorem fromCbor_duplicateKeys (members : List EncodedMember) {head : Chars}
    (isHead : IsCborHead 0xa0 members.length head) (strict : Bool) :
    ∃ first last,
      fromCbor (head ++ members.flatMap EncodedMember.bytes) strict = .ok (.object first) ∧
      fromCbor (0xbf :: (members.flatMap EncodedMember.bytes ++ [0xff])) strict =
        .ok (.object last) ∧
      SortedMap.Sorted first ∧ SortedMap.Sorted last ∧
      ∀ key, SortedMap.find key first = SortedMap.find key (members.map EncodedMember.entry) ∧
        SortedMap.find key last =
          SortedMap.find key (members.map EncodedMember.entry).reverse := by
  let entries := members.map EncodedMember.entry
  refine ⟨SortedMap.firsts entries, SortedMap.firsts entries.reverse, ?_, ?_,
    SortedMap.sorted_firsts _, SortedMap.sorted_firsts _,
    fun key => ⟨SortedMap.find_firsts _, SortedMap.find_firsts _⟩⟩
  · obtain ⟨byte, rest, rfl, low, high, number⟩ := isHead.reads rfl (by decide)
    apply fromCbor_of_takes_end
    · rintro rfl
      exact absurd high (by decide)
    rw [cborItem_object (UInt8.le_iff_toNat_le.mpr low) (UInt8.le_iff_toNat_le.mpr high),
      ← SortedMap.foldl_insert_eq_firsts]
    -- Behind a number the members are inserted, which keeps the first of a key.
    apply (number _).takes.bind
    intro last
    refine (takes_generateN EncodedMember.bytes EncodedMember.entry members ?_ last).map
      fun read => BasicJson.object (insertAll read)
    intro entry member before
    have part := length_le_flatMap EncodedMember.bytes member
    have whole := @List.length_append _ rest (members.flatMap EncodedMember.bytes)
    exact entry.takes (by rw [List.append_eq] at *; omega) before
  · apply fromCbor_of_takes_end (by decide)
    -- Up to a break they are assigned, which keeps the last.
    rw [← SortedMap.foldl_assign_eq_firsts]
    refine (takes_cborMembers members _ ?_ [] _).map BasicJson.object
    rw [List.length_append, List.length_singleton]
    omega

/-- One key twice, the second time behind a longer head. -/
theorem fromCbor_duplicateKeys_twice :
    ∃ first last,
      fromCbor [0xa2, 0x61, 0x61, 0x01, 0x78, 0x01, 0x61, 0x02] true = .ok (.object first) ∧
      fromCbor [0xbf, 0x61, 0x61, 0x01, 0x78, 0x01, 0x61, 0x02, 0xff] true = .ok (.object last) ∧
      SortedMap.find [0x61] first = some (.numberUnsigned 1) ∧
      SortedMap.find [0x61] last = some (.numberUnsigned 2) := by
  obtain ⟨first, last, definite, indefinite, _, _, found⟩ := fromCbor_duplicateKeys
    [⟨[0x61, 0x61], [0x61], [0x01], .numberUnsigned 1, ⟨rfl, by simp⟩, ⟨rfl, by simp⟩⟩,
      ⟨[0x78, 0x01, 0x61], [0x61], [0x02], .numberUnsigned 2, ⟨rfl, by simp⟩, ⟨rfl, by simp⟩⟩]
    (.tiny (by decide) : IsCborHead 0xa0 2 [0xa2]) true
  exact ⟨first, last, definite, indefinite, (found [0x61]).1, (found [0x61]).2⟩

/-- The bytes up to the first break are taken as they are. -/
theorem takeUntilBreak_append {text : Chars} (unbroken : 0xff ∉ text) (rest : Chars) (count : Nat) :
    takeUntilBreak (text ++ 0xff :: rest) count =
      .ok (text, ⟨rest, some 0xff, count + text.length + 1⟩) := by
  induction text generalizing count with
  | nil => rfl
  | cons byte text ih =>
    -- A byte of the text is no break, so the loop goes on.
    have here : byte ≠ 0xff := fun same => unbroken (by simp [same])
    have later := ih (fun member => unbroken (by simp [member])) (count + 1)
    rw [List.cons_append, takeUntilBreak, if_neg here, later, List.length_cons]
    show Except.ok _ = _
    congr 3
    omega

/-- Strings one behind the other are longer than their texts, each by its control byte. -/
theorem length_writeCborStrings (chunks : List Chars) :
    chunks.flatten.length + chunks.length ≤ (chunks.flatMap writeCborString).length := by
  induction chunks with
  | nil => simp
  | cons chunk rest ih =>
    have head := cborHead_length_pos 0x60 chunk.length
    simp only [List.flatten_cons, List.flatMap_cons, List.length_append, List.length_cons,
      writeCborString]
    omega

/--
A string of indefinite length is the bytes up to the first break, as they are.

The standard has it as a sequence of strings, of which the text is what they are put together.  The
reader takes their control bytes for text, so that with any string in the sequence it gives another
text, and stops at a byte of theirs that looks like the break.
-/
theorem fromCbor_untilBreak {text : Chars} (unbroken : 0xff ∉ text) (rest : Chars) (strict : Bool) :
    (fromCbor (0x7f :: (text ++ 0xff :: rest)) strict =
      if strict ∧ rest ≠ [] then
        .error (.thrown (.parseError 110 (text.length + 3)
          (Chars.ofString "expected end of input")))
      else .ok (.string text)) ∧
    ∀ chunks, chunks ≠ [] → text = chunks.flatMap writeCborString → text ≠ chunks.flatten := by
  constructor
  · -- The loop takes the text and the break, whatever follows.
    have takes : Takes getCborString (some 0x7f) (text ++ [0xff]) text := by
      intro rest count
      refine ⟨some 0xff, ?_⟩
      show takeUntilBreak _ count = _
      rw [List.append_assoc, List.singleton_append, takeUntilBreak_append unbroken,
        List.length_append, List.length_singleton, Nat.add_assoc]
    have read := @fromCbor_of_takes 0x7f (text ++ [0xff]) rest _ (by decide)
      (takes.map BasicJson.string) strict
    rwa [List.append_assoc, List.singleton_append, List.length_append,
      List.length_singleton] at read
  · intro chunks filled written same
    -- The control bytes of the strings make their sequence longer than their texts.
    have longer := length_writeCborStrings chunks
    have count := List.length_pos_iff.mpr filled
    rw [← written, same] at longer
    omega

/-- Two chunks, and a chunk that is cut at the byte that looks like the break. -/
theorem fromCbor_untilBreak_pair :
    fromCbor [0x7f, 0x62, 0x61, 0x62, 0x61, 0x63, 0xff] true =
        .ok (.string [0x62, 0x61, 0x62, 0x61, 0x63]) ∧
      fromCbor [0x7f, 0x61, 0xff, 0x61, 0xff] true =
        .error (.thrown (.parseError 110 4 (Chars.ofString "expected end of input"))) :=
  ⟨(@fromCbor_untilBreak [0x62, 0x61, 0x62, 0x61, 0x63] (by simp) [] true).1,
    (@fromCbor_untilBreak [0x61] (by simp) [0x61, 0xff] true).1⟩

/--
A negative number of eight bytes is read as the standard has it only down to the lowest number of
64 bits: below that, it comes out as a number that is not negative.
-/
theorem fromCbor_lowNegative {number : Nat} (fits : number < 2 ^ 64) (strict : Bool) :
    ∃ value, fromCbor (0x3b :: bigEndian 8 number) strict = .ok (.numberInteger value) ∧
      value.toInt = if number < 2 ^ 63 then -1 - (number : Int) else 2 ^ 64 - 1 - number := by
  refine ⟨-1 - (UInt64.ofNat number).toInt64, ?_, ?_⟩
  · have read := @reads_getNumber 8 number fits (some 0x3b)
    rw [writeNumber_eq] at read
    apply fromCbor_of_takes_end (by decide)
    exact (read.map fun number =>
      BasicJson.numberInteger (-1 - (UInt64.ofNat number).toInt64)).takes
  · have one : Int64.toInt (-1) = -1 := rfl
    -- The cast to a signed number keeps the bits.
    have bits : (UInt64.ofNat number).toInt64.toInt = (number : Int).bmod (2 ^ 64) := by
      show (BitVec.ofNat 64 number).toInt = _
      rw [BitVec.toInt_eq_toNat_bmod, BitVec.toNat_ofNat, Nat.mod_eq_of_lt fits]
    rw [Int64.toInt_sub, one, bits]
    split
    · rw [Int.bmod_eq_of_le (n := number), Int.bmod_eq_of_le] <;> omega
    · -- From 2 to the 63 on it is negative, and subtracting it from -1 is positive.
      have wrapped : (number : Int).bmod (2 ^ 64) = number - 2 ^ 64 := by
        rw [Int.bmod_def]
        omega
      rw [wrapped, Int.bmod_eq_of_le] <;> omega

/-- The number below the lowest one comes out as the highest. -/
theorem fromCbor_lowNegative_wraps :
    ∃ value, fromCbor (0x3b :: bigEndian 8 (2 ^ 63)) true = .ok (.numberInteger value) ∧
      value.toInt = 2 ^ 63 - 1 := by
  obtain ⟨value, read, wraps⟩ := @fromCbor_lowNegative (2 ^ 63) (by decide) true
  exact ⟨value, read, wraps.trans (by decide)⟩

end LinuxPro.Json
