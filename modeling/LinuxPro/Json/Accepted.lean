import LinuxPro.Json.Cbor
import LinuxPro.Json.Msgpack
import LinuxPro.Lib.Streaming

/-! The binary reader ends on every input, and what it accepts is a value the class can hold. -/

namespace LinuxPro.Json

open Reader

/-- A value that is there, ordered as a map is, and no larger than a number of bytes. -/
def BasicJson.FitsIn (size : Nat) : BasicJson → Prop
  | .object members =>
    SortedMap.Sorted members ∧ members.length ≤ size ∧ ∀ entry ∈ members, entry.1.length ≤ size
  | json => json.Kept ∧ json.extent ≤ size

/-- What fits some bytes fits more of them. -/
theorem BasicJson.FitsIn.mono {size larger : Nat} {json : BasicJson} (fits : json.FitsIn size)
    (below : size ≤ larger) : json.FitsIn larger := by
  cases json with
  -- Only an object has keys, which are bounded apart from its members.
  | object members =>
    obtain ⟨sorted, length, keys⟩ := fits
    exact ⟨sorted, by omega, fun entry member => Nat.le_trans (keys entry member) below⟩
  | _ => exact ⟨fits.1, Nat.le_trans fits.2 below⟩

/-- What holds of every value inside may be weakened for each of them. -/
theorem BasicJson.Every.imp {P Q : BasicJson → Prop} {json : BasicJson} (every : json.Every P)
    (weaker : ∀ json, P json → Q json) : json.Every Q := by
  -- The induction is over the value, of which only arrays and objects have others inside.
  induction json using BasicJson.induct with
  | array elements ih =>
    rw [BasicJson.every_array] at every ⊢
    exact ⟨weaker _ every.1, fun element member => ih element member (every.2 element member)⟩
  | object members ih =>
    rw [BasicJson.every_object] at every ⊢
    exact ⟨weaker _ every.1, fun entry member => ih entry member (every.2 entry member)⟩
  | _ => exact weaker _ every

/-- Everything in a value that fits some bytes fits more of them. -/
theorem every_fitsIn_mono {size larger : Nat} {json : BasicJson}
    (fits : json.Every (BasicJson.FitsIn size)) (below : size ≤ larger) :
    json.Every (BasicJson.FitsIn larger) :=
  fits.imp fun _ here => here.mono below

/-- Members whose keys and values are no larger than a number of bytes, as is their number. -/
def MembersFit (size : Nat) (members : List (Chars × BasicJson)) : Prop :=
  members.length ≤ size ∧
    ∀ entry ∈ members, entry.1.length ≤ size ∧ entry.2.Every (BasicJson.FitsIn size)

/-- Members that fit some bytes fit more of them. -/
theorem MembersFit.mono {size larger : Nat} {members : List (Chars × BasicJson)}
    (fits : MembersFit size members) (below : size ≤ larger) : MembersFit larger members := by
  refine ⟨Nat.le_trans fits.1 below, fun entry member => ?_⟩
  have here := fits.2 entry member
  exact ⟨Nat.le_trans here.1 below, every_fitsIn_mono here.2 below⟩

/-- An ordered map of members that fit is an object that fits. -/
theorem MembersFit.object {size : Nat} {members : List (Chars × BasicJson)}
    (fits : MembersFit size members) (sorted : SortedMap.Sorted members) :
    (BasicJson.object members).Every (BasicJson.FitsIn size) := by
  rw [BasicJson.every_object]
  exact ⟨⟨sorted, fits.1, fun entry member => (fits.2 entry member).1⟩,
    fun entry member => (fits.2 entry member).2⟩

/-- Members that are inserted one by one make an ordered map of some of them. -/
theorem insertAll_spec (members : List (Chars × BasicJson)) :
    SortedMap.Sorted (insertAll members) ∧ (insertAll members).length ≤ members.length ∧
      ∀ entry ∈ insertAll members, entry ∈ members := by
  -- The map built so far is ordered, and what is in it was in it or is a member.
  have general : ∀ (members built : List (Chars × BasicJson)), SortedMap.Sorted built →
      let all := members.foldl (fun built entry => SortedMap.insert entry.1 entry.2 built) built
      SortedMap.Sorted all ∧ all.length ≤ built.length + members.length ∧
        ∀ entry ∈ all, entry ∈ built ∨ entry ∈ members := by
    intro members
    induction members with
    | nil => exact fun built sorted => ⟨sorted, Nat.le_refl _, fun entry member => .inl member⟩
    | cons first rest ih =>
      intro built sorted
      obtain ⟨ordered, length, origin⟩ := ih (SortedMap.insert first.1 first.2 built)
        (SortedMap.sorted_alter sorted)
      have grown : (SortedMap.insert first.1 first.2 built).length ≤ built.length + 1 :=
        SortedMap.length_alter_le _ _ _
      refine ⟨ordered, ?_, fun entry member => ?_⟩
      · -- Each insertion adds one entry at most.
        rw [List.foldl_cons, List.length_cons]
        omega
      · -- An entry of the result was there before, is the one inserted here or comes later.
        rcases origin entry member with inserted | later
        · rcases SortedMap.mem_insert inserted with rfl | before
          · exact .inr (by simp)
          · exact .inl before
        · exact .inr (by simp [later])
  obtain ⟨sorted, length, origin⟩ := general members [] List.Pairwise.nil
  exact ⟨sorted, by simpa [insertAll] using length, fun entry member => by
    simpa using origin entry member⟩

/-- A failure that the source has: it throws. -/
def Throws (failure : Failure) : Prop := failure ≠ .outOfFuel

variable {size : Nat}

/-- A parse error is thrown. -/
theorem runs_throwParseError {α : Type} {P : Nat → α → Prop} (id : Nat) (whatArg : Chars) :
    Runs Throws size (throwParseError id whatArg) P :=
  runs_of_error fun source =>
    ⟨.thrown (.parseError id source.charsRead whatArg), rfl, by simp [Throws]⟩

/-- A byte that is there takes one byte. -/
theorem runs_getChecked : Runs Throws size getChecked fun read _ => read = 1 := by
  -- At the end of the input an error is thrown.
  apply runs_get_bind
  · exact fun count => .error (by simp [Throws])
  · exact fun byte _ => runs_pure rfl

/-- A text takes as many bytes as it has. -/
theorem runs_getString (len : Nat) :
    Runs Throws size (getString len) fun read text => text.length = len ∧ len ≤ read := by
  -- Each of its bytes is one that was read.
  have each : Runs Throws size getChecked fun read (_ : UInt8) => 1 ≤ read :=
    runs_getChecked.imp fun _ _ _ taken => by omega
  apply (runs_generateN each (fun _ _ _ taken => by omega) len fun _ _ taken => taken).imp
  exact fun _ _ _ read => ⟨read.1, read.2.1⟩

/-- A number is read, or the end is reported. -/
theorem runs_getNumber (width : Nat) : Runs Throws size (getNumber width) fun _ _ => True :=
  (runs_getString width).map _ fun _ _ _ _ => trivial

/-- So is the number of a control byte of CBOR. -/
theorem runs_cborArgument (info : Nat) : Runs Throws size (cborArgument info) fun _ _ => True := by
  apply runs_ite
  · exact fun _ => runs_pure trivial
  · intro _
    apply runs_ite
    · exact fun _ => runs_getNumber 1
    · intro _
      apply runs_ite
      · exact fun _ => runs_getNumber 2
      · intro _
        apply runs_ite
        · exact fun _ => runs_getNumber 4
        · exact fun _ => runs_getNumber 8

/-- A text up to a break takes its bytes and the break. -/
theorem runs_getUntilBreak :
    Runs Throws size getUntilBreak fun read text => text.length ≤ read := by
  intro source _
  show Ran Throws _ _ (takeUntilBreak source.left source.charsRead)
  generalize source.charsRead = count
  generalize source.left = left
  -- The loop takes a byte for every round.
  induction left generalizing count with
  | nil => exact .error (by simp [Throws])
  | cons byte left ih =>
    rw [takeUntilBreak]
    split
    · -- The break ends the text and is not part of it.
      exact .ok 1 (by simp [Nat.add_comm]) (by simp)
    · have rest := ih (count + 1)
      generalize takeUntilBreak left (count + 1) = outcome at rest
      cases rest with
      | error permitted => exact .error permitted
      -- The text is as much longer as what was read for it.
      | @ok text last read taken short =>
        refine .ok (read + 1) ?_ (Nat.succ_le_succ short)
        rw [List.length_cons, taken]
        omega

/-- A string is no longer than the bytes behind its control byte. -/
theorem runs_getCborString :
    Runs Throws size getCborString fun read text => text.length ≤ read := by
  apply runs_current.bind
  intro read current _ taken
  subst taken
  cases current with
  | none => exact runs_throwParseError _ _
  | some current =>
    -- The length stands in the control byte or behind it.
    apply runs_ite
    · intro _
      apply (runs_cborArgument _).bind
      exact fun read len _ _ => (runs_getString len).imp fun _ _ _ got => by omega
    · intro _
      apply runs_ite
      · exact fun _ => runs_getUntilBreak.imp fun _ _ _ short => by omega
      · exact fun _ => runs_throwParseError _ _

/-- A text of MessagePack is no longer than the bytes behind its control byte. -/
theorem runs_getMsgpackString :
    Runs Throws size getMsgpackString fun read text => text.length ≤ read := by
  -- The three longer forms have their length in bytes of its own.
  have sized : ∀ width, Runs Throws size (do getString (← getNumber width))
      fun read text => text.length ≤ read := by
    intro width
    apply (runs_getNumber width).bind
    exact fun read len _ _ => (runs_getString len).imp fun _ _ _ got => by omega
  apply runs_current.bind
  intro read current _ taken
  subst taken
  simp only [Nat.zero_add, Nat.sub_zero]
  cases current with
  | none => exact runs_throwParseError _ _
  | some current =>
    apply runs_ite
    · exact fun _ => (runs_getString _).imp fun _ _ _ got => by omega
    · intro _
      apply runs_ite (fun _ => sized 1)
      intro _
      apply runs_ite (fun _ => sized 2)
      intro _
      apply runs_ite (fun _ => sized 4)
      exact fun _ => runs_throwParseError _ _

/-- A value that takes a byte at least and is no larger than what it takes. -/
def ValueFits (read : Nat) (json : BasicJson) : Prop :=
  1 ≤ read ∧ json.Every (BasicJson.FitsIn read)

section Parts

variable {parse : BinaryReader BasicJson} (values : Runs Throws size parse ValueFits)

include values

/-- An array takes the bytes of its elements. -/
theorem runs_array (len : Nat) :
    Runs Throws size (do return BasicJson.array (← generateN len parse)) fun read json =>
      json.Every (BasicJson.FitsIn read) := by
  apply (runs_generateN values (fun read more _ fits => ⟨by have := fits.1; omega,
    every_fitsIn_mono fits.2 (Nat.le_add_right read more)⟩) len fun _ _ fits => fits.1).map
  -- There are as many elements as were asked for, and each of them took a byte.
  intro read elements _ all
  rw [BasicJson.every_array]
  exact ⟨⟨by simp [BasicJson.Kept], by simpa [BasicJson.extent, all.1] using all.2.1⟩,
    fun element member => (all.2.2 element member).2⟩

/-- A member takes a byte for its key at least. -/
theorem runs_getMember {getKey : BinaryReader Chars}
    (keys : Runs Throws size getKey fun read text => text.length ≤ read)
    (atEnd : ∀ count, ∃ failure, getKey ⟨[], none, count⟩ = .error failure ∧ Throws failure) :
    Runs Throws size (getMember getKey parse) fun read entry =>
      1 ≤ read ∧ entry.1.length ≤ read ∧ entry.2.Every (BasicJson.FitsIn read) := by
  apply runs_get_bind
  · -- Without a byte for the key the code that reads keys throws.
    intro count
    obtain ⟨failure, failed, throws⟩ := atEnd count
    show Ran _ _ 0 (getKey ⟨[], none, count⟩ >>= _)
    rw [failed]
    exact .error throws
  intro byte _
  -- The key is read from what the first byte left, and the value from what the key left.
  apply (keys.mono (Nat.sub_le _ _)).bind
  intro second key _ short
  apply (values.mono (by omega)).map
  intro third value _ fits
  have one := fits.1
  exact ⟨by omega, Nat.le_trans short (by omega), every_fitsIn_mono fits.2 (by omega)⟩

/-- An object takes the bytes of its members, whichever of them it keeps. -/
theorem runs_object {getKey : BinaryReader Chars}
    (keys : Runs Throws size getKey fun read text => text.length ≤ read)
    (atEnd : ∀ count, ∃ failure, getKey ⟨[], none, count⟩ = .error failure ∧ Throws failure)
    (len : Nat) :
    Runs Throws size
      (do return BasicJson.object (insertAll (← generateN len (getMember getKey parse))))
      fun read json => json.Every (BasicJson.FitsIn read) := by
  apply (runs_generateN (runs_getMember values keys atEnd) (fun read more _ fits =>
    ⟨by have := fits.1; omega, by have := fits.2.1; omega,
      every_fitsIn_mono fits.2.2 (Nat.le_add_right read more)⟩) len fun _ _ fits => fits.1).map
  intro read members _ all
  -- Duplicate keys leave fewer members than were read.
  obtain ⟨sorted, length, origin⟩ := insertAll_spec members
  apply MembersFit.object _ sorted
  exact ⟨by have := all.1; have := all.2.1; omega,
    fun entry member => (all.2.2 entry (origin entry member)).2⟩

end Parts

/-- A number, a boolean or null. -/
def BasicJson.isScalar : BasicJson → Bool
  | .null | .boolean _ | .numberInteger _ | .numberUnsigned _ | .numberFloat _ => true
  | _ => false

/-- A number, a boolean or null fits whatever was read for it. -/
theorem fits_scalar {json : BasicJson} (scalar : json.isScalar = true) (read : Nat) :
    json.Every (BasicJson.FitsIn read) := by
  cases json with
  | null | boolean | numberInteger | numberUnsigned | numberFloat =>
    exact ⟨by simp [BasicJson.Kept], Nat.zero_le _⟩
  | object | array | string | discarded => cases scalar

/-- A string fits what was read for it if it is no longer. -/
theorem fits_string {text : Chars} {read : Nat} (short : text.length ≤ read) :
    (BasicJson.string text).Every (BasicJson.FitsIn read) :=
  ⟨by simp [BasicJson.Kept], short⟩

/-- The switch of the CBOR reader, if what it calls runs. -/
theorem runs_cborItem {parse : BinaryReader BasicJson} {elements : BinaryReader (List BasicJson)}
    {members : BinaryReader (List (Chars × BasicJson))} (values : Runs Throws size parse ValueFits)
    (arrays : Runs Throws size elements fun read elements =>
      elements.length ≤ read ∧ ∀ element ∈ elements, element.Every (BasicJson.FitsIn read))
    (objects : Runs Throws size members fun read members =>
      SortedMap.Sorted members ∧ MembersFit read members) (current : UInt8) :
    Runs Throws size (cborItem parse elements members current) fun read json =>
      json.Every (BasicJson.FitsIn read) := by
  -- Numbers fit any input, as nothing is inside them.
  have number : ∀ make : Nat → BasicJson, (∀ n, (make n).isScalar = true) →
      Runs Throws size (do return make (← cborArgument (current &&& 0x1f).toNat)) fun read json =>
        json.Every (BasicJson.FitsIn read) :=
    fun make scalar => (runs_cborArgument _).map make fun read n _ _ => fits_scalar (scalar n) read
  have float : ∀ width (make : Nat → BasicJson), (∀ n, (make n).isScalar = true) →
      Runs Throws size (do return make (← getNumber width)) fun read json =>
        json.Every (BasicJson.FitsIn read) :=
    fun width make scalar => (runs_getNumber width).map make fun read n _ _ =>
      fits_scalar (scalar n) read
  -- The branches stand in the order of the switch.
  unfold cborItem
  apply runs_ite (fun _ => number (fun n => .numberUnsigned (.ofNat n)) fun _ => rfl)
  intro _
  apply runs_ite (fun _ => number (fun n => .numberInteger (-1 - (UInt64.ofNat n).toInt64))
    fun _ => rfl)
  intro _
  apply runs_ite (fun _ => runs_getCborString.map _ fun _ _ _ short => fits_string short)
  intro _
  apply runs_ite
  · intro _
    apply (runs_cborArgument _).bind
    intro read len _ _
    -- Elements behind a length are read from what the length left.
    apply (runs_array (values.mono (Nat.sub_le _ _)) len).imp
    exact fun more json _ fits => every_fitsIn_mono fits (Nat.le_add_left more read)
  intro _
  apply runs_ite
  · intro _
    -- Elements up to a break are what the loop has collected.
    apply arrays.map
    intro read elements _ fits
    rw [BasicJson.every_array]
    exact ⟨⟨by simp [BasicJson.Kept], fits.1⟩, fits.2⟩
  intro _
  apply runs_ite
  · intro _
    apply (runs_cborArgument _).bind
    intro read len _ _
    -- In the same way for members behind a length.
    apply (runs_object (values.mono (Nat.sub_le _ _)) runs_getCborString
      (fun _ => ⟨_, rfl, by simp [Throws]⟩) len).imp
    exact fun more json _ fits => every_fitsIn_mono fits (Nat.le_add_left more read)
  intro _
  apply runs_ite (fun _ => objects.map _ fun _ _ _ fits => fits.2.object fits.1)
  intro _
  apply runs_ite (fun _ => runs_pure (fits_scalar rfl 0))
  intro _
  apply runs_ite (fun _ => runs_pure (fits_scalar rfl 0))
  intro _
  apply runs_ite (fun _ => runs_pure (fits_scalar rfl 0))
  intro _
  apply runs_ite
  · intro _
    apply runs_getChecked.bind
    intro read first _ _
    exact runs_getChecked.map _ fun more second _ _ => fits_scalar rfl _
  intro _
  apply runs_ite (fun _ => float 4 (fun n => .numberFloat (ofSingle n)) fun _ => rfl)
  intro _
  apply runs_ite (fun _ => float 8 (fun n => .numberFloat (.ofNat n)) fun _ => rfl)
  intro _
  exact runs_throwParseError _ _

/--
The CBOR reader and its loops run with a fuel that is twice the input and a little more.

Each loop takes a byte before it calls the reader, but hands it the fuel without taking another, so
that it is the two of them that take a byte for every two units.
-/
theorem runs_parseCborInternal (fuel : Nat) :
    (∀ size, 2 * size + 1 ≤ fuel → Runs Throws size (parseCborInternal fuel true) ValueFits) ∧
    (∀ size, 2 * size + 3 ≤ fuel → Runs Throws size (parseCborInternal fuel false)
      fun read json => json.Every (BasicJson.FitsIn read)) ∧
    (∀ size, 2 * size + 2 ≤ fuel → Runs Throws size (cborElements fuel) fun read elements =>
      elements.length ≤ read ∧ ∀ element ∈ elements, element.Every (BasicJson.FitsIn read)) ∧
    (∀ size read result, 2 * size + 2 ≤ fuel → SortedMap.Sorted result → MembersFit read result →
      Runs Throws size (cborMembers fuel result) fun more members =>
        SortedMap.Sorted members ∧ MembersFit (read + more) members) := by
  -- The induction is on the fuel, for the reader and its loops together.
  induction fuel with
  | zero => exact ⟨fun _ _ => by omega, fun _ _ => by omega, fun _ _ => by omega,
      fun _ _ _ _ => by omega⟩
  | succ fuel ih =>
    obtain ⟨values, again, arrays, objects⟩ := ih
    -- The switch calls all of them with one unit less.
    have item : ∀ size, 2 * size + 2 ≤ fuel → ∀ current,
        Runs Throws size (cborItem (parseCborInternal fuel true) (cborElements fuel)
          (cborMembers fuel []) current) fun read json => json.Every (BasicJson.FitsIn read) := by
      intro size enough current
      apply runs_cborItem (values size (by omega)) (arrays size enough)
      have none_ : MembersFit 0 [] := ⟨Nat.le_refl 0, by simp⟩
      simpa using objects size 0 [] enough List.Pairwise.nil none_
    refine ⟨fun size enough => ?_, fun size enough => ?_, fun size enough => ?_,
      fun size read result enough sorted fits => ?_⟩
    · -- A value that asks for its control byte takes it first.
      rw [parseCborInternal]
      apply runs_get_bind
      · exact fun count => .error (by simp [Throws])
      · intro byte some_
        apply (item (size - 1) (by omega) byte).imp
        exact fun more json _ fits => ⟨by omega, every_fitsIn_mono fits (Nat.le_add_left more 1)⟩
    · -- A value whose control byte was asked for before takes nothing for it.
      rw [parseCborInternal]
      apply runs_current.bind
      intro read byte _ taken
      subst taken
      cases byte with
      | none => exact runs_throwParseError _ _
      | some byte =>
        apply (item (size - 0) (by omega) byte).imp
        exact fun more json _ fits => by rwa [Nat.zero_add]
    · rw [cborElements]
      apply runs_get_bind
      · -- The element is missing, and there is fuel left to find that out.
        intro count
        obtain ⟨fuel, rfl⟩ : ∃ less, fuel = less + 1 := ⟨fuel - 1, by omega⟩
        exact .error (by simp [Throws])
      · intro byte some_
        apply runs_ite
        · exact fun _ => runs_pure ⟨Nat.zero_le _, by simp⟩
        · intro _
          -- The element starts with the byte that was no break.
          apply (again (size - 1) (by omega)).bind
          intro read element small fits
          apply (arrays (size - 1 - read) (by omega)).map
          intro more elements _ all
          refine ⟨?_, fun inside member => ?_⟩
          · -- There is one more element, and the test for the break took a byte for it.
            have length := all.1
            rw [List.length_cons]
            omega
          · rcases List.mem_cons.mp member with rfl | later
            · exact every_fitsIn_mono fits (by omega)
            · exact every_fitsIn_mono (all.2 inside later) (by omega)
    · rw [cborMembers]
      apply runs_get_bind
      · exact fun count => .error (by simp [Throws])
      · intro byte some_
        apply runs_ite
        · -- The break ends the object with the members assigned so far.
          exact fun _ => runs_pure ⟨sorted, fits.mono (by omega)⟩
        · intro _
          apply runs_getCborString.bind
          intro keyRead key _ short
          apply (values (size - 1 - keyRead) (by omega)).bind
          intro valueRead value _ valueFits
          -- The map has grown by one member at most, and a byte was taken for its key.
          have grown : MembersFit (read + (1 + (keyRead + valueRead)))
              (SortedMap.assign key value result) := by
            have length : (SortedMap.assign key value result).length ≤ result.length + 1 :=
              SortedMap.length_alter_le _ _ _
            have before := fits.1
            refine ⟨by omega, fun entry member => ?_⟩
            rcases SortedMap.mem_assign member with rfl | old
            · exact ⟨Nat.le_trans short (by omega), every_fitsIn_mono valueFits.2 (by omega)⟩
            · exact (fits.mono (by omega)).2 entry old
          apply (objects (size - 1 - keyRead - valueRead) _ _ (by omega)
            (SortedMap.sorted_alter sorted) grown).imp
          intro more members _ all
          exact ⟨all.1, all.2.mono (by omega)⟩

/-- The switch of the MessagePack reader, if what it calls runs. -/
theorem runs_msgpackItem {parse : BinaryReader BasicJson} (values : Runs Throws size parse ValueFits)
    (current : UInt8) :
    Runs Throws size (msgpackItem parse current) fun read json =>
      json.Every (BasicJson.FitsIn read) := by
  -- Numbers fit any input, as nothing is inside them.
  have number : ∀ width (make : Nat → BasicJson), (∀ n, (make n).isScalar = true) →
      Runs Throws size (do return make (← getNumber width)) fun read json =>
        json.Every (BasicJson.FitsIn read) :=
    fun width make scalar => (runs_getNumber width).map make fun read n _ _ =>
      fits_scalar (scalar n) read
  have string : Runs Throws size (do return BasicJson.string (← getMsgpackString)) fun read json =>
      json.Every (BasicJson.FitsIn read) :=
    runs_getMsgpackString.map _ fun _ _ _ short => fits_string short
  have array : ∀ len, Runs Throws size (getMsgpackArray parse len) fun read json =>
      json.Every (BasicJson.FitsIn read) := runs_array values
  have object : ∀ len, Runs Throws size (getMsgpackObject parse len) fun read json =>
      json.Every (BasicJson.FitsIn read) :=
    runs_object values runs_getMsgpackString fun _ => ⟨_, rfl, by simp [Throws]⟩
  -- A size in front of an array or object takes bytes of its own.
  have sized : ∀ width (sequence : Nat → BinaryReader BasicJson),
      (∀ len, Runs Throws size (sequence len) fun read json =>
        json.Every (BasicJson.FitsIn read)) →
      Runs Throws size (do sequence (← getNumber width)) fun read json =>
        json.Every (BasicJson.FitsIn read) := by
    intro width sequence runs
    apply (runs_getNumber width).bind
    intro read len _ _
    apply ((runs len).mono (Nat.sub_le _ _)).imp
    exact fun more json _ fits => every_fitsIn_mono fits (Nat.le_add_left more read)
  -- The branches stand in the order of the switch.
  unfold msgpackItem
  apply runs_ite (fun _ => runs_pure (fits_scalar rfl 0))
  intro _
  apply runs_ite (fun _ => object _)
  intro _
  apply runs_ite (fun _ => array _)
  intro _
  apply runs_ite (fun _ => string)
  intro _
  apply runs_ite (fun _ => runs_pure (fits_scalar rfl 0))
  intro _
  apply runs_ite (fun _ => runs_pure (fits_scalar rfl 0))
  intro _
  apply runs_ite (fun _ => runs_pure (fits_scalar rfl 0))
  intro _
  apply runs_ite (fun _ => number 4 (fun n => .numberFloat (ofSingle n)) fun _ => rfl)
  intro _
  apply runs_ite (fun _ => number 8 (fun n => .numberFloat (.ofNat n)) fun _ => rfl)
  intro _
  apply runs_ite (fun _ => number 1 (fun n => .numberUnsigned (.ofNat n)) fun _ => rfl)
  intro _
  apply runs_ite (fun _ => number 2 (fun n => .numberUnsigned (.ofNat n)) fun _ => rfl)
  intro _
  apply runs_ite (fun _ => number 4 (fun n => .numberUnsigned (.ofNat n)) fun _ => rfl)
  intro _
  apply runs_ite (fun _ => number 8 (fun n => .numberUnsigned (.ofNat n)) fun _ => rfl)
  intro _
  apply runs_ite (fun _ => number 1 (fun n => .numberInteger (ofTwosComplement 1 n)) fun _ => rfl)
  intro _
  apply runs_ite (fun _ => number 2 (fun n => .numberInteger (ofTwosComplement 2 n)) fun _ => rfl)
  intro _
  apply runs_ite (fun _ => number 4 (fun n => .numberInteger (ofTwosComplement 4 n)) fun _ => rfl)
  intro _
  apply runs_ite (fun _ => number 8 (fun n => .numberInteger (ofTwosComplement 8 n)) fun _ => rfl)
  intro _
  apply runs_ite (fun _ => string)
  intro _
  apply runs_ite (fun _ => sized 2 _ array)
  intro _
  apply runs_ite (fun _ => sized 4 _ array)
  intro _
  apply runs_ite (fun _ => sized 2 _ object)
  intro _
  apply runs_ite (fun _ => sized 4 _ object)
  intro _
  apply runs_ite (fun _ => runs_pure (fits_scalar rfl 0))
  intro _
  exact runs_throwParseError _ _

/-- The MessagePack reader takes a byte for every call, so it runs with more fuel than input. -/
theorem runs_parseMsgpackInternal (fuel : Nat) :
    ∀ size, size + 1 ≤ fuel → Runs Throws size (parseMsgpackInternal fuel) ValueFits := by
  induction fuel with
  | zero => exact fun _ _ => by omega
  | succ fuel ih =>
    intro size enough
    rw [parseMsgpackInternal]
    apply runs_get_bind
    · exact fun count => .error (by simp [Throws])
    · intro byte some_
      -- The control byte was taken, so that the values inside have less input left.
      apply (runs_msgpackItem (ih (size - 1) (by omega)) byte).imp
      exact fun more json _ fits => ⟨by omega, every_fitsIn_mono fits (Nat.le_add_left more 1)⟩

/-- A reader that runs on a buffer throws or returns a value that fits it. -/
theorem readBuffer_of_runs {parse : BinaryReader BasicJson} {bytes : Chars}
    (runs : Runs Throws bytes.length parse ValueFits) (strict : Bool) :
    (∃ failure, readBuffer (do expectEnd strict (← parse)) bytes = .error failure ∧
      Throws failure) ∨
    (∃ json, readBuffer (do expectEnd strict (← parse)) bytes = .ok json ∧
      json.Every (BasicJson.FitsIn bytes.length)) := by
  have short := length_bufferAdapter_le bytes
  have ran := runs ⟨bufferAdapter bytes, none, 0⟩ short
  show (∃ failure, Except.map Prod.fst (parse ⟨bufferAdapter bytes, none, 0⟩ >>=
      fun ended => expectEnd strict ended.1 ended.2) = _ ∧ _) ∨
    ∃ json, Except.map Prod.fst (parse ⟨bufferAdapter bytes, none, 0⟩ >>=
      fun ended => expectEnd strict ended.1 ended.2) = _ ∧ _
  generalize parse ⟨bufferAdapter bytes, none, 0⟩ = outcome at ran
  cases ran with
  | error throws => exact .inl ⟨_, rfl, throws⟩
  | @ok json source read taken fits =>
    -- What was read is no more than the buffer has.
    have inside : json.Every (BasicJson.FitsIn bytes.length) :=
      every_fitsIn_mono fits.2 (by change (bufferAdapter bytes).length = _ at taken; omega)
    cases strict with
    | false => exact .inr ⟨json, rfl, inside⟩
    | true =>
      -- The strict mode throws if there is another byte.
      cases source with
      | mk left before count =>
        cases left with
        | nil => exact .inr ⟨json, rfl, inside⟩
        | cons byte left => exact .inl ⟨_, rfl, by simp [Throws]⟩

/-- A value that fits fewer bytes than memory has can be held and written. -/
theorem writable_of_fits {json : BasicJson} {size : Nat} (fits : json.Every (BasicJson.FitsIn size))
    (small : size < 2 ^ 64) : json.Writable where
  kept := by
    apply fits.imp
    intro json here
    cases json with
    | object members => simp [BasicJson.Kept]
    | _ => exact here.1
  ordered := by
    -- The keys are ordered where there are any.
    apply fits.imp
    intro json here
    cases json with
    | object members =>
      exact ⟨here.1, fun entry member => Nat.lt_of_le_of_lt (here.2.2 entry member) small⟩
    | _ => trivial
  sized := by
    apply fits.imp
    intro json here
    cases json with
    | object members => exact Nat.lt_of_le_of_lt here.2.1 small
    | _ => exact Nat.lt_of_le_of_lt here.2 small

/-- `from_cbor` throws, or returns a value that fits its input. -/
theorem fromCbor_runs (bytes : Chars) (strict : Bool) :
    (∃ failure, fromCbor bytes strict = .error failure ∧ Throws failure) ∨
      ∃ json, fromCbor bytes strict = .ok json ∧ json.Every (BasicJson.FitsIn bytes.length) :=
  readBuffer_of_runs ((runs_parseCborInternal _).1 bytes.length (Nat.le_refl _)) strict

/-- `from_msgpack` throws, or returns a value that fits its input. -/
theorem fromMsgpack_runs (bytes : Chars) (strict : Bool) :
    (∃ failure, fromMsgpack bytes strict = .error failure ∧ Throws failure) ∨
      ∃ json, fromMsgpack bytes strict = .ok json ∧ json.Every (BasicJson.FitsIn bytes.length) :=
  readBuffer_of_runs (runs_parseMsgpackInternal _ bytes.length (Nat.le_refl _)) strict

/-- What a reader accepted fits the bytes it was read from. -/
theorem fits_of_accepted {bytes : Chars} {strict : Bool} {json : BasicJson}
    (accepted : fromCbor bytes strict = .ok json ∨ fromMsgpack bytes strict = .ok json) :
    json.Every (BasicJson.FitsIn bytes.length) := by
  rcases accepted with read | read
  · -- The reader either threw or returned a value that fits, and it did return.
    rcases fromCbor_runs bytes strict with ⟨failure, failed, _⟩ | ⟨other, returned, fits⟩
    · rw [read] at failed
      cases failed
    · rw [read] at returned
      cases returned
      exact fits
  · rcases fromMsgpack_runs bytes strict with ⟨failure, failed, _⟩ | ⟨other, returned, fits⟩
    · rw [read] at failed
      cases failed
    · rw [read] at returned
      cases returned
      exact fits

/-- A value that fits the sizes of MessagePack is written with a control byte throughout. -/
theorem every_short_of_fits {json : BasicJson} {size : Nat}
    (fits : json.Every (BasicJson.FitsIn size)) (small : size ≤ 0xffffffff) :
    json.Every BasicJson.Short :=
  fits.imp fun json here => by
    cases json with
    | object members =>
      exact ⟨Nat.le_trans here.2.1 small,
        fun entry member => Nat.le_trans (here.2.2 entry member) small⟩
    | _ => exact Nat.le_trans here.2 small

/--
Whatever either reader accepts, in whichever form it was encoded, is carried by both formats.

Input with duplicate keys, indefinite lengths or needlessly wide numbers is accepted too, and the
value that was made of it comes back from its own encoding in its canonical form.
-/
theorem accepted_roundtrips {bytes : Chars} (small : bytes.length ≤ 0xffffffff) {strict : Bool}
    {json : BasicJson}
    (accepted : fromCbor bytes strict = .ok json ∨ fromMsgpack bytes strict = .ok json) :
    fromCbor (toCbor json) true = .ok json.canonical ∧
      fromMsgpack (toMsgpack json) true = .ok json.canonical := by
  have fits := fits_of_accepted accepted
  have writable := writable_of_fits fits (by omega)
  -- Both formats have room for what fits the input.
  constructor
  · simpa using readBuffer_writeCbor writable [] true
  · simpa using readBuffer_writeMsgpack writable (every_short_of_fits fits small) []
      (fun _ => by simp) true

/-- An array of indefinite length, which MessagePack does not have. -/
theorem accepted_roundtrips_indefinite :
    fromCbor [0x9f, 0x01, 0xff] true = .ok (.array [.numberUnsigned 1]) ∧
      fromMsgpack (toMsgpack (.array [.numberUnsigned 1])) true =
        .ok (.array [.numberUnsigned 1]) := by
  have accepted : fromCbor [0x9f, 0x01, 0xff] true = .ok (.array [.numberUnsigned 1]) := rfl
  exact ⟨accepted, (accepted_roundtrips (by decide) (.inl accepted)).2⟩

end LinuxPro.Json
