import LinuxPro.Json.Accepted

/-! Binary input that is cut short is refused, and by the position of the missing byte. -/

namespace LinuxPro.Json

open Reader

/-- The failures that a longer input may lift: the input or the fuel was used up. -/
def ReportsEnd (total : Nat) (failure : Failure) : Prop :=
  failure = .outOfFuel ∨
    failure = .thrown (.parseError 110 (total + 1) (Chars.ofString "unexpected end of input"))

variable {α : Type} {before : Option UInt8}

/-- An error is thrown on longer input too. -/
theorem extends_throwParseError (id : Nat) (whatArg : Chars) :
    Extends ReportsEnd before (throwParseError id whatArg : BinaryReader α)
      (throwParseError id whatArg) :=
  extends_of_error (fun count => .thrown (.parseError id count whatArg)) fun _ _ => rfl

/-- A byte that is asked for and missing is reported behind the last one. -/
theorem unexpectedEnd_reports (count : Nat) :
    ∃ failure, (unexpectedEnd : BinaryReader α) ⟨[], none, count + 1⟩ = .error failure ∧
      ReportsEnd count failure :=
  ⟨_, rfl, .inr rfl⟩

/-- A byte that is there is read on longer input too. -/
theorem extends_getChecked : Extends ReportsEnd before getChecked getChecked :=
  extends_get_bind unexpectedEnd_reports fun byte => extends_pure byte

/-- A number that is there is read on longer input too. -/
theorem extends_getNumber (width : Nat) :
    Extends ReportsEnd before (getNumber width) (getNumber width) :=
  (extends_generateN (fun _ => extends_getChecked) width before).map _

/-- Bytes that are there are read on longer input too. -/
theorem extends_getString (len : Nat) :
    Extends ReportsEnd before (getString len) (getString len) :=
  extends_generateN (fun _ => extends_getChecked) len before

/-- The number of a control byte is read on longer input too. -/
theorem extends_cborArgument (info : Nat) :
    Extends ReportsEnd before (cborArgument info) (cborArgument info) := by
  -- The number is in the control byte, or behind it in one of four widths.
  apply extends_ite
  · exact fun _ => extends_pure info
  · intro _
    apply extends_ite
    · exact fun _ => extends_getNumber 1
    · intro _
      apply extends_ite
      · exact fun _ => extends_getNumber 2
      · intro _
        apply extends_ite
        · exact fun _ => extends_getNumber 4
        · exact fun _ => extends_getNumber 8

/-- The loop up to a break takes the bytes one by one, so it stops at the same break. -/
theorem extends_getUntilBreak : Extends ReportsEnd before getUntilBreak getUntilBreak := by
  intro left count count' more
  show Continued ReportsEnd _ _ more (takeUntilBreak left count)
    (takeUntilBreak (left ++ more) count')
  induction left generalizing count count' with
  | nil => exact .ended (.inr rfl) _
  | cons byte left ih =>
    rw [List.cons_append, takeUntilBreak, takeUntilBreak]
    by_cases stop : byte = 0xff
    · -- The break was found, and what follows it does not matter.
      rw [if_pos stop, if_pos stop]
      exact .read [] _ (by rw [List.length_cons]; omega) (by rw [List.length_cons]; omega)
    · rw [if_neg stop, if_neg stop]
      -- The byte is counted before the rest is looked at.
      have total (count : Nat) : count + (byte :: left).length = count + 1 + left.length := by
        rw [List.length_cons]
        omega
      rw [total, total]
      have continued := ih (count + 1) (count' + 1)
      generalize takeUntilBreak left (count + 1) = outcome at continued
      generalize takeUntilBreak (left ++ more) (count' + 1) = outcome' at continued
      cases continued with
      | ended reported other => exact .ended reported _
      | failed failure failure' => exact .failed failure failure'
      | read text last balanced balanced' => exact .read (byte :: text) last balanced balanced'

/-- A string of CBOR is read on longer input too. -/
theorem extends_getCborString : Extends ReportsEnd before getCborString getCborString := by
  apply extends_current_bind
  -- Without a control byte there is an error in any case.
  cases before with
  | none => exact extends_throwParseError _ _
  | some current =>
    apply extends_ite
    · exact fun _ => (extends_cborArgument _).bind fun len _ => extends_getString len
    · intro _
      apply extends_ite
      · exact fun _ => extends_getUntilBreak
      · exact fun _ => extends_throwParseError _ _

/-- A string of MessagePack is read on longer input too. -/
theorem extends_getMsgpackString :
    Extends ReportsEnd before getMsgpackString getMsgpackString := by
  apply extends_current_bind
  cases before with
  | none => exact extends_throwParseError _ _
  | some current =>
    apply extends_ite
    · exact fun _ => extends_getString _
    · intro _
      apply extends_ite
      · exact fun _ => (extends_getNumber 1).bind fun len _ => extends_getString len
      · intro _
        apply extends_ite
        · exact fun _ => (extends_getNumber 2).bind fun len _ => extends_getString len
        · intro _
          apply extends_ite
          · exact fun _ => (extends_getNumber 4).bind fun len _ => extends_getString len
          · exact fun _ => extends_throwParseError _ _

/-- The key of a member is asked for before it is read, and reports a missing control byte. -/
theorem extends_getMember {getKey : BinaryReader Chars} {parse parse' : BinaryReader BasicJson}
    (key : ∀ before, Extends ReportsEnd before getKey getKey)
    (atEnd : ∀ count, ∃ failure, getKey ⟨[], none, count + 1⟩ = .error failure ∧
      ReportsEnd count failure)
    (value : ∀ before, Extends ReportsEnd before parse parse') :
    Extends ReportsEnd before (getMember getKey parse) (getMember getKey parse') := by
  apply extends_get_bind
  · -- The control byte of the key is missing.
    intro count
    obtain ⟨failure, failed, reported⟩ := atEnd count
    refine ⟨failure, ?_, reported⟩
    show (getKey ⟨[], none, count + 1⟩ >>= _) = _
    rw [failed]
    rfl
  · intro byte
    exact (key (some byte)).bind fun _ last => (value last).map _

section Cbor

variable {parse parse' : BinaryReader BasicJson} {elements elements' : BinaryReader (List BasicJson)}
  {members members' : BinaryReader (List (Chars × BasicJson))}

/-- The switch over a control byte is continued if what it calls is. -/
theorem extends_cborItem (values : ∀ before, Extends ReportsEnd before parse parse')
    (arrays : ∀ before, Extends ReportsEnd before elements elements')
    (objects : ∀ before, Extends ReportsEnd before members members') (current : UInt8) :
    Extends ReportsEnd before (cborItem parse elements members current)
      (cborItem parse' elements' members' current) := by
  -- Elements and members behind a number are generated one by one.
  have array : ∀ len last, Extends ReportsEnd last (getCborArray parse len)
      (getCborArray parse' len) :=
    fun len last => (extends_generateN values len last).map _
  have object : ∀ len last, Extends ReportsEnd last (getCborObject parse len)
      (getCborObject parse' len) := fun len last =>
    (extends_generateN (fun _ => extends_getMember (fun _ => extends_getCborString)
      (fun _ => ⟨_, rfl, .inr rfl⟩) values) len last).map _
  have half : Extends ReportsEnd before getHalf getHalf :=
    extends_getChecked.bind fun _ _ => extends_getChecked.map _
  -- The branches stand in the order of the switch.
  unfold cborItem
  apply extends_ite (fun _ => (extends_cborArgument _).map _)
  intro _
  apply extends_ite (fun _ => (extends_cborArgument _).map _)
  intro _
  apply extends_ite (fun _ => extends_getCborString.map _)
  intro _
  apply extends_ite (fun _ => (extends_cborArgument _).bind array)
  intro _
  apply extends_ite (fun _ => (arrays before).map _)
  intro _
  apply extends_ite (fun _ => (extends_cborArgument _).bind object)
  intro _
  apply extends_ite (fun _ => (objects before).map _)
  intro _
  apply extends_ite (fun _ => extends_pure _)
  intro _
  apply extends_ite (fun _ => extends_pure _)
  intro _
  apply extends_ite (fun _ => extends_pure _)
  intro _
  apply extends_ite (fun _ => half)
  intro _
  apply extends_ite (fun _ => (extends_getNumber 4).map _)
  intro _
  apply extends_ite (fun _ => (extends_getNumber 8).map _)
  intro _
  exact extends_throwParseError _ _

end Cbor

/-- The CBOR reader and its loops are continued by themselves with more fuel. -/
theorem extends_parseCborInternal (fuel : Nat) :
    ∀ fuel', fuel ≤ fuel' →
      (∀ getChar before, Extends ReportsEnd before (parseCborInternal fuel getChar)
        (parseCborInternal fuel' getChar)) ∧
      (∀ before, Extends ReportsEnd before (cborElements fuel) (cborElements fuel')) ∧
      (∀ result before, Extends ReportsEnd before (cborMembers fuel result)
        (cborMembers fuel' result)) := by
  -- The induction is on the fuel of the shorter run.
  induction fuel with
  | zero =>
    intro fuel' _
    -- A run without fuel may be continued by anything.
    have used : ∀ total, ReportsEnd total .outOfFuel := fun _ => .inl rfl
    exact ⟨fun _ _ => extends_of_ends used fun _ => rfl,
      fun _ => extends_of_ends used fun _ => rfl, fun _ _ => extends_of_ends used fun _ => rfl⟩
  | succ fuel ih =>
    intro fuel' more
    obtain ⟨fuel', rfl⟩ : ∃ less, fuel' = less + 1 := ⟨fuel' - 1, by omega⟩
    obtain ⟨values, arrays, objects⟩ := ih fuel' (by omega)
    refine ⟨fun getChar before => ?_, fun before => ?_, fun result before => ?_⟩
    · -- The byte is asked for or was read before, and then the switch decides.
      have item : ∀ current last, Extends ReportsEnd last
          (cborItem (parseCborInternal fuel true) (cborElements fuel) (cborMembers fuel []) current)
          (cborItem (parseCborInternal fuel' true) (cborElements fuel') (cborMembers fuel' [])
            current) :=
        fun current last => extends_cborItem (values true) arrays (objects []) current
      rw [parseCborInternal, parseCborInternal]
      cases getChar with
      | true => exact extends_get_bind unexpectedEnd_reports fun byte => item byte _
      | false =>
        apply extends_current_bind
        cases before with
        | none => exact extends_throwParseError _ _
        | some byte => exact item byte _
    · rw [cborElements, cborElements]
      apply extends_get_bind
      · -- At the end the element is missing, unless there is no fuel to look for it.
        intro count
        cases fuel with
        | zero => exact ⟨_, rfl, .inl rfl⟩
        | succ fuel => exact unexpectedEnd_reports count
      · intro byte
        apply extends_ite
        · exact fun _ => extends_pure []
        · exact fun _ => (values false _).bind fun _ last => (arrays last).map _
    · rw [cborMembers, cborMembers]
      apply extends_get_bind
      · exact fun count => unexpectedEnd_reports count
      · intro byte
        apply extends_ite
        · exact fun _ => extends_pure result
        · exact fun _ => extends_getCborString.bind fun key last =>
            (values true last).bind fun value last => objects _ last

/-- The switch over a control byte is continued if what it calls is. -/
theorem extends_msgpackItem {parse parse' : BinaryReader BasicJson}
    (values : ∀ before, Extends ReportsEnd before parse parse') (current : UInt8) :
    Extends ReportsEnd before (msgpackItem parse current) (msgpackItem parse' current) := by
  -- Elements and members behind a number are generated one by one.
  have array : ∀ len last, Extends ReportsEnd last (getMsgpackArray parse len)
      (getMsgpackArray parse' len) :=
    fun len last => (extends_generateN values len last).map _
  have object : ∀ len last, Extends ReportsEnd last (getMsgpackObject parse len)
      (getMsgpackObject parse' len) := fun len last =>
    (extends_generateN (fun _ => extends_getMember (fun _ => extends_getMsgpackString)
      (fun _ => ⟨_, rfl, .inr rfl⟩) values) len last).map _
  have number : ∀ width (make : Nat → BasicJson), Extends ReportsEnd before
      (do return make (← getNumber width)) (do return make (← getNumber width)) :=
    fun width make => (extends_getNumber width).map make
  -- The branches stand in the order of the switch.
  unfold msgpackItem
  apply extends_ite (fun _ => extends_pure _)
  intro _
  apply extends_ite (fun _ => object _ _)
  intro _
  apply extends_ite (fun _ => array _ _)
  intro _
  apply extends_ite (fun _ => extends_getMsgpackString.map _)
  intro _
  apply extends_ite (fun _ => extends_pure _)
  intro _
  apply extends_ite (fun _ => extends_pure _)
  intro _
  apply extends_ite (fun _ => extends_pure _)
  intro _
  apply extends_ite (fun _ => number 4 _)
  intro _
  apply extends_ite (fun _ => number 8 _)
  intro _
  apply extends_ite (fun _ => number 1 _)
  intro _
  apply extends_ite (fun _ => number 2 _)
  intro _
  apply extends_ite (fun _ => number 4 _)
  intro _
  apply extends_ite (fun _ => number 8 _)
  intro _
  apply extends_ite (fun _ => number 1 _)
  intro _
  apply extends_ite (fun _ => number 2 _)
  intro _
  apply extends_ite (fun _ => number 4 _)
  intro _
  apply extends_ite (fun _ => number 8 _)
  intro _
  apply extends_ite (fun _ => extends_getMsgpackString.map _)
  intro _
  apply extends_ite (fun _ => (extends_getNumber 2).bind array)
  intro _
  apply extends_ite (fun _ => (extends_getNumber 4).bind array)
  intro _
  apply extends_ite (fun _ => (extends_getNumber 2).bind object)
  intro _
  apply extends_ite (fun _ => (extends_getNumber 4).bind object)
  intro _
  apply extends_ite (fun _ => extends_pure _)
  intro _
  exact extends_throwParseError _ _

/-- The MessagePack reader is continued by itself with more fuel. -/
theorem extends_parseMsgpackInternal (fuel : Nat) :
    ∀ fuel', fuel ≤ fuel' → ∀ before, Extends ReportsEnd before (parseMsgpackInternal fuel)
      (parseMsgpackInternal fuel') := by
  induction fuel with
  | zero => exact fun _ _ _ => extends_of_ends (fun _ => .inl rfl) fun _ => rfl
  | succ fuel ih =>
    intro fuel' more before
    obtain ⟨fuel', rfl⟩ : ∃ less, fuel' = less + 1 := ⟨fuel' - 1, by omega⟩
    rw [parseMsgpackInternal, parseMsgpackInternal]
    exact extends_get_bind unexpectedEnd_reports fun byte =>
      extends_msgpackItem (ih fuel' (by omega)) byte

/-- Input that does not start with a byte order mark is given as it is, and so is its beginning. -/
theorem bufferAdapter_of_append {bytes more : Chars}
    (unmarked : ¬ [0xef, 0xbb, 0xbf] <+: bytes ++ more) :
    bufferAdapter (bytes ++ more) = bytes ++ more ∧ bufferAdapter bytes = bytes := by
  -- A mark at the start of the beginning would be one at the start of the whole.
  have beginning : ¬ [0xef, 0xbb, 0xbf] <+: bytes := fun marked =>
    unmarked (marked.trans (List.prefix_append bytes more))
  constructor
  · rw [bufferAdapter, if_neg (by rwa [List.isPrefixOf_iff_prefix])]
  · rw [bufferAdapter, if_neg (by rwa [List.isPrefixOf_iff_prefix])]

/-- What the strict mode accepts was read to its end. -/
theorem ran_of_accepted {parse : BinaryReader BasicJson} {bytes : Chars} {json : BasicJson}
    (given : bufferAdapter bytes = bytes)
    (accepted : readBuffer (do expectEnd true (← parse)) bytes = .ok json) :
    ∃ last count, parse ⟨bytes, none, 0⟩ = .ok (json, ⟨[], last, count⟩) := by
  change Except.map Prod.fst (parse ⟨bufferAdapter bytes, none, 0⟩ >>= fun ended =>
    expectEnd true ended.1 ended.2) = _ at accepted
  -- The reader was given the bytes as they are.
  rw [given] at accepted
  cases ran : parse ⟨bytes, none, 0⟩ with
  | error failure =>
    rw [ran] at accepted
    cases accepted
  | ok ended =>
    obtain ⟨value, left, last, count⟩ := ended
    rw [ran] at accepted
    cases left with
    -- A byte that is left is refused by the strict mode.
    | cons byte left => cases accepted
    | nil =>
      cases accepted
      exact ⟨last, count, rfl⟩

/-- A buffer that a reader takes to its end is reported as cut short wherever it is cut. -/
theorem readBuffer_cut {parse parse' : BinaryReader BasicJson} {bytes more : Chars}
    {json : BasicJson} {strict : Bool} (continued : Extends ReportsEnd none parse parse')
    (throws : ∀ failure, readBuffer (do expectEnd strict (← parse)) bytes = .error failure →
      Throws failure)
    (unmarked : ¬ [0xef, 0xbb, 0xbf] <+: bytes ++ more) (longer : more ≠ [])
    (accepted : readBuffer (do expectEnd true (← parse')) (bytes ++ more) = .ok json) :
    readBuffer (do expectEnd strict (← parse)) bytes =
      .error (.thrown (.parseError 110 (bytes.length + 1)
        (Chars.ofString "unexpected end of input"))) := by
  obtain ⟨whole, part⟩ := bufferAdapter_of_append unmarked
  obtain ⟨last, count, ran⟩ := ran_of_accepted whole accepted
  obtain ⟨failure, failed, reported⟩ := continued.cut longer ran
  -- The shorter input fails in the reader, before its end is tested.
  have refused : readBuffer (do expectEnd strict (← parse)) bytes = .error failure := by
    show Except.map Prod.fst (parse ⟨bufferAdapter bytes, none, 0⟩ >>= fun ended =>
      expectEnd strict ended.1 ended.2) = _
    rw [part, failed]
    rfl
  -- The fuel was not used up, so it was the input that ended.
  rcases reported with used | missing
  · exact absurd used (throws failure refused)
  · rw [refused, missing, Nat.zero_add]

/--
No proper beginning of a CBOR document is accepted: wherever it is cut, it is reported that the
input ended at the byte behind the last one.

A document with a byte order mark in front is left out, as one that is cut inside the mark is read
from the bytes of the mark.
-/
theorem fromCbor_cut {bytes more : Chars} {json : BasicJson}
    (unmarked : ¬ [0xef, 0xbb, 0xbf] <+: bytes ++ more) (longer : more ≠ [])
    (accepted : fromCbor (bytes ++ more) true = .ok json) (strict : Bool) :
    fromCbor bytes strict = .error (.thrown (.parseError 110 (bytes.length + 1)
      (Chars.ofString "unexpected end of input"))) := by
  refine readBuffer_cut ?_ ?_ unmarked longer accepted
  · apply (extends_parseCborInternal _ _ _).1
    rw [List.length_append]
    omega
  · -- The fuel is enough for every input, so that the failure is one that is thrown.
    intro failure failed
    rcases fromCbor_runs bytes strict with ⟨other, refused, throws⟩ | ⟨value, returned, _⟩
    · cases failed.symm.trans refused
      exact throws
    · cases failed.symm.trans returned

/-- An array of two elements without its second one. -/
theorem fromCbor_cut_pair :
    fromCbor [0x82, 0x01] false = .error (.thrown (.parseError 110 3
      (Chars.ofString "unexpected end of input"))) :=
  @fromCbor_cut [0x82, 0x01] [0x02] (.array [.numberUnsigned 1, .numberUnsigned 2])
    (by decide) (by decide) rfl false

/--
No proper beginning of a MessagePack document is accepted either.

With a byte order mark this is wrong, as the first byte of the mark is the number -17.
-/
theorem fromMsgpack_cut {bytes more : Chars} {json : BasicJson}
    (unmarked : ¬ [0xef, 0xbb, 0xbf] <+: bytes ++ more) (longer : more ≠ [])
    (accepted : fromMsgpack (bytes ++ more) true = .ok json) (strict : Bool) :
    fromMsgpack bytes strict = .error (.thrown (.parseError 110 (bytes.length + 1)
      (Chars.ofString "unexpected end of input"))) := by
  refine readBuffer_cut ?_ ?_ unmarked longer accepted
  · apply extends_parseMsgpackInternal
    rw [List.length_append]
    omega
  · -- The fuel is enough here too.
    intro failure failed
    rcases fromMsgpack_runs bytes strict with ⟨other, refused, throws⟩ | ⟨value, returned, _⟩
    · cases failed.symm.trans refused
      exact throws
    · cases failed.symm.trans returned

/-- An array of two elements without its second one. -/
theorem fromMsgpack_cut_pair :
    fromMsgpack [0x92, 0x01] false = .error (.thrown (.parseError 110 3
      (Chars.ofString "unexpected end of input"))) :=
  @fromMsgpack_cut [0x92, 0x01] [0x02] (.array [.numberUnsigned 1, .numberUnsigned 2])
    (by decide) (by decide) rfl false

end LinuxPro.Json
