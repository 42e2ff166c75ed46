import LinuxPro.Lib.CString
import LinuxPro.Lib.SortedMap

/-! JSON values as `basic_json` holds them, and what is thrown by the operations on them. -/

namespace LinuxPro.Json

/--
A value of the class `basic_json`, by its `value_t`.

A float is held as the 64 bits of its double. The members of an object are held in the order in
which a `std::map` iterates over them.
-/
inductive BasicJson where
  | null
  | object (members : List (Chars × BasicJson))
  | array (elements : List BasicJson)
  | string (text : Chars)
  | boolean (value : Bool)
  | numberInteger (value : Int64)
  | numberUnsigned (value : UInt64)
  | numberFloat (bits : UInt64)
  | discarded

/-- An exception that the readers and the parser throw, by its class. -/
inductive Exception where
  | parseError (id byte : Nat) (whatArg : Chars)
  | outOfRange (id : Nat) (whatArg : Chars)
  deriving DecidableEq

/-- How a modelled function ends early: it throws, or it recurs more often than it was given. -/
inductive Failure where
  | thrown (exception : Exception)
  | outOfFuel
  deriving DecidableEq

namespace BasicJson

/-- To prove something of a value, one may assume it of the values directly inside it. -/
@[elab_as_elim]
theorem induct {P : BasicJson → Prop} (null : P .null)
    (object : ∀ members, (∀ entry ∈ members, P entry.2) → P (.object members))
    (array : ∀ elements, (∀ element ∈ elements, P element) → P (.array elements))
    (string : ∀ text, P (.string text)) (boolean : ∀ value, P (.boolean value))
    (numberInteger : ∀ value, P (.numberInteger value))
    (numberUnsigned : ∀ value, P (.numberUnsigned value))
    (numberFloat : ∀ bits, P (.numberFloat bits)) (discarded : P .discarded) :
    ∀ json, P json :=
  -- The three further motives are for the lists of members and elements and for one member.
  @BasicJson.rec P (fun members => ∀ entry ∈ members, P entry.2)
    (fun elements => ∀ element ∈ elements, P element) (fun entry => P entry.2)
    null object array string boolean numberInteger numberUnsigned numberFloat discarded
    (by simp) (fun _ _ here later => List.forall_mem_cons.mpr ⟨here, later⟩)
    (by simp) (fun _ _ here later => List.forall_mem_cons.mpr ⟨here, later⟩)
    (fun _ _ here => here)

mutual

/-- Something holds of a value and of every value inside it. -/
def Every (P : BasicJson → Prop) : BasicJson → Prop
  | .object members => P (.object members) ∧ EveryMember P members
  | .array elements => P (.array elements) ∧ EveryElement P elements
  | json => P json

/-- Something holds of every value inside the members. -/
def EveryMember (P : BasicJson → Prop) : List (Chars × BasicJson) → Prop
  | [] => True
  | (_, value) :: rest => value.Every P ∧ EveryMember P rest

/-- Something holds of every value inside the elements. -/
def EveryElement (P : BasicJson → Prop) : List BasicJson → Prop
  | [] => True
  | value :: rest => value.Every P ∧ EveryElement P rest

end

/-- What holds of everything in members, without the recursion. -/
theorem everyMember_iff {P : BasicJson → Prop} {members : List (Chars × BasicJson)} :
    EveryMember P members ↔ ∀ entry ∈ members, entry.2.Every P := by
  induction members with
  | nil => simp [EveryMember]
  | cons entry rest ih => simp [EveryMember, ih]

/-- What holds of everything in elements, without the recursion. -/
theorem everyElement_iff {P : BasicJson → Prop} {elements : List BasicJson} :
    EveryElement P elements ↔ ∀ element ∈ elements, element.Every P := by
  induction elements with
  | nil => simp [EveryElement]
  | cons element rest ih => simp [EveryElement, ih]

/-- What holds of everything in an object. -/
theorem every_object {P : BasicJson → Prop} {members : List (Chars × BasicJson)} :
    (object members).Every P ↔ P (.object members) ∧ ∀ entry ∈ members, entry.2.Every P := by
  rw [Every, everyMember_iff]

/-- What holds of everything in an array. -/
theorem every_array {P : BasicJson → Prop} {elements : List BasicJson} :
    (array elements).Every P ↔ P (.array elements) ∧ ∀ element ∈ elements, element.Every P := by
  rw [Every, everyElement_iff]

/-- What holds of every value inside holds of the value itself. -/
theorem Every.here {P : BasicJson → Prop} {json : BasicJson} (every : json.Every P) : P json := by
  cases json with
  | object members => exact (every_object.mp every).1
  | array elements => exact (every_array.mp every).1
  -- Nothing is inside of any other value.
  | _ => exact every

/-- The number of bytes, elements or members that the value itself counts by `size`. -/
def extent : BasicJson → Nat
  | .object members => members.length
  | .array elements => elements.length
  | .string text => text.length
  | _ => 0

/-- A value that is there, which all are but the ones a parser callback has discarded. -/
def Kept (json : BasicJson) : Prop := json ≠ .discarded

/-- `is_discarded` -/
def isDiscarded : BasicJson → Bool
  | .discarded => true
  | _ => false

/-- The keys of an object are in the order of its `std::map`, and they fit their size. -/
def Ordered : BasicJson → Prop
  | .object members => SortedMap.Sorted members ∧ ∀ entry ∈ members, entry.1.length < 2 ^ 64
  | _ => True

mutual

/-- The value with everything in it that is neither an array nor an object replaced. -/
def mapLeaves (replace : BasicJson → BasicJson) : BasicJson → BasicJson
  | .object members => .object (mapLeavesMembers replace members)
  | .array elements => .array (mapLeavesElements replace elements)
  | json => replace json

/-- The members with their leaves replaced. -/
def mapLeavesMembers (replace : BasicJson → BasicJson) :
    List (Chars × BasicJson) → List (Chars × BasicJson)
  | [] => []
  | (key, value) :: rest => (key, value.mapLeaves replace) :: mapLeavesMembers replace rest

/-- The elements with their leaves replaced. -/
def mapLeavesElements (replace : BasicJson → BasicJson) : List BasicJson → List BasicJson
  | [] => []
  | value :: rest => value.mapLeaves replace :: mapLeavesElements replace rest

end

/-- Replacing the leaves of an object, without the recursion. -/
@[simp] theorem mapLeaves_object (replace : BasicJson → BasicJson)
    (members : List (Chars × BasicJson)) :
    (object members).mapLeaves replace =
      .object (members.map fun entry => (entry.1, entry.2.mapLeaves replace)) := by
  rw [mapLeaves]
  -- The members are replaced one by one.
  congr 1
  induction members with
  | nil => simp [mapLeavesMembers]
  | cons entry rest ih => simp [mapLeavesMembers, ih]

/-- Replacing the leaves of an array, without the recursion. -/
@[simp] theorem mapLeaves_array (replace : BasicJson → BasicJson) (elements : List BasicJson) :
    (array elements).mapLeaves replace = .array (elements.map (mapLeaves replace)) := by
  rw [mapLeaves]
  congr 1
  induction elements with
  | nil => simp [mapLeavesElements]
  | cons element rest ih => simp [mapLeavesElements, ih]

/-- Whole numbers that are not negative as unsigned ones. -/
def canonicalLeaf : BasicJson → BasicJson
  | .numberInteger value =>
    -- The writers take a number that is not negative for an unsigned one.
    if 0 ≤ value then .numberUnsigned value.toUInt64 else .numberInteger value
  | json => json

/--
The value with each number as its text or bytes tell it: whole numbers that are not negative are
unsigned, however they were held.
-/
def canonical (json : BasicJson) : BasicJson := json.mapLeaves canonicalLeaf

/-- The canonical form of an object. -/
@[simp] theorem canonical_object (members : List (Chars × BasicJson)) :
    (object members).canonical =
      .object (members.map fun entry => (entry.1, entry.2.canonical)) :=
  mapLeaves_object canonicalLeaf members

/-- The canonical form of an array. -/
@[simp] theorem canonical_array (elements : List BasicJson) :
    (array elements).canonical = .array (elements.map canonical) :=
  mapLeaves_array canonicalLeaf elements

/-- The canonical form of a signed number. -/
theorem canonical_numberInteger (value : Int64) :
    (numberInteger value).canonical =
      if 0 ≤ value then .numberUnsigned value.toUInt64 else .numberInteger value := rfl

/--
A value that the class can hold and that is there: objects are ordered maps, every text, array and
object has a size that `size_t` can tell, and none is discarded.
-/
structure Writable (json : BasicJson) : Prop where
  kept : json.Every Kept
  ordered : json.Every Ordered
  sized : json.Every fun json => json.extent < 2 ^ 64

/-- An element of an array that can be written. -/
theorem Writable.element {elements : List BasicJson} (writable : (array elements).Writable)
    {element : BasicJson} (member : element ∈ elements) : element.Writable :=
  ⟨(every_array.mp writable.kept).2 element member, (every_array.mp writable.ordered).2 element member,
    (every_array.mp writable.sized).2 element member⟩

/-- A value in an object that can be written. -/
theorem Writable.value {members : List (Chars × BasicJson)} (writable : (object members).Writable)
    {entry : Chars × BasicJson} (member : entry ∈ members) : entry.2.Writable :=
  ⟨(every_object.mp writable.kept).2 entry member, (every_object.mp writable.ordered).2 entry member,
    (every_object.mp writable.sized).2 entry member⟩

end BasicJson

/-- A value with the proof that it can be held and written. -/
structure Document where
  root : BasicJson
  writable : root.Writable

end LinuxPro.Json
