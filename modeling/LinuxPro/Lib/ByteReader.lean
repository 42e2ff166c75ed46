import Mathlib
import LinuxPro.Lib.CString
import LinuxPro.Lib.Fault

/-! Readers of a byte stream, and how what one reads follows from what its parts read. -/

namespace LinuxPro

/-- The bytes of a number of this width, the most significant one first. -/
def bigEndian : Nat → Nat → Chars
  | 0, _ => []
  | width + 1, number => bigEndian width (number / 256) ++ [number.toUInt8]

/-- The number that bytes stand for, the most significant one first. -/
def ofBigEndian (bytes : Chars) : Nat :=
  bytes.foldl (fun number byte => number * 256 + byte.toNat) 0

/-- A number is written in as many bytes as its width. -/
@[simp] theorem length_bigEndian (width number : Nat) : (bigEndian width number).length = width := by
  induction width generalizing number with
  | zero => rfl
  | succ width ih => simp [bigEndian, ih]

/-- A number that fits its width is read back from its bytes. -/
theorem ofBigEndian_bigEndian {width number : Nat} (fits : number < 256 ^ width) :
    ofBigEndian (bigEndian width number) = number := by
  induction width generalizing number with
  | zero =>
    have zero : number = 0 := by simpa using fits
    simp [bigEndian, ofBigEndian, zero]
  | succ width ih =>
    -- All bytes but the last stand for the number without its last eight bits.
    have upper : number / 256 < 256 ^ width := by
      apply Nat.div_lt_of_lt_mul
      rwa [Nat.pow_succ, Nat.mul_comm] at fits
    have rest := ih upper
    unfold ofBigEndian at rest ⊢
    rw [bigEndian, List.foldl_append, rest]
    -- The last byte adds what the division has lost.
    show number / 256 * 256 + number.toUInt8.toNat = number
    rw [Nat.toUInt8, UInt8.toNat_ofNat']
    omega

/-- Input that is read byte by byte. -/
structure Source where
  /-- What is left of it. -/
  left : Chars
  /-- The byte read last, and nothing before the first read and at the end. -/
  current : Option UInt8
  /-- How often a byte was asked for. -/
  charsRead : Nat
  deriving DecidableEq

/-- Code that reads from a source and may fail. -/
abbrev Reader (ε α : Type) := StateT Source (Except ε) α

namespace Reader

variable {ε α β : Type}

/-- Asks for the next byte. -/
def get : Reader ε (Option UInt8) := fun source =>
  match source.left with
  -- The end is counted like a byte.
  | [] => .ok (none, ⟨[], none, source.charsRead + 1⟩)
  | byte :: rest => .ok (some byte, ⟨rest, some byte, source.charsRead + 1⟩)

/-- The byte read last. -/
def current : Reader ε (Option UInt8) := fun source => .ok (source.current, source)

/-- How often a byte was asked for. -/
def charsRead : Reader ε Nat := fun source => .ok (source.charsRead, source)

/-- `std::generate_n`, which runs a generator so many times and collects what it returns. -/
def generateN : Nat → Reader ε α → Reader ε (List α)
  | 0, _ => pure []
  | count + 1, generate => do
    let first ← generate
    let rest ← generateN count generate
    return first :: rest

/-- Code reads exactly these bytes, whatever follows them, if a certain byte was read before. -/
def Reads (code : Reader ε α) (before : Option UInt8) (bytes : Chars) (value : α) : Prop :=
  ∀ rest count, code ⟨bytes ++ rest, before, count⟩ =
    .ok (value, ⟨rest, bytes.getLast?.or before, count + bytes.length⟩)

/-- A value that is given without reading. -/
theorem reads_pure (value : α) (before : Option UInt8) :
    Reads (pure value : Reader ε α) before [] value := fun _ _ => rfl

/-- Asking for a byte reads it. -/
theorem reads_get (before : Option UInt8) (byte : UInt8) :
    Reads (get : Reader ε _) before [byte] (some byte) := fun _ _ => rfl

/-- Code in sequence reads one piece behind the other. -/
theorem Reads.bind {code : Reader ε α} {next : α → Reader ε β} {before : Option UInt8}
    {bytes bytes' : Chars} {value : α} {value' : β} (first : Reads code before bytes value)
    (second : Reads (next value) (bytes.getLast?.or before) bytes' value') :
    Reads (code >>= next) before (bytes ++ bytes') value' := by
  intro rest count
  show (code _ >>= fun ended => next ended.1 ended.2) = _
  -- The second piece is part of what follows the first one.
  rw [List.append_assoc, first, ok_bind, second, List.getLast?_append, Option.or_assoc,
    List.length_append, Nat.add_assoc]

/-- What is returned may be reworked at the end. -/
theorem Reads.map {code : Reader ε α} {before : Option UInt8} {bytes : Chars} {value : α}
    (reads : Reads code before bytes value) (make : α → β) :
    Reads (do return make (← code)) before bytes (make value) := by
  have ended := reads_pure (ε := ε) (make value) (bytes.getLast?.or before)
  simpa using @Reads.bind _ _ _ _ (fun result => pure (make result)) _ _ _ _ _ reads ended

/-- Code that looks at the byte read last behaves as it does for that byte. -/
theorem reads_current_bind {next : Option UInt8 → Reader ε β} {before : Option UInt8}
    {bytes : Chars} {value : β} (reads : Reads (next before) before bytes value) :
    Reads (current >>= next) before bytes value := fun rest count => reads rest count

/-- Code that asks for a byte first reads it in front of all else. -/
theorem reads_get_bind {next : Option UInt8 → Reader ε β} {before : Option UInt8} {byte : UInt8}
    {bytes : Chars} {value : β} (reads : Reads (next (some byte)) (some byte) bytes value) :
    Reads (get >>= next) before (byte :: bytes) value :=
  (reads_get before byte).bind reads

/-- Generated values are read one behind the other. -/
theorem reads_generateN {generate : Reader ε β} (write : α → Chars) (make : α → β)
    (values : List α)
    (reads : ∀ value ∈ values, ∀ before, Reads generate before (write value) (make value))
    (before : Option UInt8) :
    Reads (generateN values.length generate) before (values.flatMap write) (values.map make) := by
  induction values generalizing before with
  | nil => exact reads_pure [] before
  | cons value rest ih =>
    rw [List.flatMap_cons, List.map_cons]
    -- The byte read last is that of the value in front, whichever it is.
    apply (reads value (by simp) before).bind
    exact (ih (fun later member => reads later (by simp [member])) _).map _

/--
Code reads exactly these bytes, whatever follows them, if a certain byte was read before.

In contrast to `Reads` it is not said which byte was read last.
-/
def Takes (code : Reader ε α) (before : Option UInt8) (bytes : Chars) (value : α) : Prop :=
  ∀ rest count, ∃ last, code ⟨bytes ++ rest, before, count⟩ =
    .ok (value, ⟨rest, last, count + bytes.length⟩)

/-- Code that reads bytes takes them. -/
theorem Reads.takes {code : Reader ε α} {before : Option UInt8} {bytes : Chars} {value : α}
    (reads : Reads code before bytes value) : Takes code before bytes value :=
  fun rest count => ⟨_, reads rest count⟩

/-- Code in sequence takes one piece behind the other. -/
theorem Takes.bind {code : Reader ε α} {next : α → Reader ε β} {before : Option UInt8}
    {bytes bytes' : Chars} {value : α} {value' : β} (first : Takes code before bytes value)
    (second : ∀ last, Takes (next value) last bytes' value') :
    Takes (code >>= next) before (bytes ++ bytes') value' := by
  intro rest count
  -- The byte in the middle is only known to be there.
  obtain ⟨middle, run⟩ := first (bytes' ++ rest) count
  obtain ⟨last, rerun⟩ := second middle rest (count + bytes.length)
  refine ⟨last, ?_⟩
  show (code _ >>= fun ended => next ended.1 ended.2) = _
  rw [List.append_assoc, run, ok_bind, rerun, List.length_append, Nat.add_assoc]

/-- What is returned may be reworked at the end. -/
theorem Takes.map {code : Reader ε α} {before : Option UInt8} {bytes : Chars} {value : α}
    (takes : Takes code before bytes value) (make : α → β) :
    Takes (do return make (← code)) before bytes (make value) := by
  have ended (last : Option UInt8) := (@reads_pure ε β (make value) last).takes
  simpa using @Takes.bind _ _ _ _ (fun result => pure (make result)) _ _ _ _ _ takes ended

/-- Generated values are taken one behind the other. -/
theorem takes_generateN {γ : Type} {generate : Reader ε β} (bytesOf : γ → Chars) (valueOf : γ → β)
    (values : List γ)
    (takes : ∀ value ∈ values, ∀ before, Takes generate before (bytesOf value) (valueOf value))
    (before : Option UInt8) :
    Takes (generateN values.length generate) before (values.flatMap bytesOf)
      (values.map valueOf) := by
  induction values generalizing before with
  | nil => exact (reads_pure [] before).takes
  | cons value rest ih =>
    rw [List.flatMap_cons, List.map_cons]
    apply (takes value (by simp) before).bind
    -- The other values have to be taken after any byte.
    intro last
    exact (ih (fun later member => takes later (by simp [member])) last).map _

end Reader

end LinuxPro
