import LinuxPro.Lib.CString
import LinuxPro.Lib.Exact

/-! Character arrays of a fixed size, with the two ways in which code can run past their end. -/

namespace LinuxPro

/-- A character array of this size. -/
structure Buffer (size : Nat) where
  bytes : Chars
  sized : bytes.length = size

/-- What goes wrong at the end of an array. -/
inductive BufferFault where
  /-- More bytes were stored than the array holds. -/
  | overflow
  /-- A text was read from an array without a terminating zero. -/
  | unterminated
  deriving DecidableEq

namespace Buffer

variable {size : Nat}

/-- An array that was initialised with zeros. -/
def zeros (size : Nat) : Buffer size := ⟨.bzero size, by simp [Chars.bzero]⟩

/-- Store bytes at the front of the array. -/
def store (buf : Buffer size) (data : Chars) : Except BufferFault (Buffer size) :=
  if fits : data.length ≤ size then
    .ok ⟨buf.bytes.store data, by simp [Chars.store, buf.sized, fits]⟩
  else .error .overflow

/-- The text in the array, as `%s` and the string functions read it. -/
def text (buf : Buffer size) : Except BufferFault Chars :=
  if 0 ∈ buf.bytes then .ok buf.bytes.text else .error .unterminated

/-- `strcpy`, or `sprintf` of a text, into the array. -/
def strcpy (buf : Buffer size) (source : Chars) : Except BufferFault (Buffer size) :=
  buf.store (source ++ [0])

/-- `strcat` of a text to that in the array. -/
def strcat (buf : Buffer size) (source : Chars) : Except BufferFault (Buffer size) := do
  buf.strcpy ((← buf.text) ++ source)

/-- Whether the array holds a text, which is this one. -/
def Holds (buf : Buffer size) (text : Chars) : Prop :=
  buf.text = .ok text

/-- An array of zeros holds no text to speak of. -/
theorem zeros_holds (positive : 0 < size) : (zeros size).Holds [] := by
  -- The first of the zeros ends the text before it has begun.
  have zero : (0 : UInt8) ∈ Chars.bzero size := by
    simpa [Chars.bzero] using Nat.pos_iff_ne_zero.mp positive
  have nothing : (Chars.bzero size).text = [] := by
    cases size with
    | zero => rfl
    | succ size => simp [Chars.bzero, Chars.text, List.replicate_succ]
  simp [Holds, text, zeros, zero, nothing]

/-- Bytes are stored over what was there, exactly if they fit. -/
theorem store_spec (buf : Buffer size) (data : Chars) :
    OkIff (buf.store data) (data.length ≤ size) fun stored =>
      stored.bytes = buf.bytes.store data := by
  refine ⟨fun fits => ⟨_, dif_pos fits, rfl⟩, fun long => ⟨.overflow, dif_neg long⟩⟩

/-- A text is read from an array exactly if there is a zero in it. -/
theorem text_spec (buf : Buffer size) :
    OkIff buf.text (0 ∈ buf.bytes) fun text => text = buf.bytes.text :=
  ⟨fun zero => ⟨_, if_pos zero, rfl⟩, fun none => ⟨.unterminated, if_neg none⟩⟩

/-- A text without a zero is copied exactly if it fits with one, and is held from then on. -/
theorem strcpy_spec (buf : Buffer size) {source : Chars}
    (printable : ∀ byte ∈ source, byte ≠ 0) :
    OkIff (buf.strcpy source) (source.length < size) fun copied => copied.Holds source := by
  refine (buf.store_spec (source ++ [0])).imp ?_ ?_
  · rw [List.length_append, List.length_singleton, Nat.lt_iff_add_one_le]
  intro copied stored
  -- The zero that was copied with the text ends it.
  have zero : 0 ∈ copied.bytes := by
    rw [stored, Chars.store]
    exact List.mem_append_left _ (List.mem_append_right source (List.mem_singleton_self 0))
  have read : copied.bytes.text = source := by
    rw [stored]
    exact Chars.text_strcpy buf.bytes printable
  simp [Holds, text, zero, read]

/-- A text is appended to another exactly if both fit with a zero, and both are held then. -/
theorem strcat_spec {buf : Buffer size} {first second : Chars} (holds : buf.Holds first)
    (printable : ∀ byte ∈ first ++ second, byte ≠ 0) :
    OkIff (buf.strcat second) ((first ++ second).length < size) fun joined =>
      joined.Holds (first ++ second) := by
  -- Appending to the text that is held is copying both.
  have read : buf.strcat second = buf.strcpy (first ++ second) := by
    rw [strcat, holds, ok_bind]
  rw [read]
  exact buf.strcpy_spec printable

end Buffer

end LinuxPro
