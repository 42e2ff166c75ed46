import Mathlib.Data.List.Basic
import Mathlib.Data.List.TakeWhile

/-! Character arrays that hold text up to a terminating zero. -/

namespace LinuxPro

/-- A character array, or part of one. -/
abbrev Chars := List UInt8

namespace Chars

/-- The bytes of a text in the source, which are all below 128. -/
def ofString (literal : String) : Chars := literal.toList.map fun char => char.toNat.toUInt8

/-- `bzero` over an array of this size. -/
def bzero (size : Nat) : Chars := List.replicate size 0

/-- The text of an array, which ends before the first zero. -/
def text (buf : Chars) : Chars := buf.takeWhile fun byte => byte ≠ 0

/-- `strlen`, the length of the text. -/
def strlen (buf : Chars) : Nat := buf.text.length

/-- Bytes stored at the front of an array, over what was there. -/
def store (buf bytes : Chars) : Chars := bytes ++ buf.drop bytes.length

/-- `strcpy` of a text, which stores a zero behind it. -/
def strcpy (buf source : Chars) : Chars := buf.store (source ++ [0])

/-- `strncmp`, which compares at most this many bytes and none behind a zero. -/
def strncmp : Chars → Chars → Nat → Int
  | _, _, 0 => 0
  | first, second, n + 1 =>
    if first.headD 0 ≠ second.headD 0 then (first.headD 0).toNat - (second.headD 0).toNat
    else if first.headD 0 = 0 then 0
    else strncmp first.tail second.tail n

/-- A literal is checked to be printable by looking at each of its bytes. -/
theorem printable_of_all {literal : Chars} (checked : literal.all (· ≠ 0) = true) :
    ∀ byte ∈ literal, byte ≠ 0 := by
  simpa using checked

/-- Bytes without a separator all pass the test by which text is cut at its first one. -/
theorem ne_of_not_mem {separator : UInt8} {source : Chars} (absent : separator ∉ source) :
    ∀ byte ∈ source, decide (byte ≠ separator) = true := by
  simpa using List.forall_mem_ne'.mpr absent

/-- A copied text reads back as it was, whatever the array held before. -/
theorem text_strcpy (buf : Chars) {source : Chars} (printable : ∀ byte ∈ source, byte ≠ 0) :
    (buf.strcpy source).text = source := by
  -- Every byte of the source is kept, and the zero stored behind it ends the text.
  simp only [text, strcpy, store, List.append_assoc]
  rw [List.takeWhile_append_of_pos (by simpa using printable)]
  simp

/-- The first `strlen` bytes of an array are its text. -/
theorem take_strlen (buf : Chars) : buf.take buf.strlen = buf.text := by
  unfold strlen text
  -- The bytes before the first zero are a beginning of the array.
  induction buf with
  | nil => rfl
  | cons byte rest ih =>
    by_cases zero : byte = 0
    · -- The text ends here, and so do the bytes that are taken.
      simp [zero]
    · simp only [ne_eq, zero, not_false_eq_true, decide_true, List.takeWhile_cons_of_pos,
        List.length_cons, List.take_succ_cons]
      rw [ih]

/-- Bytes without a zero are all text. -/
theorem text_eq_self {buf : Chars} (printable : ∀ byte ∈ buf, byte ≠ 0) : buf.text = buf :=
  List.takeWhile_eq_self_iff.mpr (by simpa using printable)

/-- There is no zero in a text. -/
theorem ne_zero_of_mem_text {buf : Chars} {byte : UInt8} (member : byte ∈ buf.text) :
    byte ≠ 0 := by
  simpa using List.mem_takeWhile_imp member

/-- Bytes stored in an array of zeros are followed by a zero unless they fill it. -/
theorem zero_mem_store_bzero (size : Nat) (bytes : Chars) :
    0 ∈ (bzero size).store bytes ↔ bytes.length < size ∨ 0 ∈ bytes := by
  simp only [store, bzero, List.drop_replicate, List.mem_append, List.mem_replicate, and_true,
    or_comm, ne_eq, Nat.sub_eq_zero_iff_le, Nat.not_le]

/-- What stands behind a zero is not part of the text. -/
theorem text_append_zero (bytes rest : Chars) : (bytes ++ 0 :: rest).text = bytes.text := by
  unfold text
  induction bytes with
  | nil => simp
  | cons byte bytes ih => simp only [List.cons_append, List.takeWhile_cons, ih]

/-- The text in an array of zeros that bytes were stored in is that of the bytes. -/
theorem text_store_bzero (size : Nat) (bytes : Chars) :
    ((bzero size).store bytes).text = bytes.text := by
  simp only [store, bzero, List.drop_replicate]
  -- Either there is no zero behind the bytes, or the first one ends the text.
  cases size - bytes.length with
  | zero => simp
  | succ zeros => rw [List.replicate_succ, text_append_zero]

/-- A zero put behind the bytes that were stored makes a copy of their text. -/
theorem set_store {buf bytes : Chars} (room : bytes.length < buf.length) :
    (buf.store bytes).set bytes.length 0 = buf.strcpy bytes := by
  -- The byte that the zero replaces is the first of those behind what was stored.
  rw [store, List.drop_eq_getElem_cons room, List.set_append_right _ _ (Nat.le_refl _)]
  simp only [Nat.sub_self, List.set_cons_zero, strcpy, store, List.length_append,
    List.length_singleton, List.append_assoc, List.singleton_append]

/-- Whether an array has an end, and is printed as the text of these bytes and nothing else. -/
def Shows (buf bytes : Chars) : Prop := 0 ∈ buf ∧ buf.text = bytes.text

/-- A copy of a text shows it, whatever the array held before. -/
theorem shows_strcpy (buf bytes : Chars) : (buf.strcpy bytes).Shows bytes := by
  refine ⟨by simp [strcpy, store], ?_⟩
  -- What was behind the zero in the array is not part of the text.
  rw [strcpy, store, List.append_assoc]
  exact text_append_zero bytes _

/-- Bytes stored in an array of zeros are shown unless they fill it without a zero. -/
theorem shows_store_bzero_iff (size : Nat) (bytes : Chars) :
    ((bzero size).store bytes).Shows bytes ↔ bytes.length < size ∨ 0 ∈ bytes := by
  -- The text is right in any case, so that only its end matters.
  rw [Shows, zero_mem_store_bzero, and_iff_left (text_store_bzero size bytes)]

/-- Two texts that differ in their first byte are told apart by it. -/
theorem strncmp_ne_zero {first second : Chars} (apart : first.headD 0 ≠ second.headD 0) (n : Nat) :
    strncmp first second (n + 1) ≠ 0 := by
  rw [strncmp, if_pos apart, ne_eq, Int.sub_eq_zero, Int.natCast_inj, UInt8.toNat_inj]
  exact apart

/-- Comparing as many bytes as a text has tests whether the other one begins with it. -/
theorem strncmp_eq_zero_iff (buf : Chars) {literal : Chars}
    (printable : ∀ byte ∈ literal, byte ≠ 0) :
    strncmp buf literal literal.length = 0 ↔ literal <+: buf := by
  induction literal generalizing buf with
  | nil => simp [strncmp]
  | cons byte literal ih =>
    rw [List.forall_mem_cons] at printable
    obtain ⟨nonzero, printable⟩ := printable
    cases buf with
    | nil =>
      -- The end of the text compares as a zero, which the literal does not have.
      have apart : ([] : Chars).headD 0 ≠ (byte :: literal).headD 0 := Ne.symm nonzero
      exact iff_of_false (strncmp_ne_zero apart _) (by simp)
    | cons first buf =>
      by_cases same : first = byte
      · simp [strncmp, same, nonzero, ih buf printable, List.cons_prefix_cons]
      · -- The first byte tells them apart, however many are compared.
        have apart : (first :: buf).headD 0 ≠ (byte :: literal).headD 0 := same
        exact iff_of_false (strncmp_ne_zero apart _) (by
          simp [List.cons_prefix_cons, Ne.symm same])

end Chars

end LinuxPro
