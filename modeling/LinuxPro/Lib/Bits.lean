import Mathlib

/-! Bits of numbers and of bytes as sums and remainders. -/

namespace LinuxPro

/-- Bits that are set apart from others add to them. -/
theorem or_eq_add {high low : Nat} (bits : Nat) (aligned : high % 2 ^ bits = 0)
    (small : low < 2 ^ bits) : high ||| low = high + low := by
  -- A number without last bits is a multiple of the power.
  obtain ⟨multiple, rfl⟩ := Nat.dvd_of_mod_eq_zero aligned
  exact (Nat.two_pow_add_eq_or_of_lt small multiple).symm

/-- The last bits of a number. -/
theorem and_eq_mod (number : Nat) {mask bits : Nat} (ones : mask = 2 ^ bits - 1) :
    number &&& mask = number % 2 ^ bits := by
  rw [ones, Nat.and_two_pow_sub_one_eq_mod]

/-- A number below 256 is kept by a byte. -/
theorem toNat_toUInt8_of_lt {number : Nat} (small : number < 256) :
    number.toUInt8.toNat = number := by
  rw [Nat.toUInt8, UInt8.toNat_ofNat']
  omega

/-- The last five bits of a byte. -/
theorem toNat_and_1f (byte : UInt8) : (byte &&& 0x1f).toNat = byte.toNat % 32 := by
  rw [UInt8.toNat_and]
  exact Nat.and_two_pow_sub_one_eq_mod byte.toNat 5

/-- The last four bits of a byte. -/
theorem toNat_and_0f (byte : UInt8) : (byte &&& 0x0f).toNat = byte.toNat % 16 := by
  rw [UInt8.toNat_and]
  exact Nat.and_two_pow_sub_one_eq_mod byte.toNat 4

end LinuxPro
