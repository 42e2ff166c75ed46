import Mathlib

/-! Doubles by their bits, and the conversions to them that the binary formats need. -/

namespace LinuxPro.Json

/-- The bits of infinity. -/
def infinity : UInt64 := 0x7ff0000000000000

/-- The bits of the quiet NaN of `numeric_limits`. -/
def quietNaN : UInt64 := 0x7ff8000000000000

/-- `isfinite`: a double is infinite or a NaN if the bits of its exponent are all set. -/
def isFinite (bits : UInt64) : Bool := bits.toNat / 2 ^ 52 % 2 ^ 11 != 2047

/-- Negation, which flips the sign bit of any double. -/
def negate (bits : UInt64) : UInt64 := bits ^^^ 0x8000000000000000

/-- `ldexp` of a whole number, where the result is a normal double and needs no rounding. -/
def ldexp (mantissa : Nat) (exponent : Int) : UInt64 :=
  if mantissa = 0 then 0
  else
    -- The leading one is not stored, and the exponent is stored with a bias.
    let leading := Nat.log2 mantissa
    let fraction := mantissa * 2 ^ (52 - leading) - 2 ^ 52
    ((exponent + leading + 1023).toNat * 2 ^ 52 + fraction).toUInt64

/-- The double of a half-precision float, as the code from the appendix of the standard has it. -/
def ofHalf (half : Nat) : UInt64 :=
  let exponent := (half >>> 10) &&& 0x1f
  let mantissa := half &&& 0x3ff
  let value :=
    -- The exponents at both ends stand for subnormal numbers and for what is no number.
    if exponent = 0 then ldexp mantissa (-24)
    else if exponent ≠ 31 then ldexp (mantissa + 1024) (exponent - 25)
    else if mantissa = 0 then infinity else quietNaN
  if half &&& 0x8000 ≠ 0 then negate value else value

/-- The conversion of a `float` to a double, which makes a NaN quiet and keeps its payload. -/
def ofSingle (single : Nat) : UInt64 :=
  let exponent := (single >>> 23) &&& 0xff
  let mantissa := single &&& 0x7fffff
  let value :=
    if exponent = 0 then ldexp mantissa (-149)
    else if exponent ≠ 255 then ldexp (mantissa + 0x800000) (exponent - 150)
    else if mantissa = 0 then infinity
    -- The payload moves to the front of the longer fraction.
    else quietNaN ||| (mantissa <<< 29).toUInt64
  if single &&& 0x80000000 ≠ 0 then negate value else value

end LinuxPro.Json
