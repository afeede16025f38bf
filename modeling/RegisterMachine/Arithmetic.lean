import RegisterMachine.TwosComplement

/-! Integer arithmetic with its own failures: division toward zero, shifts, and rotation of 32-bit
patterns.
-/

namespace RegisterMachine

/-- Why an operation on integers has no result. -/
inductive ArithmeticError where
  | divisionByZero
  | negativeShift
  /-- The result of a shift to the left is too long for the platform. -/
  | tooManyDigits

def ArithmeticError.message : ArithmeticError → String
  | .divisionByZero => "integer division or modulo by zero"
  | .negativeShift => "negative shift count"
  | .tooManyDigits => "too many digits in integer"

/-- What a platform can hold. Zero is no longer after a shift than before, and a pattern of 32 bits
can be shifted by its width everywhere. Whether the integers of a platform or its memory sets the
bound is not told apart. -/
structure Platform where
  /-- A value can be shifted to the left by a count. -/
  holds : Int → Nat → Bool
  zero : ∀ count, holds 0 count = true
  pattern : ∀ value count, 0 ≤ value → value ≤ unsignedMax → count ≤ 32 → holds value count = true

/-- A platform without bounds. -/
def Platform.unbounded : Platform where
  holds _ _ := true
  zero _ := rfl
  pattern _ _ _ _ _ := rfl

namespace Arithmetic

/-- The quotient rounded down. -/
def floorQuotient (a b : Int) : Except ArithmeticError Int :=
  if b = 0 then .error .divisionByZero else .ok (a.fdiv b)

/-- The quotient rounded toward zero: that of the magnitudes, negated if the signs differ. -/
def quotient (a b : Int) : Except ArithmeticError Int :=
  (floorQuotient a.natAbs b.natAbs).map fun q =>
    if decide (a < 0) = decide (b < 0) then q else -q

/-- The remainder of the quotient rounded toward zero; it has the sign of the dividend. -/
def remainder (a b : Int) : Except ArithmeticError Int :=
  (quotient a b).map fun q => a - b * q

/-- Multiplies by a power of two. -/
def shiftLeft (a count : Int) : Except ArithmeticError Int :=
  if count < 0 then .error .negativeShift else .ok (a * powerOfTwo count.toNat)

/-- Divides by a power of two, rounding down. -/
def shiftRight (a count : Int) : Except ArithmeticError Int :=
  if count < 0 then .error .negativeShift else .ok (a / powerOfTwo count.toNat)

/-- Multiplies by a power of two as far as a platform can hold the result. -/
def shiftLeftOn (platform : Platform) (a count : Int) : Except ArithmeticError Int :=
  if 0 ≤ count ∧ platform.holds a count.toNat = false then
    .error .tooManyDigits
  else
    shiftLeft a count

/-- Rotates the low 32 bits to the left. The bits that leave on the left come back on the right. The
first of the two shifts that fails decides how a rotation fails. -/
def rotateLeft (platform : Platform) (a count : Int) : Except ArithmeticError Int := do
  let high ← shiftLeftOn platform (toUnsigned a) count
  let low ← shiftRight (toUnsigned a) (32 - count)
  return Bitwise.and (Bitwise.or high low) unsignedMax

/-- Rotates the low 32 bits to the right. -/
def rotateRight (platform : Platform) (a count : Int) : Except ArithmeticError Int := do
  let low ← shiftRight (toUnsigned a) count
  let high ← shiftLeftOn platform (toUnsigned a) (32 - count)
  return Bitwise.and (Bitwise.or low high) unsignedMax

/-- The greatest power of two that is not above a positive integer, and zero for all others. -/
def greatestPowerOfTwo (a : Int) : Int :=
  if 0 < a then powerOfTwo a.toNat.log2 else 0

/-- Replaces one of the four bytes of the unsigned view; bytes are counted from the low end. The
byte is masked out, and the new one takes its place. -/
def replaceByte (a index byte : Int) : Int :=
  let place := powerOfTwo (8 * index.toNat)
  Bitwise.or (Bitwise.and (toUnsigned a) (Bitwise.complement (255 * place))) (byte * place)

end Arithmetic

end RegisterMachine
