/-! Integers as patterns of bits.
A 32-bit pattern has two views: signed, from `-2^31` up, and unsigned, from zero up. Bitwise
operations are on integers of unlimited width, where a negative integer is read in two's complement,
with infinitely many ones on the left.
-/

namespace RegisterMachine

/-- The number of 32-bit patterns. -/
@[simp]
abbrev patternCount : Int := 4294967296

@[simp]
abbrev signedMin : Int := -2147483648

@[simp]
abbrev signedMax : Int := 2147483647

@[simp]
abbrev unsignedMax : Int := 4294967295

/-- Two to the power of a natural number. -/
def powerOfTwo (exponent : Nat) : Int :=
  Nat.pow 2 exponent

/-- The unsigned view of the low 32 bits of an integer. -/
def toUnsigned (value : Int) : Int :=
  value % patternCount

/-- The signed view of the low 32 bits of an integer. -/
def toSigned (value : Int) : Int :=
  if toUnsigned value > signedMax then toUnsigned value - patternCount else toUnsigned value

/-- Integers that a register can hold. -/
abbrev IsSigned (value : Int) : Prop :=
  signedMin ≤ value ∧ value ≤ signedMax

theorem toUnsigned_nonneg (value : Int)
    : 0 ≤ toUnsigned value := by
  simp only [toUnsigned, patternCount]
  omega

theorem toUnsigned_lt (value : Int)
    : toUnsigned value < patternCount := by
  simp only [toUnsigned, patternCount]
  omega

theorem isSigned_toSigned (value : Int)
    : IsSigned (toSigned value) := by
  have hlow := toUnsigned_nonneg value
  have hhigh := toUnsigned_lt value
  unfold toSigned
  split <;> simp_all only [IsSigned, signedMin, signedMax, patternCount] <;> omega

theorem toSigned_eq_self {value : Int} (h : IsSigned value)
    : toSigned value = value := by
  unfold toSigned
  split <;> simp_all only [IsSigned, toUnsigned, signedMin, signedMax, patternCount] <;> omega

/-- Both views of an integer have the same pattern. -/
theorem toUnsigned_toSigned (value : Int)
    : toUnsigned (toSigned value) = toUnsigned value := by
  unfold toSigned
  split <;> simp only [toUnsigned, patternCount] <;> omega

/-- Signed views agree exactly when unsigned views do. -/
theorem toSigned_eq_toSigned_iff {a b : Int}
    : toSigned a = toSigned b ↔ toUnsigned a = toUnsigned b := by
  constructor
  · intro h
    rw [← toUnsigned_toSigned a, h, toUnsigned_toSigned]
  · intro h
    simp only [toSigned, h]

theorem toSigned_eq_self_iff {value : Int}
    : toSigned value = value ↔ IsSigned value := by
  constructor
  · intro same
    exact same ▸ isSigned_toSigned value
  · exact toSigned_eq_self

theorem toUnsigned_toUnsigned (value : Int)
    : toUnsigned (toUnsigned value) = toUnsigned value :=
  Int.emod_emod value patternCount

/-- The pattern of a register decides what it holds. -/
theorem eq_of_toUnsigned_eq {a b : Int} (ha : IsSigned a) (hb : IsSigned b)
    (h : toUnsigned a = toUnsigned b)
    : a = b := by
  rw [← toSigned_eq_self ha, ← toSigned_eq_self hb]
  exact toSigned_eq_toSigned_iff.mpr h

namespace Bitwise

/-- The natural number whose bits are those of an integer, inverted if the integer is negative. -/
def magnitudeBits (value : Int) : Nat :=
  if value < 0 then (-value - 1).toNat else value.toNat

/-- Applies a truth table to each bit of two integers. The sign bits decide whether the result is
negative; bits of a negative integer are inverted on the way in and on the way out. -/
def combine (table : Bool → Bool → Bool) (a b : Int) : Int :=
  let signA := decide (a < 0)
  let signB := decide (b < 0)
  let sign := table signA signB
  let bits := Nat.bitwise (fun x y => (table (x ^^ signA) (y ^^ signB)) ^^ sign)
    (magnitudeBits a) (magnitudeBits b)
  if sign then -bits - 1 else bits

/-- Every bit inverted. -/
def complement (a : Int) : Int :=
  -a - 1

def or (a b : Int) : Int :=
  combine (fun x y => x || y) a b

def and (a b : Int) : Int :=
  combine (fun x y => x && y) a b

def xor (a b : Int) : Int :=
  combine (fun x y => x ^^ y) a b

end Bitwise

end RegisterMachine
