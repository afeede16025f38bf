import RegisterMachine.Arithmetic
import RegisterMachine.Operation

/-! What the operations do, sorted by the way in which they use their operands.
-/

namespace RegisterMachine

/-- A function of two registers that may fail. -/
abbrev BinaryFunction := Int → Int → Except ArithmeticError Int

/-- The ways in which an operation uses the registers named by its operands. -/
inductive Action where
  /-- Prints every register in the base given by the first operand. -/
  | printAll
  /-- Prints the first register in the base given by the second operand. -/
  | printOne
  /-- Asks for the value of the first register in the base given by the second operand. -/
  | ask
  /-- Puts a function of the first register into the third. -/
  | unary (function : Int → Int)
  /-- Puts a function of the first and the second register into the third. -/
  | binary (function : BinaryFunction)
  /-- Does the same, but reports a second register that holds zero. -/
  | divide (function : BinaryFunction)
  /-- Exchanges the first and the second register. -/
  | swap
  /-- Puts the second register into the first. -/
  | copy
  /-- Replaces the byte of the first register that the second one numbers by the third one. -/
  | setByte

/-- A function of two registers that always has a result. -/
def Action.total (function : Int → Int → Int) : Action :=
  .binary fun a b => .ok (function a b)

/-- What each operation does. Shift and rotation counts are reduced to less than the width of a
register first, so that no platform is too small for a shift. -/
def Operation.action : Operation → Action
  | .printRegisters => .printAll
  | .bitwiseInversion => .unary Bitwise.complement
  | .disjunction => .total Bitwise.or
  | .conjunction => .total Bitwise.and
  | .xor => .total Bitwise.xor
  | .implication => .total fun a b => Bitwise.or (Bitwise.complement a) b
  | .coimplication => .total fun a b => Bitwise.or a (Bitwise.complement b)
  | .equivalence => .total fun a b =>
      Bitwise.or (Bitwise.and (Bitwise.complement a) (Bitwise.complement b)) (Bitwise.and a b)
  | .pierceArrow => .total fun a b => Bitwise.complement (Bitwise.or a b)
  | .shefferStroke => .total fun a b => Bitwise.complement (Bitwise.and a b)
  | .addition => .total fun a b => a + b
  | .subtraction => .total fun a b => a - b
  | .multiplication => .total fun a b => a * b
  | .division => .divide Arithmetic.quotient
  | .modulo => .divide Arithmetic.remainder
  | .swap => .swap
  | .setByte => .setByte
  | .printOperand => .printOne
  | .inputOperand => .ask
  | .maxPowerOfTwo => .unary Arithmetic.greatestPowerOfTwo
  | .shiftLeft => .binary fun a b => Arithmetic.shiftLeft a (Bitwise.and b 31)
  | .shiftRight => .binary fun a b => Arithmetic.shiftRight a (Bitwise.and b 31)
  | .rotateLeft => .binary fun a b => Arithmetic.rotateLeft .unbounded a (b % 32)
  | .rotateRight => .binary fun a b => Arithmetic.rotateRight .unbounded a (b % 32)
  | .copy => .copy

theorem Operation.action_eq_printAll_iff (operation : Operation)
    : operation.action = .printAll ↔ operation = .printRegisters := by
  cases operation <;> simp [action, Action.total]

end RegisterMachine
