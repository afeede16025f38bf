import RegisterMachine.Action
import RegisterMachine.Output

/-! The effect of an instruction on a register file.
An effect either stores values, or writes lines, or asks a question. Every operand that it names is
checked before, so that carrying it out cannot fail.
-/

namespace RegisterMachine

/-- A request for the value of a register. -/
structure Question where
  register : Int
  base : Int
  deriving DecidableEq, Repr

def Question.text (question : Question) : String :=
  "Enter value for R" ++ decimal question.register ++ " in base " ++ decimal question.base ++ ":"

/-- What an instruction asks for once its operands have been read. -/
inductive Effect where
  /-- Stores values in registers, in this order. -/
  | write (stores : List (Int × Int))
  /-- Writes lines and leaves the registers alone. -/
  | report (lines : List Line)
  /-- Asks for the value of a register. -/
  | ask (question : Question)

namespace Registers

def fetch (registers : Registers) (index : Int) : Except Fault Int :=
  (registers.get index).mapError .index

def reach (registers : Registers) (index : Int) : Except Fault Unit :=
  (registers.check index).mapError .index

/-- A heading and a line for each register. -/
def listing (registers : Registers) (base : Nat) : List Line :=
  .heading :: registers.cells.zipIdx.map fun (value, index) => .register index (numeral base value)

end Registers

def checkBase (base : Int) : Except Fault Unit :=
  if IsBase base then .ok () else .error (.base ⟨base⟩)

/-- The effect of an action with given operands. Operands are looked at in the order in which they
are read here, and the first one that is out of range decides the fault. -/
def Action.effect (action : Action) (registers : Registers) (operands : Operands)
    : Except Fault Effect :=
  match action with
  | .printAll => do
      checkBase operands.first
      return .report (registers.listing operands.first.toNat)
  | .printOne => do
      let value ← registers.fetch operands.first
      checkBase operands.second
      return .report [.register operands.first (numeral operands.second.toNat value)]
  | .ask => do
      registers.reach operands.first
      checkBase operands.second
      return .ask ⟨operands.first, operands.second⟩
  | .unary function => do
      let a ← registers.fetch operands.first
      registers.reach operands.third
      return .write [(operands.third, function a)]
  | .binary function => do
      let a ← registers.fetch operands.first
      let b ← registers.fetch operands.second
      let result ← (function a b).mapError .arithmetic
      registers.reach operands.third
      return .write [(operands.third, result)]
  | .divide function => do
      let a ← registers.fetch operands.first
      let b ← registers.fetch operands.second
      if b = 0 then
        return .report [.divisionByZero]
      else
        let result ← (function a b).mapError .arithmetic
        registers.reach operands.third
        return .write [(operands.third, result)]
  | .swap => do
      let a ← registers.fetch operands.first
      let b ← registers.fetch operands.second
      return .write [(operands.first, b), (operands.second, a)]
  | .copy => do
      let b ← registers.fetch operands.second
      registers.reach operands.first
      return .write [(operands.first, b)]
  | .setByte => do
      let value ← registers.fetch operands.first
      let index ← registers.fetch operands.second
      let byte ← registers.fetch operands.third
      if index < 0 ∨ 3 < index then
        return .report [.byteIndexOutOfRange]
      else if byte < 0 ∨ 255 < byte then
        return .report [.byteValueOutOfRange]
      else
        return .write [(operands.first, Arithmetic.replaceByte value index byte)]

end RegisterMachine
