import RegisterMachine.Assembly.Operand
import RegisterMachine.Log

/-! Instructions: an operation with its operands, read from a source line and written as a word.
-/

namespace RegisterMachine

/-- An operation with an operand in each slot. -/
structure Instruction where
  operation : Operation
  operands : Operands
  deriving DecidableEq, Repr

namespace Instruction

def fields (instruction : Instruction) : Fields :=
  ⟨instruction.operation.code, instruction.operands⟩

end Instruction

namespace Assembly

/-- Puts the operands read from tokens into the slots of a pattern. Slots without a token keep what
they hold, and tokens beyond the pattern are not looked at. -/
def readOperands : Pattern → List String → Operands → Except InstructionError Operands
  | (kind, slot) :: pattern, token :: tokens, operands =>
      match readOperand kind token with
      | .ok value => readOperands pattern tokens (operands.set slot value)
      | .error error => .error error
  | _, _, operands => .ok operands

/-- The instruction made of the tokens of a line. -/
def readTokens : List String → Except InstructionError Instruction
  | [] => .error .empty
  | name :: tokens =>
      match readOperation name with
      | .error error => .error error
      | .ok operation =>
          (readOperands operation.pattern tokens .zero).map fun operands => ⟨operation, operands⟩

/-- An instruction of a source text and its word. -/
structure Issue where
  instruction : Instruction
  word : Int
  deriving DecidableEq, Repr

def Issue.record (issue : Issue) : LogRecord :=
  .issuing issue.instruction.operation issue.instruction.operands issue.word

/-- The instruction on one line of code, and its word. -/
def issueLine (text : String) : Except InstructionError Issue :=
  match readTokens (tokenize text) with
  | .error error => .error error
  | .ok instruction =>
      match instruction.fields.encode with
      | .ok word => .ok ⟨instruction, word⟩
      | .error (.outOfRange error) => .error (.encoding error)
      | .error (.unworded error) => .error (.unconverted error)

end Assembly

end RegisterMachine
