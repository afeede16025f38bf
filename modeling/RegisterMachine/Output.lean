import RegisterMachine.Arithmetic
import RegisterMachine.Numeral
import RegisterMachine.Registers
import RegisterMachine.Text.Lines
import RegisterMachine.Word.Image

/-! The lines that a running program writes.
-/

namespace RegisterMachine

/-- Why an instruction could not be completed. -/
inductive Fault where
  | index (error : IndexOutOfRange)
  | base (error : InvalidBase)
  | arithmetic (error : ArithmeticError)
  /-- The person asked for a value gave a failure instead. -/
  | prompt (message : String)

def Fault.message : Fault → String
  | .index error => error.message
  | .base error => error.message
  | .arithmetic error => error.message
  | .prompt message => message

/-- A line of output. -/
inductive Line where
  /-- The heading of a list of all registers. -/
  | heading
  /-- The numeral of a register. -/
  | register (index : Int) (numeral : String)
  | fault (cause : Fault)
  | divisionByZero
  | byteIndexOutOfRange
  | byteValueOutOfRange
  | inputCancelled
  | invalidInput
  | unknownOpcode (opcode : Int)
  | truncated (cause : Truncation)

def Line.text : Line → String
  | .heading => "Register Values:"
  | .register index numeral => "R" ++ decimal index ++ ": " ++ numeral
  | .fault cause => "Error during instruction execution: " ++ cause.message
  | .divisionByZero => "Error: Division by zero."
  | .byteIndexOutOfRange => "Error: Byte index out of range (0-3)."
  | .byteValueOutOfRange => "Error: Byte value out of range (0-255)."
  | .inputCancelled => "Input cancelled."
  | .invalidInput => "Error: Invalid input."
  | .unknownOpcode opcode => "Error: Unknown opcode " ++ decimal opcode
  | .truncated cause => "Error: " ++ cause.message

/-- The text of a program's output: every line with a line feed after it. -/
def outputText (lines : List Line) : String :=
  Text.unlines (lines.map Line.text)

end RegisterMachine
