import RegisterMachine.Numeral
import RegisterMachine.Operation
import RegisterMachine.Registers

/-! Log records, and computations that leave records behind.
The records of a computation that fails are kept.
-/

namespace RegisterMachine

/-- How important a record is. -/
inductive LogLevel where
  | debug
  | info
  | error
  deriving DecidableEq, Repr

def LogLevel.name : LogLevel → String
  | .debug => "DEBUG"
  | .info => "INFO"
  | .error => "ERROR"

/-- Something that happened. -/
inductive LogRecord where
  /-- An instruction of a source text became a word. -/
  | issuing (operation : Operation) (operands : Operands) (word : Int)
  /-- The assembly of a source unit begins. -/
  | processing (unit : String)
  /-- A source file is about to be read. -/
  | collecting (path : String)
  /-- An instruction is about to be carried out. -/
  | executing (operation : Operation) (operands : Operands)
  /-- An answer was no numeral. -/
  | rejected (answer : String) (error : NumeralError)
  /-- The contents of the registers. -/
  | contents (registers : Registers)
  /-- A source text was not accepted because of a line. -/
  | compilationFailed (lineNumber : Nat)

/-- The records about whole source units are of interest to every reader. -/
def LogRecord.level : LogRecord → LogLevel
  | .processing _ => .info
  | _ => .debug

def LogRecord.message : LogRecord → String
  | .issuing operation operands word =>
      "Issuing " ++ operation.name ++ " [" ++ ", ".intercalate (operands.toList.map decimal)
        ++ "] -> 0x" ++ Registers.patternText word
  | .processing unit => "Processing " ++ unit
  | .collecting path => "Collecting file " ++ path
  | .executing operation operands =>
      " ".intercalate (operation.name :: operands.toList.map decimal)
  | .rejected answer error =>
      "Rejected input " ++ String.ofList (Text.quote answer.toList) ++ ": " ++ error.message
  | .contents registers => registers.dump
  | .compilationFailed lineNumber => "Compilation failed at line " ++ decimal lineNumber

/-- The result of a computation together with the records that it left, in order. -/
structure Logged (ε α : Type) where
  log : List LogRecord
  result : Except ε α

namespace Logged

/-- A result that leaves no record. -/
def ofExcept {ε α : Type} (result : Except ε α) : Logged ε α :=
  ⟨[], result⟩

def value {ε α : Type} (a : α) : Logged ε α :=
  ofExcept (.ok a)

/-- Goes on with the value of a computation, if it has one. -/
def andThen {ε α β : Type} (first : Logged ε α) (next : α → Logged ε β) : Logged ε β :=
  match first.result with
  | .ok a => ⟨first.log ++ (next a).log, (next a).result⟩
  | .error error => ⟨first.log, .error error⟩

def map {ε α β : Type} (f : α → β) (first : Logged ε α) : Logged ε β :=
  ⟨first.log, first.result.map f⟩

def after {ε α : Type} (record : LogRecord) (computation : Logged ε α) : Logged ε α :=
  ⟨record :: computation.log, computation.result⟩

@[simp]
theorem result_andThen {ε α β : Type} (first : Logged ε α) (next : α → Logged ε β)
    : (first.andThen next).result = first.result.bind fun a => (next a).result := by
  obtain ⟨log, result⟩ := first
  cases result <;> rfl

@[simp]
theorem result_map {ε α β : Type} (f : α → β) (first : Logged ε α)
    : (first.map f).result = first.result.map f :=
  rfl

@[simp]
theorem result_after {ε α : Type} (record : LogRecord) (computation : Logged ε α)
    : (after record computation).result = computation.result :=
  rfl

@[simp]
theorem result_ofExcept {ε α : Type} (result : Except ε α)
    : (ofExcept result).result = result :=
  rfl

@[simp]
theorem result_value {ε α : Type} (a : α)
    : (value a : Logged ε α).result = .ok a :=
  rfl

end Logged

end RegisterMachine
