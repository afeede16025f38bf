import RegisterMachine.Assembly.Instruction
import RegisterMachine.Text.Lines
import RegisterMachine.Word.Image

/-! Source texts and source units.
A source text is assembled line by line; the first line that is no instruction discards the whole
text. Lines that hold no code are counted but give no word. Only a rejection is reported with its
line: a conversion that failed is passed on as it is.
-/

namespace RegisterMachine.Assembly

/-- A source text with the name under which its errors are reported. -/
structure SourceUnit where
  contents : String
  name : String
  deriving DecidableEq, Repr

def SourceUnit.defaultName : String :=
  "main"

/-- The line that was not accepted, as it stands in the source text, with its number from one. -/
structure AssemblyError where
  line : String
  lineNumber : Nat
  cause : InstructionError
  unit : Option String

def AssemblyError.message (error : AssemblyError) : String :=
  "Error compiling line: " ++ error.line ++ ". " ++ error.cause.message

/-- Why there are no words. -/
inductive AssemblyFailure where
  | rejected (error : AssemblyError)
  /-- A number in a line was too long to be converted. -/
  | unconverted (error : ConversionError)

/-- What becomes of a failure on a line of a source text. -/
def AssemblyFailure.ofLine (unit : Option String) (lineNumber : Nat) (line : List Char)
    : InstructionError → AssemblyFailure
  | .unconverted error => .unconverted error
  | cause => .rejected ⟨String.ofList line, lineNumber, cause, unit⟩

def AssemblyFailure.message : AssemblyFailure → String
  | .rejected error => error.message
  | .unconverted error => error.message

/-- A trimmed line holds code unless it is empty or begins with two slashes. -/
def isCode : List Char → Bool
  | [] => false
  | '/' :: '/' :: _ => false
  | _ => true

def trimLine (line : List Char) : List Char :=
  Text.trim Text.isBlank line

/-- The word of a line of code. -/
def assembleLine (unit : Option String) (lineNumber : Nat) (line : List Char)
    : Logged AssemblyFailure Int :=
  match issueLine (String.ofList (trimLine line)) with
  | .ok issue => .after issue.record (.value issue.word)
  | .error cause => .ofExcept (.error (.ofLine unit lineNumber line cause))

/-- The words of the lines of code among lines that are numbered from a given number. -/
def assembleLines (unit : Option String) (lineNumber : Nat)
    : List (List Char) → Logged AssemblyFailure (List Int)
  | [] => .value []
  | line :: lines =>
      if isCode (trimLine line) then
        (assembleLine unit lineNumber line).andThen fun word =>
          (assembleLines unit (lineNumber + 1) lines).map (word :: ·)
      else
        assembleLines unit (lineNumber + 1) lines

def assembleWords (source : String) (unit : Option String) : Logged AssemblyFailure (List Int) :=
  assembleLines unit 1 (Text.splitLines source.toList)

def assemble (source : String) : Logged AssemblyFailure Image :=
  (assembleWords source none).map Image.ofWords

/-- The words of source units, one after the other. -/
def assembleUnits : List SourceUnit → Logged AssemblyFailure (List Int)
  | [] => .value []
  | unit :: units =>
      .after (.processing unit.name)
        ((assembleWords unit.contents (some unit.name)).andThen fun words =>
          (assembleUnits units).map (words ++ ·))

def compileUnits (units : List SourceUnit) : Logged AssemblyFailure Image :=
  (assembleUnits units).map Image.ofWords

end RegisterMachine.Assembly
