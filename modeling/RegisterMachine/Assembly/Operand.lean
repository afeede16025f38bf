import RegisterMachine.Numeral
import RegisterMachine.Operation
import RegisterMachine.Registers
import RegisterMachine.Text.Runs
import RegisterMachine.Word.Fields

/-! Tokens of a source line: mnemonics and operands.
Blanks and commas separate tokens and never belong to one; every other character does. Each reader
takes a text of its own, with padding around it, so that it is defined on every text and not only on
tokens.

The readers and `tokenize` state what the grammar of a line accepts, on these assumptions about the
parsers that carry it out: blanks, tabs, carriage returns and line feeds are skipped before each
element and at the end; tabs are expanded to blanks first; a regular expression matches the longest
text it can, and its dot every character but the line feed; a mnemonic is not followed by a letter,
a digit, an underscore or a dollar sign; and what an element matches is converted before anything
after it is looked at.
-/

namespace RegisterMachine.Assembly

/-- The blanks that may surround a token. -/
def isPadding (c : Char) : Bool :=
  c == ' ' || c == '\t' || c == '\r' || c == '\n'

def isSeparator (c : Char) : Bool :=
  isPadding c || c == ','

/-- The tokens of a source line in order. -/
def tokenize (text : String) : List String :=
  (Text.runs isSeparator text.toList).map String.ofList

/-- Why a source line is no instruction. -/
inductive InstructionError where
  /-- The line holds no token. -/
  | empty
  /-- The first token is no operation. -/
  | unknownOperation (text : String)
  /-- A text is no register at all. -/
  | noRegister (text : String)
  /-- A text begins like a register but has no index. -/
  | noIndex (text : String)
  /-- The machine has no register with the index. -/
  | indexOutOfRange (error : IndexOutOfRange)
  /-- A text is no integer. -/
  | noInteger (text : String)
  /-- An operand does not fit into its field. -/
  | encoding (error : FieldOutOfRange)
  /-- A text begins with more digits than are converted, whatever follows them. -/
  | unconverted (error : ConversionError)

/-- The wording of each cause; texts are shown as they were given. -/
def InstructionError.message : InstructionError → String
  | .empty => "Empty instruction"
  | .unknownOperation text => "Invalid opcode: " ++ text
  | .noRegister text => "Invalid operand: " ++ text
  | .noIndex text => "Invalid register index: " ++ text
  | .indexOutOfRange error => error.message
  | .noInteger text => "Invalid number: " ++ text
  | .encoding error => error.message
  | .unconverted error => error.message

/-- The kinds of cause that a caller can tell apart. -/
inductive RejectionKind where
  | unknownOpcode
  | invalidRegister
  | operandParseFailure
  | encodingOutOfRange
  /-- The only kind that is not specific to source lines. -/
  | valueError
  deriving DecidableEq, Repr

def RejectionKind.name : RejectionKind → String
  | .unknownOpcode => "UnknownOpcode"
  | .invalidRegister => "InvalidRegister"
  | .operandParseFailure => "OperandParseFailure"
  | .encodingOutOfRange => "EncodingOutOfRange"
  | .valueError => "ValueError"

/-- The kind of each cause. -/
def InstructionError.kind : InstructionError → RejectionKind
  | .empty | .unknownOperation _ => .unknownOpcode
  | .noRegister _ | .noIndex _ | .indexOutOfRange _ => .invalidRegister
  | .noInteger _ => .operandParseFailure
  | .encoding _ => .encodingOutOfRange
  | .unconverted _ => .valueError

/-- The integer denoted by an optional sign and one or more decimal digits. -/
def readInteger? (text : List Char) : Option Int :=
  let (negative, digits) := splitSign text
  if digits = [] then
    none
  else
    (Digits.toNat? 10 digits).map fun magnitude => if negative then -magnitude else magnitude

/-- The digits at the start of a text, after its sign if there is one. -/
def leadingDigits (text : List Char) : List Char :=
  (splitSign text).2.takeWhile Char.isDigit

/-- Reads an integer. The digits at the start are converted before what follows them is looked at,
so that too many of them fail in any case. -/
def convert (text : List Char) : Except ConversionError (Option Int) :=
  if Digits.limit < (leadingDigits text).length then
    .error (.reading (leadingDigits text).length)
  else
    .ok (readInteger? text)

/-- A text without its padding. -/
def unpad (text : String) : List Char :=
  Text.trim isPadding text.toList

/-- The index written after the letter of a register. A line feed inside the text means that it is
no register at all, whatever it begins with. -/
def readRegister (text : String) : Except InstructionError Int :=
  match unpad text with
  | [] => .error (.noRegister text)
  | letter :: rest =>
      if (letter = 'R' ∨ letter = 'r') ∧ '\n' ∉ rest then
        match convert rest with
        | .error error => .error (.unconverted error)
        | .ok none => .error (.noIndex text)
        | .ok (some index) =>
            if 0 ≤ index ∧ index < registerCount then
              .ok index
            else
              .error (.indexOutOfRange ⟨index, registerCount⟩)
      else
        .error (.noRegister text)

/-- The integer that a text denotes, of any size that can be converted. -/
def readBase (text : String) : Except InstructionError Int :=
  match convert (unpad text) with
  | .error error => .error (.unconverted error)
  | .ok none => .error (.noInteger text)
  | .ok (some value) => .ok value

def readOperation (text : String) : Except InstructionError Operation :=
  match Operation.ofName? (String.ofList (unpad text)) with
  | some operation => .ok operation
  | none => .error (.unknownOperation text)

def readOperand : OperandKind → String → Except InstructionError Int
  | .register => readRegister
  | .base => readBase

end RegisterMachine.Assembly
