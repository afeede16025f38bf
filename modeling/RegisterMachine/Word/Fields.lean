import RegisterMachine.Digits
import RegisterMachine.Operation
import RegisterMachine.TwosComplement

/-! The bit fields of an instruction word.
From the low end a word holds the operation code in five bits and three operands in nine bits each;
together they fill its 32 bits.
-/

namespace RegisterMachine

@[simp]
abbrev opcodeBits : Nat := 5

@[simp]
abbrev operandBits : Nat := 9

/-- The contents of a word. -/
structure Fields where
  opcode : Int
  operands : Operands
  deriving DecidableEq, Repr

/-- The places of a word. -/
inductive Field where
  | opcode
  | operand (slot : Slot)
  deriving DecidableEq, Repr

namespace Field

/-- The fields in the order in which they are checked. -/
def all : List Field :=
  [.opcode, .operand .first, .operand .second, .operand .third]

/-- The name of a field in messages; operands are counted from one. -/
def label : Field → String
  | .opcode => "Opcode"
  | .operand slot => "Operand" ++ decimal (slot.index + 1 : Nat)

def bits : Field → Nat
  | .opcode => opcodeBits
  | .operand _ => operandBits

/-- The greatest value that a field can hold. -/
def limit (field : Field) : Int :=
  powerOfTwo field.bits - 1

def shift : Field → Nat
  | .opcode => 0
  | .operand slot => opcodeBits + slot.index * operandBits

end Field

/-- A value that does not fit into its field. -/
structure FieldOutOfRange where
  field : Field
  value : Int
  deriving DecidableEq, Repr

def FieldOutOfRange.message (error : FieldOutOfRange) : String :=
  error.field.label ++ " " ++ decimal error.value ++ " out of range (0-"
    ++ decimal error.field.limit ++ ")"

/-- Why contents make no word. -/
inductive EncodingError where
  /-- A value does not fit into its field. -/
  | outOfRange (error : FieldOutOfRange)
  /-- A value that does not fit is so long that the complaint about it cannot be worded. -/
  | unworded (error : ConversionError)
  deriving DecidableEq, Repr

/-- The complaint about a value, which has to be written in it. -/
def FieldOutOfRange.complaint (error : FieldOutOfRange) : EncodingError :=
  match writeDecimal error.value with
  | .ok _ => .outOfRange error
  | .error failure => .unworded failure

namespace Fields

/-- The value in a field. -/
def get (fields : Fields) : Field → Int
  | .opcode => fields.opcode
  | .operand slot => fields.operands.get slot

/-- The first field whose value does not fit. -/
def firstOutOfRange? (fields : Fields) : Option FieldOutOfRange :=
  (Field.all.find? fun field => fields.get field < 0 || field.limit < fields.get field).map
    fun field => ⟨field, fields.get field⟩

/-- The word with the given contents, each value moved up to its field. -/
def toWord (fields : Fields) : Int :=
  Field.all.foldl (fun word field => Bitwise.or word (fields.get field * powerOfTwo field.shift)) 0

/-- The word with the given contents, if all of them fit. -/
def encode (fields : Fields) : Except EncodingError Int :=
  match fields.firstOutOfRange? with
  | some error => .error error.complaint
  | none => .ok fields.toWord

/-- The contents of one field of the low 32 bits of an integer. -/
def extract (word : Int) (field : Field) : Int :=
  toUnsigned word / powerOfTwo field.shift % powerOfTwo field.bits

/-- The contents of the low 32 bits of an integer. -/
def ofWord (word : Int) : Fields :=
  { opcode := extract word .opcode
    operands :=
      { first := extract word (.operand .first)
        second := extract word (.operand .second)
        third := extract word (.operand .third) } }

end Fields

end RegisterMachine
