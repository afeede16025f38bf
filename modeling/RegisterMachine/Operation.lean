/-! The operations of the machine: their names in source texts, their codes in words, and the
operands that each one takes.
-/

namespace RegisterMachine

/-- The operations in the order of their codes. -/
inductive Operation where
  | printRegisters
  | bitwiseInversion
  | disjunction
  | conjunction
  | xor
  | implication
  | coimplication
  | equivalence
  | pierceArrow
  | shefferStroke
  | addition
  | subtraction
  | multiplication
  | division
  | modulo
  | swap
  | setByte
  | printOperand
  | inputOperand
  | maxPowerOfTwo
  | shiftLeft
  | shiftRight
  | rotateLeft
  | rotateRight
  | copy
  deriving DecidableEq, Repr

namespace Operation

/-- Every operation once, in the order of the codes. -/
def all : List Operation := [
    .printRegisters, .bitwiseInversion, .disjunction, .conjunction, .xor, .implication,
    .coimplication, .equivalence, .pierceArrow, .shefferStroke, .addition, .subtraction,
    .multiplication, .division, .modulo, .swap, .setByte, .printOperand, .inputOperand,
    .maxPowerOfTwo, .shiftLeft, .shiftRight, .rotateLeft, .rotateRight, .copy ]

def name : Operation → String
  | .printRegisters => "PrintRegisters"
  | .bitwiseInversion => "BitwiseInversion"
  | .disjunction => "Disjunction"
  | .conjunction => "Conjunction"
  | .xor => "Xor"
  | .implication => "Implication"
  | .coimplication => "Coimplication"
  | .equivalence => "Equivalence"
  | .pierceArrow => "PierceArrow"
  | .shefferStroke => "ShefferStroke"
  | .addition => "Addition"
  | .subtraction => "Subtraction"
  | .multiplication => "Multiplication"
  | .division => "Division"
  | .modulo => "Modulo"
  | .swap => "Swap"
  | .setByte => "SetByte"
  | .printOperand => "PrintOperand"
  | .inputOperand => "InputOperand"
  | .maxPowerOfTwo => "MaxPowerOfTwo"
  | .shiftLeft => "ShiftLeft"
  | .shiftRight => "ShiftRight"
  | .rotateLeft => "RotateLeft"
  | .rotateRight => "RotateRight"
  | .copy => "Copy"

def code : Operation → Nat
  | .printRegisters => 0
  | .bitwiseInversion => 1
  | .disjunction => 2
  | .conjunction => 3
  | .xor => 4
  | .implication => 5
  | .coimplication => 6
  | .equivalence => 7
  | .pierceArrow => 8
  | .shefferStroke => 9
  | .addition => 10
  | .subtraction => 11
  | .multiplication => 12
  | .division => 13
  | .modulo => 14
  | .swap => 15
  | .setByte => 16
  | .printOperand => 17
  | .inputOperand => 18
  | .maxPowerOfTwo => 19
  | .shiftLeft => 20
  | .shiftRight => 21
  | .rotateLeft => 22
  | .rotateRight => 23
  | .copy => 24

/-- A name consists of letters. -/
theorem name_letters (operation : Operation)
    : operation.name.toList ≠ [] ∧ operation.name.toList.all Char.isAlpha = true := by
  cases operation <;> exact ⟨by simp [name], rfl⟩

/-- The operation with a code, if there is one. -/
def ofCode? (code : Int) : Option Operation :=
  all.find? fun operation => operation.code = code

/-- The operation with a name, if there is one. Letters have to agree in case. -/
def ofName? (name : String) : Option Operation :=
  all.find? fun operation => operation.name = name

@[simp]
theorem ofCode?_code (operation : Operation)
    : ofCode? operation.code = some operation := by
  cases operation <;> rfl

@[simp]
theorem ofName?_name (operation : Operation)
    : ofName? operation.name = some operation := by
  cases operation <;> rfl

theorem ofCode?_eq_some_iff (code : Int) (operation : Operation)
    : ofCode? code = some operation ↔ operation.code = code := by
  constructor
  · intro h
    simpa using List.find?_some h
  · intro h
    subst h
    exact ofCode?_code operation

theorem ofName?_eq_some_iff (name : String) (operation : Operation)
    : ofName? name = some operation ↔ operation.name = name := by
  constructor
  · intro h
    simpa using List.find?_some h
  · intro h
    subst h
    exact ofName?_name operation

end Operation

/-- What an operand means: a register, by its index, or the base of a numeral. -/
inductive OperandKind where
  | register
  | base
  deriving DecidableEq, Repr

def OperandKind.name : OperandKind → String
  | .register => "register"
  | .base => "base"

/-- The three places for operands. -/
inductive Slot where
  | first
  | second
  | third
  deriving DecidableEq, Repr

def Slot.index : Slot → Nat
  | .first => 0
  | .second => 1
  | .third => 2

/-- The operands that an operation takes, in the order of a source line, each with its slot. -/
abbrev Pattern := List (OperandKind × Slot)

/-- The operands of each operation. An operation with one source and a destination leaves the slot
between them unused. -/
def Operation.pattern : Operation → Pattern
  | .printRegisters => [(.base, .first)]
  | .printOperand | .inputOperand => [(.register, .first), (.base, .second)]
  | .bitwiseInversion | .maxPowerOfTwo => [(.register, .first), (.register, .third)]
  | .swap | .copy => [(.register, .first), (.register, .second)]
  | _ => [(.register, .first), (.register, .second), (.register, .third)]

/-- One integer for each slot. -/
structure Operands where
  first : Int
  second : Int
  third : Int
  deriving DecidableEq, Repr

namespace Operands

def zero : Operands :=
  ⟨0, 0, 0⟩

def get (operands : Operands) : Slot → Int
  | .first => operands.first
  | .second => operands.second
  | .third => operands.third

def set (operands : Operands) (slot : Slot) (value : Int) : Operands :=
  match slot with
  | .first => { operands with first := value }
  | .second => { operands with second := value }
  | .third => { operands with third := value }

def toList (operands : Operands) : List Int :=
  [operands.first, operands.second, operands.third]

@[simp]
theorem get_zero (slot : Slot)
    : zero.get slot = 0 := by
  cases slot <;> rfl

theorem get_set (operands : Operands) (slot other : Slot) (value : Int)
    : (operands.set slot value).get other = if other = slot then value else operands.get other := by
  cases slot <;> cases other <;> rfl

theorem ext_get {first second : Operands} (h : ∀ slot, first.get slot = second.get slot)
    : first = second := by
  obtain ⟨a, b, c⟩ := first
  obtain ⟨a', b', c'⟩ := second
  obtain ⟨rfl, rfl, rfl⟩ : a = a' ∧ b = b' ∧ c = c' := ⟨h .first, h .second, h .third⟩
  rfl

end Operands

end RegisterMachine
