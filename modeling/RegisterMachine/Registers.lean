import RegisterMachine.Digits
import RegisterMachine.TwosComplement

/-! The register file: a row of cells addressed by an integer index.
Only indices from zero to below the size name a cell. Stored values are brought into the signed
range.
-/

namespace RegisterMachine

/-- The number of registers of a full machine, as many as an operand can name. -/
@[simp]
abbrev registerCount : Nat := 512

/-- The cells in index order. -/
structure Registers where
  cells : List Int
  deriving DecidableEq, Repr

/-- An index that names no cell of a register file of some size. -/
structure IndexOutOfRange where
  index : Int
  size : Nat
  deriving DecidableEq, Repr

/-- The complaint about an index. It cannot be worded if the index is too long to be written. -/
def IndexOutOfRange.wording (error : IndexOutOfRange) : Except ConversionError String :=
  (writeDecimal error.index).map fun index =>
    "Register index " ++ index ++ " out of range (0-" ++ decimal (error.size - 1) ++ ")"

/-- The wording of the complaint, or of the failure to word it, which takes its place. -/
def IndexOutOfRange.message (error : IndexOutOfRange) : String :=
  match error.wording with
  | .ok wording => wording
  | .error error => error.message

namespace Registers

/-- Registers that all hold zero. A size that is not positive gives none. -/
def zeros (size : Int) : Registers :=
  ⟨List.replicate size.toNat 0⟩

def full : Registers :=
  zeros registerCount

def size (registers : Registers) : Nat :=
  registers.cells.length

/-- The index names a cell. -/
abbrev Contains (registers : Registers) (index : Int) : Prop :=
  0 ≤ index ∧ index < registers.size

/-- The value of the cell with an index, and zero where there is no cell. -/
def value (registers : Registers) (index : Int) : Int :=
  registers.cells.getD index.toNat 0

/-- Replaces the value of a cell as it is. -/
def put (registers : Registers) (index value : Int) : Registers :=
  ⟨registers.cells.set index.toNat value⟩

/-- Stores the signed view of a value in a cell. -/
def store (registers : Registers) (index value : Int) : Registers :=
  registers.put index (toSigned value)

def storeAll (registers : Registers) (stores : List (Int × Int)) : Registers :=
  stores.foldl (fun registers (index, value) => registers.store index value) registers

/-- Accepts an index that names a cell. -/
def check (registers : Registers) (index : Int) : Except IndexOutOfRange Unit :=
  if registers.Contains index then .ok () else .error ⟨index, registers.size⟩

/-- The value of a cell, if the index names one. -/
def get (registers : Registers) (index : Int) : Except IndexOutOfRange Int :=
  if registers.Contains index then .ok (registers.value index) else .error ⟨index, registers.size⟩

/-- Stores a value, if the index names a cell. -/
def set (registers : Registers) (index value : Int) : Except IndexOutOfRange Registers :=
  if registers.Contains index then
    .ok (registers.store index value)
  else
    .error ⟨index, registers.size⟩

def clear (registers : Registers) : Registers :=
  zeros registers.size

/-- The cells that are not zero, with their indices, in index order. -/
def nonZero (registers : Registers) : List (Nat × Int) :=
  (registers.cells.zipIdx.filter fun cell => cell.1 ≠ 0).map fun cell => (cell.2, cell.1)

/-- The unsigned view of a value in eight hexadecimal digits, letters in upper case. -/
def patternText (value : Int) : String :=
  String.ofList ((Digits.padded 16 8 (toUnsigned value).toNat).map Char.toUpper)

/-- One line that shows the patterns of all cells that are not zero. -/
def dump (registers : Registers) : String :=
  if registers.nonZero = [] then
    "all registers zero"
  else
    " ".intercalate <| registers.nonZero.map fun (index, value) =>
      "R" ++ decimal index ++ ":" ++ patternText value

@[simp]
theorem size_zeros (size : Int)
    : (zeros size).size = size.toNat := by
  simp [zeros, Registers.size]

@[simp]
theorem size_put (registers : Registers) (index value : Int)
    : (registers.put index value).size = registers.size := by
  simp [put, size]

@[simp]
theorem size_store (registers : Registers) (index value : Int)
    : (registers.store index value).size = registers.size :=
  size_put registers index (toSigned value)

@[simp]
theorem size_storeAll (registers : Registers) (stores : List (Int × Int))
    : (registers.storeAll stores).size = registers.size := by
  induction stores generalizing registers with
  | nil => rfl
  | cons store stores ih => exact (ih _).trans (size_store registers store.1 store.2)

@[simp]
theorem size_clear (registers : Registers)
    : registers.clear.size = registers.size := by
  simp [clear]

/-- A replaced cell has the new value and every other cell its old one. -/
theorem value_put {registers : Registers} {index : Int} (h : registers.Contains index)
    (value : Int) {other : Int} (hother : 0 ≤ other)
    : (registers.put index value).value other
      = if other = index then value else registers.value other := by
  obtain ⟨hpos, hlt⟩ := h
  have hin : index.toNat < registers.cells.length := by simp only [size] at hlt; omega
  simp only [put, Registers.value, List.getD_eq_getElem?_getD, List.getElem?_set]
  by_cases hsame : other = index
  · subst other
    simp [hin]
  · have hne : index.toNat ≠ other.toNat := by omega
    simp [hne, hsame]

end Registers

end RegisterMachine
