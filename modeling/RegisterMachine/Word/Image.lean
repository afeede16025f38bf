import RegisterMachine.Digits
import RegisterMachine.TwosComplement

/-! Program images: words as a stream of bytes, four to a word, the lowest byte first.
-/

namespace RegisterMachine

/-- A program as a byte string. -/
abbrev Image := List UInt8

@[simp]
abbrev wordSize : Nat := 4

/-- Integers that fit into a word. -/
abbrev IsWord (word : Int) : Prop :=
  0 ≤ word ∧ word ≤ unsignedMax

/-- The byte of an integer above its lowest `8 * position` bits. -/
def byteAt (word : Int) (position : Nat) : UInt8 :=
  UInt8.ofNat (word / powerOfTwo (8 * position) % powerOfTwo 8).toNat

def wordBytes (word : Int) : Image :=
  [byteAt word 0, byteAt word 1, byteAt word 2, byteAt word 3]

/-- The word made of four bytes. -/
def wordOfBytes (a b c d : UInt8) : Int :=
  a.toNat + b.toNat * powerOfTwo 8 + c.toNat * powerOfTwo 16 + d.toNat * powerOfTwo 24

/-- An image that ends inside a word: where the last word starts and how many bytes it has. -/
structure Truncation where
  offset : Nat
  count : Nat
  deriving DecidableEq, Repr

def Truncation.message (error : Truncation) : String :=
  "Truncated word at offset " ++ decimal error.offset ++ " (" ++ decimal error.count ++ " bytes)"

namespace Image

def ofWords (words : List Int) : Image :=
  words.flatMap wordBytes

/-- The image of a list of integers, if each of them fits into a word. -/
def pack? (words : List Int) : Option Image :=
  if words.all fun word => decide (IsWord word) then some (ofWords words) else none

/-- The whole words of an image in stream order. -/
def words : Image → List Int
  | a :: b :: c :: d :: rest => wordOfBytes a b c d :: words rest
  | _ => []

/-- The partial word at the end of an image that starts at an offset. -/
def truncationFrom? (offset : Nat) : Image → Option Truncation
  | _ :: _ :: _ :: _ :: rest => truncationFrom? (offset + wordSize) rest
  | [] => none
  | rest => some ⟨offset, rest.length⟩

/-- The partial word at the end of an image. -/
def truncation? (image : Image) : Option Truncation :=
  image.truncationFrom? 0

end Image

end RegisterMachine
