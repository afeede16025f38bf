/-! Positional notation of natural numbers in bases up to 36, and the limit on its length.
Digits are the decimal digits and then the letters; the most significant digit comes first.
-/

namespace RegisterMachine.Digits

/-- The character of a digit value below 36; letters are written in lower case. -/
def char (digit : Nat) : Char :=
  Char.ofNat (if digit < 10 then 48 + digit else 87 + digit)

/-- The value of a digit character; a letter counts the same in either case. -/
def value? (c : Char) : Option Nat :=
  let n := c.toNat
  if 48 ≤ n && n ≤ 57 then some (n - 48)
  else if 97 ≤ n && n ≤ 122 then some (n - 87)
  else if 65 ≤ n && n ≤ 90 then some (n - 55)
  else none

/-- The shortest notation of a number; zero is a single digit. -/
def ofNat (base n : Nat) : List Char :=
  if n < base ∨ base < 2 then
    [char n]
  else
    ofNat base (n / base) ++ [char (n % base)]
termination_by n
decreasing_by exact Nat.div_lt_self (by omega) (by omega)

/-- The last `width` digits of a number, with leading zeros where it has fewer. -/
def padded (base : Nat) : (width n : Nat) → List Char
  | 0, _ => []
  | width + 1, n => padded base width (n / base) ++ [char (n % base)]

/-- The number that a sequence of digit values stands for. -/
def combine (base : Nat) (digits : List Nat) : Nat :=
  digits.foldl (fun n digit => n * base + digit) 0

/-- The number that a text denotes, if every character is a digit of the base. -/
def toNat? (base : Nat) (text : List Char) : Option Nat :=
  (text.mapM fun c => (value? c).filter (· < base)).map (combine base)

/-- The number of digits up to which integers and numerals are converted into each other. Signs do
not count and leading zeros do. The limit is a setting of the platform, and this is its default. -/
abbrev limit : Nat := 4300

/-- A row of digits is too long to be read in a base. Powers of two have no such limit. -/
abbrev Overlong (base : Nat) (digits : List Char) : Prop :=
  base &&& (base - 1) ≠ 0 ∧ limit < digits.length

end RegisterMachine.Digits

namespace RegisterMachine

/-- Decimal notation of an integer, with a minus sign in front of a negative one. -/
def decimal (value : Int) : String :=
  String.ofList <|
    if value < 0 then '-' :: Digits.ofNat 10 value.natAbs else Digits.ofNat 10 value.natAbs

/-- A conversion between an integer and a numeral that was refused for its length. -/
inductive ConversionError where
  /-- A numeral with some number of digits was to be read. -/
  | reading (count : Nat)
  /-- An integer was to be written. -/
  | writing
  deriving DecidableEq, Repr

def ConversionError.message : ConversionError → String
  | .reading count =>
      "Exceeds the limit (" ++ decimal Digits.limit
        ++ " digits) for integer string conversion: value has " ++ decimal count
        ++ " digits; use sys.set_int_max_str_digits() to increase the limit"
  | .writing =>
      "Exceeds the limit (" ++ decimal Digits.limit
        ++ " digits) for integer string conversion; use sys.set_int_max_str_digits() to increase "
        ++ "the limit"

/-- Decimal notation of an integer that is not too long. -/
def writeDecimal (value : Int) : Except ConversionError String :=
  if Digits.limit < (Digits.ofNat 10 value.natAbs).length then
    .error .writing
  else
    .ok (decimal value)

end RegisterMachine
