import RegisterMachine.Digits

/-! Floating-point numbers of 64 bits as texts.
A decimal numeral stands for the number of the format that is nearest to it. A number is written in
the fewest digits that stand for it and no other number; of those, the ones nearest to it are taken.
All numbers here are positive.
-/

namespace RegisterMachine.Toml

/-- A number of the format: a natural number of 53 bits, or fewer at the lower end, times a power of
two. -/
structure Float64 where
  significand : Nat
  exponent : Int
  deriving DecidableEq, Repr

namespace Float64

/-- A fraction with a power of some base as a factor. -/
def scale (base numerator denominator : Nat) (exponent : Int) : Nat × Nat :=
  if 0 ≤ exponent then
    (numerator * Nat.pow base exponent.toNat, denominator)
  else
    (numerator, denominator * Nat.pow base (-exponent).toNat)

/-- The quotient rounded to the nearest natural number, and to the even one of two. -/
def roundQuotient (numerator denominator : Nat) : Nat :=
  let quotient := numerator / denominator
  let twice := 2 * (numerator % denominator)
  if twice < denominator ∨ (twice = denominator ∧ quotient % 2 = 0) then quotient else quotient + 1

/-- The number nearest to a fraction. Large exponents are not cut off. -/
def nearest (numerator denominator : Nat) : Float64 :=
  let guess : Int := max (Nat.log2 numerator - Nat.log2 denominator - 53) (-1074)
  let significandAt (exponent : Int) : Nat :=
    let (numerator, denominator) := scale 2 numerator denominator (-exponent)
    roundQuotient numerator denominator
  let exponent :=
    let (numerator, denominator) := scale 2 numerator denominator (-guess)
    if Nat.pow 2 53 ≤ numerator / denominator then guess + 1 else guess
  let significand := significandAt exponent
  if significand = Nat.pow 2 53 then ⟨Nat.pow 2 52, exponent + 1⟩ else ⟨significand, exponent⟩

/-- The number nearest to a decimal numeral: digits times a power of ten. -/
def ofDecimal (digits : Nat) (exponent : Int) : Float64 :=
  let (numerator, denominator) := scale 10 digits 1 exponent
  nearest numerator denominator

/-- The distance of two fractions, the first with the numerator times a power of ten. -/
def distance (digits : Nat) (exponent : Int) (number : Float64) : Nat × Nat :=
  let (a, b) := scale 10 digits 1 exponent
  let (c, d) := scale 2 number.significand 1 number.exponent
  (if a * d < c * b then c * b - a * d else a * d - c * b, b * d)

/-- The numeral nearest to a number among those with a given power of ten that stand for it, and the
even one of two. -/
def numeralAt? (number : Float64) (exponent : Int) : Option Nat :=
  let (numerator, denominator) := scale 2 number.significand 1 number.exponent
  let (numerator, denominator) := scale 10 numerator denominator (-exponent)
  let below := numerator / denominator
  let candidates := [below, below + 1].filter fun digits => ofDecimal digits exponent = number
  match candidates with
  | [first, second] =>
      let (a, b) := distance first exponent number
      let (c, d) := distance second exponent number
      some (if a * d < c * b ∨ (a * d = c * b ∧ first % 2 = 0) then first else second)
  | candidates => candidates.head?

/-- The exponent of ten of the first digit of a number, counted from one before the point. -/
def pointPlace (number : Float64) : Int :=
  let (numerator, denominator) := scale 2 number.significand 1 number.exponent
  let whole := numerator / denominator
  if 0 < whole then
    (Digits.ofNat 10 whole).length
  else
    -- the number of zeros after the point, from the length of the inverse
    let inverse := (denominator - 1) / numerator
    1 - (Digits.ofNat 10 inverse).length

/-- The digits of the shortest numeral, and the place of the point. -/
def shortest (number : Float64) : List Char × Int :=
  let place := number.pointPlace
  let found := (List.range 17).findSome? fun count =>
    let exponent := place - (count + 1 : Nat)
    (number.numeralAt? exponent).map fun digits => (Digits.ofNat 10 digits, exponent)
  match found with
  | none => ([], 0)
  | some (digits, exponent) =>
      ((digits.reverse.dropWhile (· = '0')).reverse, exponent + digits.length)

/-- The text of digits with a point at a place. Very large and very small numbers have an
exponent. -/
def layOut (digits : List Char) (place : Int) : List Char :=
  if place ≤ -4 ∨ 16 < place then
    let exponent := place - 1
    let fraction := if digits.length = 1 then [] else '.' :: digits.drop 1
    let sign := if exponent < 0 then '-' else '+'
    let magnitude := Digits.ofNat 10 exponent.natAbs
    let padding := List.replicate (2 - magnitude.length) '0'
    digits.take 1 ++ fraction ++ 'e' :: sign :: (padding ++ magnitude)
  else if place ≤ 0 then
    "0.".toList ++ List.replicate (-place).toNat '0' ++ digits
  else
    let whole := digits.take place.toNat
    let fraction := digits.drop place.toNat
    whole ++ List.replicate (place.toNat - whole.length) '0'
      ++ '.' :: (if fraction = [] then ['0'] else fraction)

end Float64

/-- The text of the number that stands for a decimal numeral. Numerals beyond the range of the
format are infinite or zero. -/
def floatText (digits : Nat) (exponent : Int) : List Char :=
  let places := (Digits.ofNat 10 digits).length + exponent
  if digits = 0 ∨ places < -330 then
    "0.0".toList
  else if 310 < places then
    "inf".toList
  else
    let number := Float64.ofDecimal digits exponent
    if number.significand = 0 then
      "0.0".toList
    else if 971 < number.exponent then
      "inf".toList
    else
      let (digits, place) := number.shortest
      Float64.layOut digits place

end RegisterMachine.Toml
