import RegisterMachine.Digits
import RegisterMachine.Text.Blank
import RegisterMachine.Text.Lowercase
import RegisterMachine.Text.Quoted
import RegisterMachine.TwosComplement

/-! Numerals of 32-bit values in bases 2 to 36.
Decimal numerals are signed. In any other base a numeral shows the unsigned view of the pattern,
and a numeral without a minus sign is read as one.
-/

namespace RegisterMachine

/-- The least base of a numeral. -/
@[simp]
abbrev minBase : Int := 2

/-- The greatest base of a numeral: ten decimal digits and twenty-six letters. -/
@[simp]
abbrev maxBase : Int := 36

/-- The bases that have numerals. -/
abbrev IsBase (base : Int) : Prop :=
  minBase ≤ base ∧ base ≤ maxBase

/-- A base without numerals. -/
structure InvalidBase where
  base : Int

def InvalidBase.message (_ : InvalidBase) : String :=
  "Invalid Base."

/-- The numeral of a value in a base from 2 to 36. -/
def numeral (base : Nat) (value : Int) : String :=
  if base = 10 then
    decimal (toSigned value)
  else
    String.ofList (Digits.ofNat base (toUnsigned value).toNat)

/-- The numeral of a value, if the base has numerals. -/
def printNumeral (value base : Int) : Except InvalidBase String :=
  if IsBase base then .ok (numeral base.toNat value) else .error ⟨base⟩

/-- Why a text is no numeral. -/
inductive NumeralError where
  /-- The base has no numerals. -/
  | invalidBase (error : InvalidBase)
  /-- The text is blank. -/
  | empty
  /-- There is nothing after the sign. -/
  | missingDigits
  /-- A character, in lower case, is no digit of the base. -/
  | invalidDigit (digit : Char) (base : Nat)
  /-- A letter is no digit itself, although its lower-case form is one. -/
  | unreadable (digits : List Char) (base : Nat)
  /-- There are too many digits to be read. -/
  | unconverted (error : ConversionError)
  /-- The number does not fit into 32 bits. -/
  | outOfRange (value : Int)

/-- The wording of each cause. Long unreadable digits are cut off after 200 characters. A number
that is too long to be written is replaced by the failure to write it. -/
def NumeralError.message : NumeralError → String
  | .invalidBase error => error.message
  | .empty => "Empty input"
  | .missingDigits => "Missing digits"
  | .invalidDigit digit base =>
      "Invalid digit " ++ String.ofList (Text.quote [digit]) ++ " for base " ++ decimal base
  | .unreadable digits base =>
      "invalid literal for int() with base " ++ decimal base ++ ": "
        ++ String.ofList ((Text.quote digits).take 200)
  | .unconverted error => error.message
  | .outOfRange value =>
      match writeDecimal value with
      | .ok text => "Value " ++ text ++ " out of range"
      | .error error => error.message

/-- A digit of a base is one of its first digit characters, with letters in lower case. -/
def isLowerDigit (base : Nat) (c : Char) : Bool :=
  ((List.range base).map Digits.char).contains c

/-- The number denoted by digits without a sign. Every character is checked in lower case before
the number is read, and only what can be read may be too long. -/
def readDigits (base : Nat) (digits : List Char) : Except NumeralError Nat :=
  match (Text.lowercase digits).find? fun c => !isLowerDigit base c with
  | some c => .error (.invalidDigit c base)
  | none =>
      match Digits.toNat? base digits with
      | some magnitude =>
          if Digits.Overlong base digits then
            .error (.unconverted (.reading digits.length))
          else
            .ok magnitude
      | none => .error (.unreadable digits base)

/-- A leading minus sign, and what follows a leading sign. -/
def splitSign : List Char → Bool × List Char
  | '-' :: rest => (true, rest)
  | '+' :: rest => (false, rest)
  | text => (false, text)

/-- The value of a signed magnitude. In a base other than ten a magnitude without a minus sign may
be a pattern; all else has to lie in the signed range. -/
def fitMagnitude (base : Nat) (negative : Bool) (magnitude : Nat) : Except NumeralError Int :=
  let value : Int := if negative then -magnitude else magnitude
  if base ≠ 10 ∧ negative = false ∧ value ≤ unsignedMax then
    .ok (toSigned value)
  else if IsSigned value then
    .ok value
  else
    .error (.outOfRange value)

/-- Reads a text that has been trimmed. -/
def readTrimmed (base : Nat) (text : List Char) : Except NumeralError Int :=
  if text = [] then
    .error .empty
  else
    let (negative, digits) := splitSign text
    if digits = [] then
      .error .missingDigits
    else
      match readDigits base digits with
      | .ok magnitude => fitMagnitude base negative magnitude
      | .error error => .error error

/-- The value of a numeral: blanks around it, an optional sign, and digits in either case. -/
def readNumeral (text : String) (base : Int) : Except NumeralError Int :=
  if IsBase base then
    readTrimmed base.toNat (Text.trim Text.isBlank text.toList)
  else
    .error (.invalidBase ⟨base⟩)

end RegisterMachine
