import RegisterMachine.Toml.Float
import RegisterMachine.Toml.Value

/-! Values of a document that hold no other values: texts, numbers, dates and times.
Each reader takes a text that begins with a value and gives the value and what follows it. Newlines
are line feeds.
-/

namespace RegisterMachine.Toml

/-- Why a text is no document. -/
inductive DecodeError where
  | malformed
  /-- An integer has too many digits to be read. -/
  | unconverted (error : ConversionError)
  deriving DecidableEq, Repr

/-- A reader of the start of a text. -/
abbrev Reader (α : Type) := List Char → Except DecodeError (α × List Char)

/-- The reading that has succeeded, or a malformed text. -/
def ofOption {α : Type} (read : Option α) : Except DecodeError α :=
  match read with
  | some a => .ok a
  | none => .error .malformed

/-- The blanks inside a line. -/
def isGap (c : Char) : Bool :=
  c == ' ' || c == '\t'

/-- The rest of a text after the blanks at its start. -/
def skipGap (text : List Char) : List Char :=
  text.dropWhile isGap

/-- A character that may stand in comments and between quotes. -/
def isPlain (c : Char) : Bool :=
  c == '\t' || (0x20 ≤ c.toNat && c ≠ '\x7f')

/-! Quoted texts. -/

/-- The characters up to a closing quote, and the rest behind it. -/
def takeLiteral? : List Char → Option (List Char × List Char)
  | [] => none
  | c :: rest =>
      if c = Text.singleQuote then some ([], rest)
      else if isPlain c then (takeLiteral? rest).map fun (taken, rest) => (c :: taken, rest)
      else none

/-- The characters up to three closing quotes in a row. -/
def takeLongLiteral? : List Char → Option (List Char × List Char)
  | '\x27' :: '\x27' :: '\x27' :: rest => some ([], rest)
  | c :: rest =>
      if isPlain c || c == '\n' then
        (takeLongLiteral? rest).map fun (taken, rest) => (c :: taken, rest)
      else
        none
  | [] => none

/-- The characters up to a closing quote that is not escaped, with their escapes. -/
def takeBasic? : List Char → Option (List Char × List Char)
  | '\x22' :: rest => some ([], rest)
  | '\x5c' :: c :: rest => (takeBasic? rest).map fun (taken, rest) => ('\x5c' :: c :: taken, rest)
  | c :: rest =>
      if isPlain c then (takeBasic? rest).map fun (taken, rest) => (c :: taken, rest) else none
  | [] => none

/-- The characters up to three closing quotes in a row. -/
def takeLongBasic? : List Char → Option (List Char × List Char)
  | '\x22' :: '\x22' :: '\x22' :: rest => some ([], rest)
  | '\x5c' :: c :: rest =>
      (takeLongBasic? rest).map fun (taken, rest) => ('\x5c' :: c :: taken, rest)
  | c :: rest =>
      if isPlain c || c == '\n' then
        (takeLongBasic? rest).map fun (taken, rest) => (c :: taken, rest)
      else
        none
  | [] => none

/-- The character with a code point in hexadecimal digits. -/
def hexChar? (digits : List Char) : Option Char :=
  (Digits.toNat? 16 digits).bind fun n =>
    if n.isValidChar then some (Char.ofNat n) else none

/-- The character that an escape of one letter stands for. -/
def escaped? : Char → Option Char
  | 'b' => some '\x08'
  | 't' => some '\t'
  | 'n' => some '\n'
  | 'f' => some '\x0c'
  | 'r' => some '\r'
  | '\x22' => some '\x22'
  | '\x5c' => some '\x5c'
  | _ => none

/-- What is left out after a backslash at the end of a line. -/
inductive Trimming where
  | nothing
  /-- Blanks up to the end of the line. -/
  | line
  /-- Blanks and newlines up to the next other character. -/
  | lines
  deriving DecidableEq

/-- Replaces escapes by what they stand for. Only in a text of several lines may one stand at the
end of a line. -/
def unescape? (long : Bool) : Trimming → List Char → Option (List Char)
  | .line, [] => none
  | _, [] => some []
  | .line, c :: rest =>
      if c = '\n' then unescape? long .lines rest
      else if isGap c then unescape? long .line rest
      else none
  | trimming, c :: rest =>
      if trimming = .lines ∧ (isGap c ∨ c = '\n') then
        unescape? long .lines rest
      else if c = Text.backslash then
        match rest with
        | 'u' :: a :: b :: c :: d :: rest => do
            return (← hexChar? [a, b, c, d]) :: (← unescape? long .nothing rest)
        | 'U' :: a :: b :: c :: d :: e :: f :: g :: h :: rest => do
            return (← hexChar? [a, b, c, d, e, f, g, h]) :: (← unescape? long .nothing rest)
        | mark :: rest =>
            match escaped? mark with
            | some c => (unescape? long .nothing rest).map (c :: ·)
            | none =>
                if long ∧ mark = '\n' then unescape? long .lines rest
                else if long ∧ isGap mark then unescape? long .line rest
                else none
        | [] => none
      else
        (unescape? long .nothing rest).map (c :: ·)

/-- Up to two more quotes belong to a text that ends with three of them. -/
def extraQuotes (quote : Char) (text : List Char) : List Char × List Char :=
  match text with
  | a :: b :: rest =>
      if a = quote ∧ b = quote then ([a, b], rest)
      else if a = quote then ([a], b :: rest)
      else ([], text)
  | [a] => if a = quote then ([a], []) else ([], text)
  | [] => ([], [])

/-- A newline right after the opening quotes does not count. -/
def dropNewline : List Char → List Char
  | '\n' :: rest => rest
  | text => text

/-- A text in quotes on one line. -/
def readQuoted? : List Char → Option (List Char × List Char)
  | '\x27' :: rest => takeLiteral? rest
  | '\x22' :: rest => do
      let (taken, rest) ← takeBasic? rest
      return (← unescape? false .nothing taken, rest)
  | _ => none

/-- A text in quotes, one or three at each end. -/
def readText? : List Char → Option (List Char × List Char)
  | '\x27' :: '\x27' :: '\x27' :: rest => do
      let (taken, rest) ← takeLongLiteral? (dropNewline rest)
      let (extra, rest) := extraQuotes Text.singleQuote rest
      return (taken ++ extra, rest)
  | '\x22' :: '\x22' :: '\x22' :: rest => do
      let (taken, rest) ← takeLongBasic? (dropNewline rest)
      let (extra, rest) := extraQuotes Text.doubleQuote rest
      return ((← unescape? true .nothing taken) ++ extra, rest)
  | text => readQuoted? text

/-! Dates and times. -/

/-- The number of two decimal digits, if it lies in a range. -/
def pair? (low high : Nat) (a b : Char) : Option Nat :=
  (Digits.toNat? 10 [a, b]).filter fun n => low ≤ n && n ≤ high

/-- A number of microseconds from the digits of a fraction; digits beyond the sixth do not count. -/
def microseconds (digits : List Char) : Nat :=
  ((Digits.toNat? 10 ((digits ++ List.replicate 6 '0').take 6)).getD 0)

def readTime? : List Char → Option (Time × List Char)
  | a :: b :: ':' :: c :: d :: ':' :: e :: f :: rest => do
      let hour ← pair? 0 23 a b
      let minute ← pair? 0 59 c d
      let second ← pair? 0 59 e f
      match rest with
      | '.' :: fraction =>
          let digits := fraction.takeWhile Char.isDigit
          if digits = [] then
            return (⟨hour, minute, second, 0⟩, rest)
          else
            return (⟨hour, minute, second, microseconds digits⟩, fraction.dropWhile Char.isDigit)
      | _ => return (⟨hour, minute, second, 0⟩, rest)
  | _ => none

/-- A date with a month and a day that some month has. -/
def readDate? : List Char → Option (Date × List Char)
  | a :: b :: c :: d :: '-' :: e :: f :: '-' :: g :: h :: rest => do
      let year ← Digits.toNat? 10 [a, b, c, d]
      let month ← pair? 1 12 e f
      let day ← pair? 1 31 g h
      return (⟨year, month, day⟩, rest)
  | _ => none

def isLeapYear (year : Nat) : Bool :=
  year % 4 == 0 && (year % 100 ≠ 0 || year % 400 == 0)

def monthLength (year : Nat) : Nat → Nat
  | 2 => if isLeapYear year then 29 else 28
  | 4 | 6 | 9 | 11 => 30
  | _ => 31

/-- The date exists; years begin with one. -/
def Date.isValid (date : Date) : Bool :=
  0 < date.year && date.day ≤ monthLength date.year date.month

/-- The offset from universal time at the start of a text, if there is one. -/
def readOffset (text : List Char) : Option Int × List Char :=
  match text with
  | 'Z' :: rest | 'z' :: rest => (some 0, rest)
  | sign :: a :: b :: ':' :: c :: d :: rest =>
      match pair? 0 23 a b, pair? 0 59 c d with
      | some hours, some minutes =>
          if sign = '+' then (some (60 * hours + minutes), rest)
          else if sign = '-' then (some (-(60 * hours + minutes)), rest)
          else (none, text)
      | _, _ => (none, text)
  | _ => (none, text)

/-- What follows a date: a time after a letter or a blank, and perhaps an offset. -/
def readAfterDate (date : Date) (text : List Char) : Value × List Char :=
  match text with
  | c :: rest =>
      match if c = 'T' ∨ c = 't' ∨ c = ' ' then readTime? rest else none with
      | some (time, rest) =>
          let (offset, rest) := readOffset rest
          (.dateTime date time offset, rest)
      | none => (.date date, text)
  | [] => (.date date, [])

/-! Numbers. -/

/-- The digits at the start of a text, without the single underscores that may stand between them:
behind a digit, and before another one. -/
def takeDigits (isDigit : Char → Bool) (behindDigit : Bool) : List Char → List Char × List Char
  | c :: rest =>
      if isDigit c then
        let (digits, rest) := takeDigits isDigit true rest
        (c :: digits, rest)
      else if behindDigit ∧ c = '_' ∧ rest.head?.any isDigit then
        takeDigits isDigit false rest
      else
        ([], c :: rest)
  | [] => ([], [])

/-- The digits that are read in a base. -/
def isDigitOf (base : Nat) (c : Char) : Bool :=
  (Digits.value? c).any (· < base)

/-- The base that a letter after a leading zero names. -/
def baseOf? : Char → Option Nat
  | 'x' => some 16
  | 'b' => some 2
  | 'o' => some 8
  | _ => none

/-- A whole number in a base that a prefix names. -/
def readPrefixed? : List Char → Option (Value × List Char)
  | '0' :: letter :: rest => do
      let base ← baseOf? letter
      match takeDigits (isDigitOf base) false rest with
      | ([], _) => none
      | (digits, rest) => return (.integer ((Digits.toNat? base digits).getD 0), rest)
  | _ => none

/-- A plus or minus sign at the start of a text. -/
def takeSign : List Char → Option Char × List Char
  | '+' :: rest => (some '+', rest)
  | '-' :: rest => (some '-', rest)
  | text => (none, text)

/-- The whole part of a decimal number: a zero, or digits that begin with another one. -/
def takeWhole? : List Char → Option (List Char × List Char)
  | '0' :: rest => some (['0'], rest)
  | text =>
      match takeDigits Char.isDigit false text with
      | ([], _) => none
      | (digits, rest) => some (digits, rest)

/-- The digits after a point. -/
def takeFraction : List Char → List Char × List Char
  | '.' :: rest =>
      match takeDigits Char.isDigit false rest with
      | ([], _) => ([], '.' :: rest)
      | (digits, rest) => (digits, rest)
  | text => ([], text)

/-- The value of an exponent. -/
def takeExponent? : List Char → Option (Int × List Char)
  | letter :: rest =>
      if letter = 'e' ∨ letter = 'E' then
        let (sign, rest) := takeSign rest
        match takeDigits Char.isDigit false rest with
        | ([], _) => none
        | (digits, rest) =>
            let magnitude : Int := (Digits.toNat? 10 digits).getD 0
            some (if sign = some '-' then -magnitude else magnitude, rest)
      else
        none
  | [] => none

/-- The text of a floating-point number. -/
def signedFloat (sign : Option Char) (digits : List Char) (exponent : Int) : Value :=
  let text := floatText ((Digits.toNat? 10 digits).getD 0) exponent
  .float (String.ofList (if sign = some '-' then '-' :: text else text))

/-- A decimal number. One without fraction and exponent is an integer. -/
def readDecimal? (text : List Char) : Option (Except DecodeError (Value × List Char)) := do
  let (sign, start) := takeSign text
  let (whole, afterWhole) ← takeWhole? start
  let (fraction, afterFraction) := takeFraction afterWhole
  match takeExponent? afterFraction with
  | some (exponent, rest) =>
      return .ok (signedFloat sign (whole ++ fraction) (exponent - fraction.length), rest)
  | none =>
      if fraction = [] then
        let magnitude : Int := (Digits.toNat? 10 whole).getD 0
        if Digits.Overlong 10 whole then
          return .error (.unconverted (.reading whole.length))
        else
          return .ok (.integer (if sign = some '-' then -magnitude else magnitude), afterFraction)
      else
        return .ok (signedFloat sign (whole ++ fraction) (-fraction.length), afterFraction)

/-- An infinite number, or none at all. -/
def readSpecial? (text : List Char) : Option (Value × List Char) :=
  let (sign, start) := takeSign text
  match start with
  | 'i' :: 'n' :: 'f' :: rest => some (.float (if sign = some '-' then "-inf" else "inf"), rest)
  | 'n' :: 'a' :: 'n' :: rest => some (.float "nan", rest)
  | _ => none

/-- A value that begins with neither a quote nor a bracket. -/
def readUnquoted (text : List Char) : Except DecodeError (Value × List Char) :=
  match readDate? text, readTime? text, readPrefixed? text, readDecimal? text with
  | some (date, rest), _, _, _ =>
      if date.isValid then .ok (readAfterDate date rest) else .error .malformed
  | _, some (time, rest), _, _ => .ok (.time time, rest)
  | _, _, some read, _ => .ok read
  | _, _, _, some read => read
  | none, none, none, none => ofOption (readSpecial? text)

/-- A value that holds no other values. -/
def readScalar : Reader Value
  | 't' :: 'r' :: 'u' :: 'e' :: rest => .ok (.boolean true, rest)
  | 'f' :: 'a' :: 'l' :: 's' :: 'e' :: rest => .ok (.boolean false, rest)
  | c :: rest =>
      if c = Text.singleQuote ∨ c = Text.doubleQuote then
        (ofOption (readText? (c :: rest))).map fun (text, rest) =>
          (.text (String.ofList text), rest)
      else
        readUnquoted (c :: rest)
  | [] => .error .malformed

end RegisterMachine.Toml
