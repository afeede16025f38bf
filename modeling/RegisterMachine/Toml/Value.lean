import RegisterMachine.Digits
import RegisterMachine.Text.Quoted

/-! Values of a document, and the texts that show them.
A value is shown alone or as part of another one, where texts are quoted and dates are spelled out.
-/

namespace RegisterMachine.Toml

structure Date where
  year : Nat
  month : Nat
  day : Nat
  deriving DecidableEq, Repr

structure Time where
  hour : Nat
  minute : Nat
  second : Nat
  microsecond : Nat
  deriving DecidableEq, Repr

/-- A value. -/
inductive Value where
  | text (text : String)
  | integer (value : Int)
  /-- A number with a fraction or an exponent, as it is shown. -/
  | float (text : String)
  | boolean (value : Bool)
  | date (date : Date)
  | time (time : Time)
  /-- A date with a time, and the minutes by which it is ahead of universal time, if they are
  known. -/
  | dateTime (date : Date) (time : Time) (offset : Option Int)
  | array (elements : List Value)
  | table (entries : List (String × Value))
  deriving Repr

/-- Named values, in the order in which the names were given. -/
abbrev Table := List (String × Value)

/-- The decimal digits of a number, with leading zeros up to a width. -/
def paddedDecimal (width n : Nat) : String :=
  String.ofList (Digits.padded 10 width n)

def Date.text (date : Date) : String :=
  "-".intercalate
    [paddedDecimal 4 date.year, paddedDecimal 2 date.month, paddedDecimal 2 date.day]

def Time.text (time : Time) : String :=
  ":".intercalate
      [paddedDecimal 2 time.hour, paddedDecimal 2 time.minute, paddedDecimal 2 time.second]
    ++ if time.microsecond = 0 then "" else "." ++ paddedDecimal 6 time.microsecond

/-- The minutes of an offset as hours and minutes with a sign. -/
def offsetText (offset : Int) : String :=
  (if offset < 0 then "-" else "+")
    ++ paddedDecimal 2 (offset.natAbs / 60) ++ ":" ++ paddedDecimal 2 (offset.natAbs % 60)

/-- A name with arguments. -/
def callText (name : String) (arguments : List String) : String :=
  name ++ "(" ++ ", ".intercalate arguments ++ ")"

def Date.arguments (date : Date) : List String :=
  [date.year, date.month, date.day].map fun n => decimal (n : Nat)

/-- Seconds and microseconds are only given as far as they are not zero at the end. -/
def Time.arguments (time : Time) : List String :=
  let shown :=
    if time.microsecond ≠ 0 then [time.hour, time.minute, time.second, time.microsecond]
    else if time.second ≠ 0 then [time.hour, time.minute, time.second]
    else [time.hour, time.minute]
  shown.map fun n => decimal (n : Nat)

/-- A negative difference is a negative number of days with seconds that count from there. -/
def zoneText (offset : Int) : String :=
  if offset = 0 then
    "datetime.timezone.utc"
  else
    let seconds := "seconds=" ++ decimal (offset % 1440 * 60)
    let arguments :=
      if offset < 0 then
        "days=-1" :: if offset % 1440 = 0 then [] else [seconds]
      else
        [seconds]
    callText "datetime.timezone" [callText "datetime.timedelta" arguments]

def booleanText (value : Bool) : String :=
  if value then "True" else "False"

def quotedText (text : String) : String :=
  String.ofList (Text.quote text.toList)

mutual

/-- The text of a value inside another one. An integer may be too long to be written. -/
def Value.spelled : Value → Except ConversionError String
  | .text contents => .ok (quotedText contents)
  | .integer value => writeDecimal value
  | .float shown => .ok shown
  | .boolean value => .ok (booleanText value)
  | .date day => .ok (callText "datetime.date" day.arguments)
  | .time clock => .ok (callText "datetime.time" clock.arguments)
  | .dateTime day clock offset =>
      let zone := match offset with
        | none => []
        | some offset => ["tzinfo=" ++ zoneText offset]
      .ok (callText "datetime.datetime" (day.arguments ++ clock.arguments ++ zone))
  | .array elements =>
      (spelledAll elements).map fun texts => "[" ++ ", ".intercalate texts ++ "]"
  | .table entries =>
      (spelledEntries entries).map fun texts => "\x7b" ++ ", ".intercalate texts ++ "\x7d"

def spelledAll : List Value → Except ConversionError (List String)
  | [] => .ok []
  | value :: values => do return (← value.spelled) :: (← spelledAll values)

def spelledEntries : List (String × Value) → Except ConversionError (List String)
  | [] => .ok []
  | (name, value) :: entries => do
      return (quotedText name ++ ": " ++ (← value.spelled)) :: (← spelledEntries entries)

end

/-- The text of a value on its own. -/
def Value.shown : Value → Except ConversionError String
  | .text contents => .ok contents
  | .date day => .ok day.text
  | .time clock => .ok clock.text
  | .dateTime day clock offset =>
      let zone := match offset with
        | none => ""
        | some offset => offsetText offset
      .ok (day.text ++ " " ++ clock.text ++ zone)
  | value => value.spelled

end RegisterMachine.Toml
