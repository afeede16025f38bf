import RegisterMachine.Machine
import RegisterMachine.Text.Lines

/-! The console: answers from the lines of the standard input, and what a person sees of a run.

This states what is assumed about the function that puts a question: it reads a line and takes it as
it is, without its terminator; it puts the question again after an empty line; and the end of the
input cancels the question. Carriage returns count as newlines, alone or before a line feed.
-/

namespace RegisterMachine

/-- How often a question is put, and the answer that it gets in the end. -/
structure Reading where
  attempts : Nat
  answer : Answer
  deriving DecidableEq, Repr

namespace Console

/-- The readings that lines give, after some empty lines. -/
def readingsAfter (emptyLines : Nat) : List (List Char) → List Reading
  | [] => [⟨emptyLines + 1, .cancelled⟩]
  | [] :: lines => readingsAfter (emptyLines + 1) lines
  | line :: lines => ⟨emptyLines + 1, .entered (String.ofList line)⟩ :: readingsAfter 0 lines

def readings (input : String) : List Reading :=
  readingsAfter 0 (Text.splitLineFeeds (Text.unifyNewlines input.toList))

def logLine (level : LogLevel) (message : String) : String :=
  level.name ++ ":root:" ++ message ++ "\n"

/-- Records at the level of debugging are only shown when asked for. -/
def shows (verbose : Bool) (level : LogLevel) : Bool :=
  verbose || level ≠ .debug

/-- A log record as it is shown, if it is. -/
def recordText (verbose : Bool) (record : LogRecord) : String :=
  if shows verbose record.level then logLine record.level record.message else ""

def logText (verbose : Bool) (log : List LogRecord) : String :=
  String.join (log.map (recordText verbose))

/-- A question as often as it is put, on one line. It ends with a colon and a blank; where that last
blank goes to the standard output, it is not told apart here and counted to the question. -/
def questionText (question : Question) (attempts : Nat) : String :=
  String.join (List.replicate attempts (question.text ++ ": "))

/-- The events of a run as they are shown, given the readings of its questions in order. Beyond
the readings a question is put once. -/
def eventsText (verbose : Bool) : List Reading → List Event → String
  | _, [] => ""
  | readings, .logged record :: events =>
      recordText verbose record ++ eventsText verbose readings events
  | [], .asked question :: events => questionText question 1 ++ eventsText verbose [] events
  | reading :: readings, .asked question :: events =>
      questionText question reading.attempts ++ eventsText verbose readings events

end Console

end RegisterMachine
