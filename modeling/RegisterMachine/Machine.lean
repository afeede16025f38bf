import RegisterMachine.Effect
import RegisterMachine.Log
import RegisterMachine.Prompt
import RegisterMachine.Word.Fields

/-! The machine: registers and a prompt, changed by one instruction word after the other.
A fault becomes a line of output and the run goes on; only a failure of the prompt of a foreign kind
stops it.
-/

namespace RegisterMachine

/-- The state of a machine. -/
structure Machine where
  registers : Registers
  prompt : Prompt
  deriving DecidableEq, Repr

/-- What an observer of a run sees besides its output. -/
inductive Event where
  | logged (record : LogRecord)
  | asked (question : Question)

/-- The state after a run, the lines and the events of the run in order, and the failure that cut it
short, if any. -/
structure Outcome where
  machine : Machine
  lines : List Line
  events : List Event
  escaped : Option PromptFailure

namespace Outcome

/-- Nothing happens. -/
def idle (machine : Machine) : Outcome :=
  ⟨machine, [], [], none⟩

def writing (machine : Machine) (lines : List Line) : Outcome :=
  ⟨machine, lines, [], none⟩

/-- Something is seen before all else. -/
def after (event : Event) (outcome : Outcome) : Outcome :=
  { outcome with events := event :: outcome.events }

/-- Goes on from the state that is reached, unless the run was cut short. -/
def andThen (first : Outcome) (next : Machine → Outcome) : Outcome :=
  match first.escaped with
  | some _ => first
  | none =>
      let second := next first.machine
      { second with
        lines := first.lines ++ second.lines
        events := first.events ++ second.events }

@[simp]
theorem idle_andThen (machine : Machine) (next : Machine → Outcome)
    : (idle machine).andThen next = next machine := by
  simp [idle, andThen]

@[simp]
theorem andThen_idle (first : Outcome)
    : first.andThen idle = first := by
  obtain ⟨machine, lines, events, escaped⟩ := first
  cases escaped <;> simp [idle, andThen]

/-- Runs that follow each other can be grouped in either way. -/
theorem andThen_assoc (first : Outcome) (second third : Machine → Outcome)
    : (first.andThen second).andThen third
      = first.andThen fun machine => (second machine).andThen third := by
  obtain ⟨machine, lines, events, escaped⟩ := first
  cases escaped with
  | some failure => rfl
  | none =>
      simp only [andThen]
      cases h : (second machine).escaped <;> simp [h]

def text (outcome : Outcome) : String :=
  outputText outcome.lines

def questions (outcome : Outcome) : List Question :=
  outcome.events.filterMap fun
    | .asked question => some question
    | .logged _ => none

def log (outcome : Outcome) : List LogRecord :=
  outcome.events.filterMap fun
    | .logged record => some record
    | .asked _ => none

end Outcome

namespace Machine

def withRegisters (machine : Machine) (registers : Registers) : Machine :=
  { machine with registers := registers }

/-- Takes an answer to a question. A text is stored if it is a numeral in the base asked for. -/
def accept (machine : Machine) (question : Question) : Answer → Outcome
  | .cancelled => .writing machine [.inputCancelled]
  | .failed failure =>
      if failure.kind.isFault then
        .writing machine [.fault (.prompt failure.message)]
      else
        ⟨machine, [], [], some failure⟩
  | .entered text =>
      match readNumeral text question.base with
      | .ok value => .idle (machine.withRegisters (machine.registers.store question.register value))
      | .error error =>
          .after (.logged (.rejected text error)) (.writing machine [.invalidInput])

/-- Asks a question. Without a prompt it counts as cancelled and nobody sees it. -/
def ask (machine : Machine) (question : Question) : Outcome :=
  match machine.prompt with
  | none => .writing machine [.inputCancelled]
  | some answers =>
      let (answer, rest) := nextAnswer answers
      .after (.asked question) (accept { machine with prompt := some rest } question answer)

def carryOut (machine : Machine) : Effect → Outcome
  | .write stores => .idle (machine.withRegisters (machine.registers.storeAll stores))
  | .report lines => .writing machine lines
  | .ask question => machine.ask question

/-- Carries out an operation, or writes a line about its fault. -/
def perform (machine : Machine) (operation : Operation) (operands : Operands) : Outcome :=
  match operation.action.effect machine.registers operands with
  | .ok effect => machine.carryOut effect
  | .error fault => .writing machine [.fault fault]

/-- Executes the low 32 bits of an integer as an instruction word. -/
def step (machine : Machine) (word : Int) : Outcome :=
  let fields := Fields.ofWord word
  match Operation.ofCode? fields.opcode with
  | some operation =>
      .after (.logged (.executing operation fields.operands))
        (machine.perform operation fields.operands)
  | none => .writing machine [.unknownOpcode fields.opcode]

def steps (machine : Machine) : List Int → Outcome
  | [] => .idle machine
  | word :: words => (machine.step word).andThen fun machine => machine.steps words

/-- The words of two lists one after the other are executed list by list, by induction on the first
list. -/
theorem steps_append (machine : Machine) (first second : List Int)
    : machine.steps (first ++ second)
      = (machine.steps first).andThen fun machine => machine.steps second := by
  induction first generalizing machine with
  | nil => simp [steps]
  | cons word words ih => simp only [List.cons_append, steps, ih, Outcome.andThen_assoc]

/-- Writes a line about a partial word at the end of an image. -/
def reportTruncation (image : Image) (machine : Machine) : Outcome :=
  match image.truncation? with
  | some truncation => .writing machine [.truncated truncation]
  | none => .idle machine

/-- Executes an image from the current registers. -/
def execute (machine : Machine) (image : Image) : Outcome :=
  (machine.steps image.words).andThen (reportTruncation image)

def logContents (machine : Machine) : Outcome :=
  .after (.logged (.contents machine.registers)) (.idle machine)

/-- Executes an image from cleared registers, and logs what they hold at the end. -/
def run (machine : Machine) (image : Image) : Outcome :=
  ((machine.withRegisters machine.registers.clear).execute image).andThen logContents

end Machine

end RegisterMachine
