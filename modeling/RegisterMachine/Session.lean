import RegisterMachine.Assembly.Source
import RegisterMachine.Machine

/-! Sessions: one machine that takes commands of several kinds, one after the other.
The machine also keeps the lines written since it last began to execute an image.
-/

namespace RegisterMachine

open Assembly

/-- The stages of compiling and running a source text. -/
inductive Stage where
  | compiling
  | executing
  deriving DecidableEq, Repr

def Stage.notice : Stage → String
  | .compiling => "Compiling..."
  | .executing => "Executing..."

namespace Outcome

/-- Something is logged before all else. -/
def afterLog (log : List LogRecord) (outcome : Outcome) : Outcome :=
  { outcome with events := log.map .logged ++ outcome.events }

/-- Something is logged after all else. -/
def thenLog (outcome : Outcome) (record : LogRecord) : Outcome :=
  { outcome with events := outcome.events ++ [.logged record] }

end Outcome

/-- A machine in use. -/
structure Session where
  machine : Machine
  output : List Line

/-- A program given as an image or as a source text. -/
inductive Program where
  | image (image : Image)
  | source (source : String)

/-- The image of a program. -/
def Program.load : Program → Logged AssemblyFailure Image
  | .image bytes => .value bytes
  | .source text => assemble text

inductive Command where
  | get (index : Int)
  | set (index value : Int)
  | clear
  /-- Logs the contents of the registers. -/
  | dump
  | size
  /-- Executes one word. -/
  | word (word : Int)
  /-- Assembles one source line and executes its word. -/
  | line (text : String)
  /-- Executes a program from the current registers. -/
  | execute (program : Program)
  /-- Runs a program from cleared registers. -/
  | run (program : Program)
  /-- Runs a program on a full machine of its own, which only shares the prompt. -/
  | runFresh (program : Program)
  /-- Compiles and runs a source text. -/
  | runSource (source : String)

/-- Why a command was not carried out, or not to its end. -/
inductive CommandError where
  | index (error : IndexOutOfRange)
  | instruction (error : InstructionError)
  | assembly (failure : AssemblyFailure)
  | prompt (failure : PromptFailure)

inductive Reply where
  | done
  | value (value : Int)
  | lines (lines : List Line)
  | text (text : String)

/-- What came of compiling and running a source text: the stages that were entered, the run, and
its single text, unless something else than a source text that is not accepted got in the way. -/
structure SourceRun where
  stages : List Stage
  outcome : Outcome
  text : Except CommandError String

namespace SourceRun

/-- The text that reports a source text that was not accepted. -/
def errorText (message : String) : String :=
  "Error: " ++ message

/-- The run of an assembled source text. A prompt that fails like the assembler is reported as the
assembler is. -/
def ofRun (outcome : Outcome) : SourceRun :=
  match outcome.escaped with
  | none => ⟨[.compiling, .executing], outcome, .ok outcome.text⟩
  | some ⟨.assembly lineNumber, message⟩ =>
      ⟨[.compiling, .executing], outcome.thenLog (.compilationFailed lineNumber),
        .ok (errorText message)⟩
  | some failure => ⟨[.compiling, .executing], outcome, .error (.prompt failure)⟩

variable {outcome : Outcome} {failure : PromptFailure}

theorem ofRun_of_whole (whole : outcome.escaped = none)
    : ofRun outcome = ⟨[.compiling, .executing], outcome, .ok outcome.text⟩ := by
  simp only [ofRun, whole]

theorem ofRun_of_assembly {lineNumber : Nat} {message : String}
    (cut : outcome.escaped = some ⟨.assembly lineNumber, message⟩)
    : ofRun outcome
      = ⟨[.compiling, .executing], outcome.thenLog (.compilationFailed lineNumber),
          .ok (errorText message)⟩ := by
  simp only [ofRun, cut]

theorem ofRun_of_failure (cut : outcome.escaped = some failure)
    (foreign : ∀ lineNumber, failure.kind ≠ .assembly lineNumber)
    : ofRun outcome = ⟨[.compiling, .executing], outcome, .error (.prompt failure)⟩ := by
  obtain ⟨kind, message⟩ := failure
  cases kind with
  | assembly lineNumber => exact (foreign lineNumber rfl).elim
  | badValue | arithmetic | badIndex | other => simp only [ofRun, cut]

/-- However a run ends, it leaves the machine as it was then. -/
theorem machine_ofRun (outcome : Outcome)
    : (ofRun outcome).outcome.machine = outcome.machine := by
  unfold ofRun
  split <;> rfl

end SourceRun

/-- Clears the registers, assembles a source text, and runs its image if there is one. -/
def Machine.runSource (machine : Machine) (source : String) : SourceRun :=
  let cleared := machine.withRegisters machine.registers.clear
  let assembly := assemble source
  let idle := (Outcome.idle cleared).afterLog assembly.log
  match assembly.result with
  | .ok image => .ofRun ((cleared.run image).afterLog assembly.log)
  | .error (.rejected error) =>
      ⟨[.compiling], idle.thenLog (.compilationFailed error.lineNumber),
        .ok (SourceRun.errorText error.message)⟩
  | .error (.unconverted error) =>
      ⟨[.compiling], idle, .error (.assembly (.unconverted error))⟩

/-- The session after a command, what was seen on the way, the stages that were entered, and the
answer. -/
structure Response where
  session : Session
  events : List Event
  stages : List Stage
  answer : Except CommandError Reply

namespace Session

/-- A session with a register file of some size. -/
def start (size : Int) (prompt : Prompt) : Session :=
  ⟨⟨.zeros size, prompt⟩, []⟩

def withRegisters (session : Session) (registers : Registers) : Session :=
  { session with machine := session.machine.withRegisters registers }

def reply (session : Session) (reply : Reply) : Response :=
  ⟨session, [], [], .ok reply⟩

def refuse (session : Session) (log : List LogRecord) (error : CommandError) : Response :=
  ⟨session, log.map .logged, [], .error error⟩

/-- The answer to a run: the failure that cut it short, or a reply. -/
def answer (outcome : Outcome) (reply : Reply) : Except CommandError Reply :=
  match outcome.escaped with
  | some failure => .error (.prompt failure)
  | none => .ok reply

/-- Executes a word and answers with the lines that it wrote; they join those already there. -/
def word (session : Session) (log : List LogRecord) (word : Int) : Response :=
  let outcome := (session.machine.step word).afterLog log
  { session := ⟨outcome.machine, session.output ++ outcome.lines⟩
    events := outcome.events
    stages := []
    answer := answer outcome (.lines outcome.lines) }

/-- Executes an image. The lines that it writes take the place of those already there. -/
def execute (session : Session) (log : List LogRecord) (image : Image) : Response :=
  let outcome := (session.machine.execute image).afterLog log
  { session := ⟨outcome.machine, outcome.lines⟩
    events := outcome.events
    stages := []
    answer := answer outcome (.text outcome.text) }

/-- Runs an image from cleared registers. The run has lines of its own. -/
def run (session : Session) (log : List LogRecord) (image : Image) : Response :=
  let outcome := (session.machine.run image).afterLog log
  { session := { session with machine := outcome.machine }
    events := outcome.events
    stages := []
    answer := answer outcome (.text outcome.text) }

/-- Runs an image on a full machine of its own; only the answers that it took are gone. -/
def runFresh (session : Session) (log : List LogRecord) (image : Image) : Response :=
  let outcome := ((session.machine.withRegisters .full).run image).afterLog log
  { session := { session with machine := outcome.machine.withRegisters session.machine.registers }
    events := outcome.events
    stages := []
    answer := answer outcome (.text outcome.text) }

def runSource (session : Session) (source : String) : Response :=
  let sourceRun := session.machine.runSource source
  { session := { session with machine := sourceRun.outcome.machine }
    events := sourceRun.outcome.events
    stages := sourceRun.stages
    answer := sourceRun.text.map .text }

/-- Goes on with the image of a program, if it has one. -/
def withImage (session : Session) (program : Program)
    (next : Session → List LogRecord → Image → Response) : Response :=
  let loaded := program.load
  match loaded.result with
  | .ok image => next session loaded.log image
  | .error error => session.refuse loaded.log (.assembly error)

def perform (session : Session) : Command → Response
  | .get index =>
      match session.machine.registers.get index with
      | .ok value => session.reply (.value value)
      | .error error => session.refuse [] (.index error)
  | .set index value =>
      match session.machine.registers.set index value with
      | .ok registers => (session.withRegisters registers).reply .done
      | .error error => session.refuse [] (.index error)
  | .clear => (session.withRegisters session.machine.registers.clear).reply .done
  | .dump => ⟨session, [.logged (.contents session.machine.registers)], [], .ok .done⟩
  | .size => session.reply (.value session.machine.registers.size)
  | .word word => session.word [] word
  | .line text =>
      match issueLine text with
      | .ok issue => session.word [issue.record] issue.word
      | .error error => session.refuse [] (.instruction error)
  | .execute program => session.withImage program execute
  | .run program => session.withImage program run
  | .runFresh program => session.withImage program runFresh
  | .runSource source => session.runSource source

/-- Carries out commands in order and collects the responses. -/
def performAll (session : Session) : List Command → List Response
  | [] => []
  | command :: commands =>
      let response := session.perform command
      response :: response.session.performAll commands

end Session

end RegisterMachine
