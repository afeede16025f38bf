import RegisterMachine.CommandLine.Basic
import RegisterMachine.CommandLine.Settings
import RegisterMachine.Session

/-! The commands that run a program on a full machine: one takes an image file, the other a source
file. They read their flags in different ways and treat failures differently.
-/

namespace RegisterMachine.CommandLine

open Assembly

def runOptions : List OptionSpec :=
  [verboseOption, noInputOption, helpOption]

/-- What a command that runs a program asks of its arguments: they are acceptable, they do not ask
for help, and the program is the only positional. -/
def parseRun? (arguments : List String) : Option (Arguments × Path) := do
  let parsed ← Arguments.parse? runOptions arguments
  guard (!parsed.has helpOption.name)
  match parsed.positionals with
  | [program] => return (parsed, Path.ofString program)
  | _ => none

/-- A full machine whose questions are answered from readings, if it has a prompt at all. -/
def machine (prompt : Prompt) : Machine :=
  ⟨.full, prompt⟩

/-- The answers that readings give. -/
def answersOf (readings : List Reading) : List Answer :=
  readings.map Reading.answer

/-! Running an image file. -/

structure ImageOptions where
  verbose : Bool
  noInput : Bool
  image : Path
  deriving DecidableEq, Repr

def ImageOptions.ofArguments? (arguments : List String) : Option ImageOptions :=
  (parseRun? arguments).map fun (parsed, image) =>
    { verbose := parsed.has verboseOption.name
      noInput := parsed.has noInputOption.name
      image := image }

/-- Without input every question counts as cancelled. -/
def ImageOptions.prompt (options : ImageOptions) (answers : List Answer) : Prompt :=
  if options.noInput then none else some answers

def haltedLine (message : String) : String :=
  Console.logLine .info ("Execution halted on general error " ++ message)

/-- Runs the image file of the options. Any failure halts the run. -/
def runImageWith (options : ImageOptions) (files : FileTree) (input : String) : Ending :=
  let opening := Console.logLine .info "REGVM"
  match files.read options.image with
  | .error error =>
      .finished ⟨exitHalted, files, "", opening ++ haltedLine error.message, []⟩
  | .ok image =>
      let readings := Console.readings input
      let outcome := (machine (options.prompt (answersOf readings))).run image
      let errors := opening ++ Console.eventsText options.verbose readings outcome.events
      match outcome.escaped with
      | none => .finished ⟨exitSuccess, files, outcome.text, errors, outcome.questions⟩
      | some failure =>
          .finished
            ⟨exitHalted, files, "", errors ++ haltedLine failure.message, outcome.questions⟩

def runImageFile (invocation : Invocation) : Ending :=
  match ImageOptions.ofArguments? invocation.arguments with
  | none => refuseArguments runOptions invocation
  | some options => runImageWith options invocation.files invocation.input

/-! Compiling and running a source file. -/

structure SourceOptions where
  settings : RunSettings
  source : Path
  deriving DecidableEq, Repr

/-- The flag that questions are put is on unless it is switched off. -/
def SourceOptions.ofArguments? (arguments : List String) : Option SourceOptions :=
  (parseRun? arguments).map fun (parsed, source) =>
    let interactive := if parsed.has noInputOption.name then false else true
    { settings :=
        RunSettings.initial.update (some (parsed.has verboseOption.name)) (some interactive)
      source := source }

/-- The notice of a stage on a line of its own. -/
def noticeLine (stage : Stage) : String :=
  stage.notice ++ "\n"

/-- Compiles and runs the source file of the options. Only a source text that is not accepted is
expected to fail. -/
def runSourceWith (options : SourceOptions) (files : FileTree) (input : String) : Ending :=
  match files.readText options.source with
  | .error error => .raised (.source error) files
  | .ok source =>
      let assembly := Assembly.assemble source
      let opening := noticeLine .compiling ++ Console.logText options.settings.verbose assembly.log
      match assembly.result with
      | .error (.rejected error) =>
          .finished {
            exitCode := exitRefused
            files := files
            output := ""
            errors := opening ++ assemblyErrorLine options.source.name error
            questions := []
          }
      | .error (.unconverted error) => .raised (.conversion error) files
      | .ok image =>
          let readings := Console.readings input
          let outcome := (machine (options.settings.prompt (answersOf readings))).run image
          let errors := opening ++ noticeLine .executing
            ++ Console.eventsText options.settings.verbose readings outcome.events
          match outcome.escaped with
          | none => .finished ⟨exitSuccess, files, outcome.text, errors, outcome.questions⟩
          | some failure => .raised (.prompt failure) files

def runSourceFile (invocation : Invocation) : Ending :=
  match SourceOptions.ofArguments? invocation.arguments with
  | none => refuseArguments runOptions invocation
  | some options => runSourceWith options invocation.files invocation.input

end RegisterMachine.CommandLine
