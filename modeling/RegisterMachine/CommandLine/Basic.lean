import RegisterMachine.CommandLine.Arguments
import RegisterMachine.CommandLine.Console
import RegisterMachine.Source.Collection

/-! What a command is given and how it ends. -/

namespace RegisterMachine

/-- The surroundings of a command: its arguments, the files it finds, and its standard input. Input
that is no text in UTF-8 is left out. -/
structure Invocation where
  arguments : List String
  files : FileTree
  input : String

/-- What a command leaves behind: its exit code, the files as they are then, the texts on its two
output streams, and the questions that it put. A blank that the console puts on the standard output
behind a question is not part of the output, and a trace is not part of the errors. -/
structure Report where
  exitCode : Nat
  files : FileTree
  output : String
  errors : String
  questions : List Question

/-- Why a command broke off. -/
inductive CommandFailure where
  /-- The sources could not be read. -/
  | source (error : SourceError)
  /-- A number in a source text was too long to be converted. -/
  | conversion (error : ConversionError)
  /-- The image could not be written. -/
  | writing (error : FileError)
  /-- The console failed to put a question. -/
  | prompt (failure : PromptFailure)

def CommandFailure.message : CommandFailure → String
  | .source error => error.message
  | .conversion error => error.message
  | .writing error => error.message
  | .prompt failure => failure.message

/-- How a command ends, with the files as it leaves them. -/
inductive Ending where
  /-- Help was asked for. -/
  | helped (files : FileTree)
  /-- The arguments were not accepted. -/
  | usageError (files : FileTree)
  /-- A failure that the command does not expect. -/
  | raised (failure : CommandFailure) (files : FileTree)
  | finished (report : Report)

namespace CommandLine

def exitSuccess : Nat := 0

/-- The exit code after sources that were not accepted, and after a failure that is not expected. -/
def exitRefused : Nat := 1

def exitUsage : Nat := 2

/-- The exit code of a run that could not be carried out. -/
def exitHalted : Nat := 100

def verboseOption : OptionSpec :=
  ⟨"verbose", some 'v', false⟩

def noInputOption : OptionSpec :=
  ⟨"no-input", none, false⟩

def libraryOption : OptionSpec :=
  ⟨"library", some 'l', true⟩

def helpOption : OptionSpec :=
  ⟨"help", none, false⟩

/-- Help is asked for in arguments that are acceptable otherwise; what is missing does not
matter. -/
def asksForHelp (specs : List OptionSpec) (arguments : List String) : Bool :=
  (Arguments.parse? specs arguments).any fun parsed => parsed.has helpOption.name

/-- The ending of a command whose arguments give it nothing to do. -/
def refuseArguments (specs : List OptionSpec) (invocation : Invocation) : Ending :=
  if asksForHelp specs invocation.arguments then
    .helped invocation.files
  else
    .usageError invocation.files

/-- The log line about a source unit that was not accepted. -/
def assemblyErrorLine (unit : String) (error : Assembly.AssemblyError) : String :=
  Console.logLine .error (unit ++ ":" ++ decimal error.lineNumber ++ ": " ++ error.message)

end CommandLine

namespace Ending

def exitCode : Ending → Nat
  | .helped _ => CommandLine.exitSuccess
  | .usageError _ => CommandLine.exitUsage
  | .raised _ _ => CommandLine.exitRefused
  | .finished report => report.exitCode

def files : Ending → FileTree
  | .helped files => files
  | .usageError files => files
  | .raised _ files => files
  | .finished report => report.files

end Ending

end RegisterMachine
