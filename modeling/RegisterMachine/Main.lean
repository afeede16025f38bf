import RegisterMachine.CommandLine.Assemble
import RegisterMachine.CommandLine.Run

/-! The program: finds the files that a command looks at, and carries out what it leaves behind.
The first argument names the command.
-/

namespace RegisterMachine.Main

open CommandLine

def usage : String :=
  "usage: assemble [-v] [-l DIR] [SOURCES...] IMAGE\n"
    ++ "       run-image [-v] [--no-input] IMAGE\n"
    ++ "       run-source [-v] [--no-input] SOURCE\n"

/-- Adds the files at paths to a tree, as far as they can be read. -/
def load (tree : FileTree) (paths : List Path) : IO FileTree :=
  paths.foldlM (fun tree path => do
    match ← (IO.FS.readBinFile path.text).toBaseIO with
    | .ok bytes => return tree.put (FileTree.placeOf path.steps) bytes.data.toList
    | .error _ => return tree) tree

/-- The rest of the standard input. -/
partial def readInput (stream : IO.FS.Stream) (text : String) : IO String := do
  let line ← stream.getLine
  if line.isEmpty then return text else readInput stream (text ++ line)

/-- Shows what a command leaves behind, and gives its exit code. -/
def finish (ending : Ending) : IO UInt32 := do
  match ending with
  | .helped _ => (← IO.getStdout).putStr usage
  | .usageError _ => (← IO.getStderr).putStr usage
  | .raised failure _ => (← IO.getStderr).putStr (failure.message ++ "\n")
  | .finished report =>
      (← IO.getStderr).putStr report.errors
      (← IO.getStdout).putStr report.output
  return UInt32.ofNat ending.exitCode

/-- Writes a file and the directories above it. -/
def store (path : Path) (contents : List UInt8) : IO Unit := do
  IO.FS.createDirAll path.parent.text
  IO.FS.writeBinFile path.text ⟨contents.toArray⟩

def assemble (arguments : List String) : IO UInt32 := do
  match AssembleOptions.ofArguments? arguments with
  | none => finish (refuseArguments assembleOptions ⟨arguments, .empty, ""⟩)
  | some options =>
      let files ← load .empty (options.wanted .empty)
      let files ← load files (options.wanted files)
      let ending := assembleWith options files
      match ending with
      | .finished report =>
          if report.exitCode = exitSuccess then
            match report.files.read options.image with
            | .ok contents => store options.image contents
            | .error _ => pure ()
      | _ => pure ()
      finish ending

/-- Carries out a command that runs the program at a path. The input is only read if a question is
put. -/
def runWith (program : Path) (command : FileTree → String → Ending) : IO UInt32 := do
  let files ← load .empty [program]
  match command files "" with
  | .finished report =>
      if report.questions = [] then
        finish (.finished report)
      else
        finish (command files (← readInput (← IO.getStdin) ""))
  | ending => finish ending

def runImage (arguments : List String) : IO UInt32 :=
  match ImageOptions.ofArguments? arguments with
  | none => finish (refuseArguments runOptions ⟨arguments, .empty, ""⟩)
  | some options => runWith options.image (runImageWith options)

def runSource (arguments : List String) : IO UInt32 :=
  match SourceOptions.ofArguments? arguments with
  | none => finish (refuseArguments runOptions ⟨arguments, .empty, ""⟩)
  | some options => runWith options.source (runSourceWith options)

/-- Carries out the command with a name. -/
def dispatch : List String → IO UInt32
  | "assemble" :: arguments => assemble arguments
  | "run-image" :: arguments => runImage arguments
  | "run-source" :: arguments => runSource arguments
  | _ => finish (.usageError .empty)

end RegisterMachine.Main

def main (arguments : List String) : IO UInt32 :=
  RegisterMachine.Main.dispatch arguments
