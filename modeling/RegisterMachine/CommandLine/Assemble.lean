import RegisterMachine.CommandLine.Basic

/-! The assembler command: source files, and perhaps a library before them, become one image file.
Nothing is written unless all of them are accepted.
-/

namespace RegisterMachine.CommandLine

open Assembly

structure AssembleOptions where
  verbose : Bool
  library : Option Path
  sources : List Path
  image : Path
  deriving DecidableEq, Repr

def assembleOptions : List OptionSpec :=
  [verboseOption, libraryOption, helpOption]

/-- Reads the arguments of the assembler. The last positional is the image. -/
def AssembleOptions.ofArguments? (arguments : List String) : Option AssembleOptions := do
  let parsed ← Arguments.parse? assembleOptions arguments
  guard (!parsed.has helpOption.name)
  let image ← parsed.positionals.getLast?
  return {
    verbose := parsed.has verboseOption.name
    library := (parsed.value? libraryOption.name).map Path.ofString
    sources := parsed.positionals.dropLast.map Path.ofString
    image := Path.ofString image
  }

/-- The files that the assembler looks at, as far as the files known so far tell: the manifest of a
library names further ones. -/
def AssembleOptions.wanted (options : AssembleOptions) (files : FileTree) : List Path :=
  let library := match options.library with
    | none => []
    | some directory =>
        let sources := match files.readLibrary directory with
          | .ok (_, sources) => sources
          | .error _ => []
        FileTree.manifestPath directory
          :: sources.filterMap fun source => (FileTree.sourcePath directory source).toOption
  library ++ options.sources

/-- The source units that the assembler is given, those of the library first. -/
def AssembleOptions.collect (options : AssembleOptions) (files : FileTree)
    : Logged SourceError (List SourceUnit) :=
  let library := match options.library with
    | some directory => files.collectLibrary directory
    | none => .value []
  library.andThen fun units => (files.collectFiles none options.sources).map (units ++ ·)

/-- Assembles the collected units and writes the image. -/
def assembleWith (options : AssembleOptions) (files : FileTree) : Ending :=
  let collection := options.collect files
  match collection.result with
  | .error error => .raised (.source error) files
  | .ok units =>
      let compilation := compileUnits units
      let log := Console.logLine .info "REGVM ASM"
        ++ Console.logText options.verbose (collection.log ++ compilation.log)
      match compilation.result with
      | .error (.rejected error) =>
          .finished {
            exitCode := exitRefused
            files := files
            output := ""
            errors := log ++ assemblyErrorLine (error.unit.getD SourceUnit.defaultName) error
            questions := []
          }
      | .error (.unconverted error) => .raised (.conversion error) files
      | .ok image =>
          match files.write options.image image with
          | .error failed => .raised (.writing failed.error) failed.left
          | .ok files =>
              .finished {
                exitCode := exitSuccess
                files := files
                output := ""
                errors := log ++ Console.logLine .info
                  ("Wrote " ++ decimal image.length ++ " bytes to " ++ options.image.text)
                questions := []
              }

def assemble (invocation : Invocation) : Ending :=
  match AssembleOptions.ofArguments? invocation.arguments with
  | none => refuseArguments assembleOptions invocation
  | some options => assembleWith options invocation.files

end RegisterMachine.CommandLine
