import RegisterMachine.Assembly.Source
import RegisterMachine.Log
import RegisterMachine.Source.FileTree
import RegisterMachine.Text.Lines
import RegisterMachine.Toml.Document

/-! Collecting source units from files.
A single file is a unit named after it. A library is a directory with a manifest that lists its
source files and names the package that they belong to.
-/

namespace RegisterMachine

open Assembly

/-- Why sources could not be collected. -/
inductive SourceError where
  /-- There is no file to read. -/
  | file (error : FileError)
  /-- The file is no text in UTF-8. -/
  | invalidEncoding (path : Path)
  /-- The manifest of a library cannot be read. -/
  | malformedManifest
  /-- The manifest of a library lacks a table or a value. -/
  | missingKey (key : String)
  /-- A value of the manifest is not of the kind that its use asks for. -/
  | wrongType
  /-- An integer of the manifest is too long to be read, or to be written in a name. -/
  | unconverted (error : ConversionError)
  deriving DecidableEq, Repr

/-- The wording of each cause, as far as it is the program's own; the others are only sketched. -/
def SourceError.message : SourceError → String
  | .file error => error.message
  | .invalidEncoding path => "Not a text in UTF-8: " ++ path.text
  | .malformedManifest => "Malformed library manifest"
  | .missingKey key => Toml.quotedText key
  | .wrongType => "Wrong kind of value in the library manifest"
  | .unconverted error => error.message

/-- The failure of a library whose manifest cannot be decoded. -/
def SourceError.ofDecodeError : Toml.DecodeError → SourceError
  | .malformed => .malformedManifest
  | .unconverted error => .unconverted error

namespace FileTree

/-- The text of a file, with all its newlines as line feeds. -/
def readText (tree : FileTree) (path : Path) : Except SourceError String :=
  match tree.read path with
  | .error error => .error (.file error)
  | .ok bytes =>
      match Text.decodeUtf8? bytes with
      | none => .error (.invalidEncoding path)
      | some text => .ok (String.ofList (Text.unifyNewlines text.toList))

/-- The name of the unit in a file: the stem of the file, after the name of its package. Any value
of a manifest can name a package. -/
def unitName (path : Path) (package : Option Toml.Value) : Except ConversionError String :=
  match package with
  | none => .ok path.stem
  | some package => package.shown.map fun package => package ++ "." ++ path.stem

def collectFile (tree : FileTree) (path : Path) (package : Option Toml.Value)
    : Logged SourceError SourceUnit :=
  .after (.collecting path.text) <|
    .ofExcept <|
      match unitName path package with
      | .error error => .error (.unconverted error)
      | .ok name => (tree.readText path).map fun contents => ⟨contents, name⟩

/-- The source units in files, in the given order. -/
def collectFiles (tree : FileTree) (package : Option Toml.Value)
    : List Path → Logged SourceError (List SourceUnit)
  | [] => .value []
  | path :: paths =>
      (tree.collectFile path package).andThen fun unit =>
        (tree.collectFiles package paths).map (unit :: ·)

def manifestPath (directory : Path) : Path :=
  directory.join (.ofString "library.toml")

/-- The values that a value is made of, as far as it is made of values: the characters of a text,
the elements of an array, the names of a table. -/
def elements? : Toml.Value → Option (List Toml.Value)
  | .text text => some (text.toList.map fun c => .text c.toString)
  | .array elements => some elements
  | .table entries => some (entries.map fun entry => .text entry.1)
  | _ => none

/-- The library that the values of a manifest declare: its table, and the values that name its
sources. -/
def libraryOf (manifest : Toml.Table) : Except SourceError (Toml.Table × List Toml.Value) :=
  match manifest.lookup "library" with
  | none => .error (.missingKey "library")
  | some (.table library) =>
      match library.lookup "sources" with
      | none => .error (.missingKey "sources")
      | some sources =>
          match elements? sources with
          | some sources => .ok (library, sources)
          | none => .error .wrongType
  | some _ => .error .wrongType

/-- The library in a directory. -/
def readLibrary (tree : FileTree) (directory : Path)
    : Except SourceError (Toml.Table × List Toml.Value) := do
  let text ← tree.readText (manifestPath directory)
  let manifest ← (Toml.read text).mapError .ofDecodeError
  libraryOf manifest

/-- The path of a source of a library. -/
def sourcePath (directory : Path) : Toml.Value → Except SourceError Path
  | .text source => .ok (directory.join (.ofString source))
  | _ => .error .wrongType

/-- Collects the sources of a library one after the other. The name of the package is looked up for
each of them, and so it is not needed when there are none. -/
def collectSources (tree : FileTree) (directory : Path) (library : Toml.Table)
    : List Toml.Value → Logged SourceError (List SourceUnit)
  | [] => .value []
  | source :: sources =>
      match sourcePath directory source, library.lookup "package" with
      | .error error, _ => .ofExcept (.error error)
      | .ok _, none => .ofExcept (.error (.missingKey "package"))
      | .ok path, some package =>
          (tree.collectFile path (some package)).andThen fun unit =>
            (tree.collectSources directory library sources).map (unit :: ·)

/-- The source units of a library, in the order of its manifest. -/
def collectLibrary (tree : FileTree) (directory : Path) : Logged SourceError (List SourceUnit) :=
  (Logged.ofExcept (tree.readLibrary directory)).andThen fun (library, sources) =>
    tree.collectSources directory library sources

end FileTree

end RegisterMachine
