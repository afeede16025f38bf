import RegisterMachine.CommandLine.Assemble
import RegisterMachine.Proofs.Results

/-! Which source files the assembler command collects, and which failure it reports otherwise.
The files are those that the manifest of the library lists, under the name of its package, and then
those of the arguments. A listed file is looked at before the next value of the list is.
-/

namespace RegisterMachine

open Assembly
open FileTree (elements? manifestPath sourcePath unitName)

-----------------------------------------------------------------------------------------
-- Source files
-----------------------------------------------------------------------------------------

/-- A source file to be read, and the name that its unit gets. -/
structure SourceFile where
  path : Path
  name : String

namespace SourceFile

/-- A file that belongs to a package. -/
def inPackage (package : String) (path : Path) : SourceFile :=
  ⟨path, package ++ "." ++ path.stem⟩

/-- A file of its own. -/
def alone (path : Path) : SourceFile :=
  ⟨path, path.stem⟩

/-- The unit in a file. -/
def collect (files : FileTree) (file : SourceFile) : Except SourceError SourceUnit :=
  (files.readText file.path).map fun contents => ⟨contents, file.name⟩

/-- The file holds a text in UTF-8. -/
def Readable (files : FileTree) (file : SourceFile) : Prop :=
  ∃ text, files.readText file.path = .ok text

theorem collect_eq_ok_iff {files : FileTree} {file : SourceFile} {unit : SourceUnit}
    : file.collect files = .ok unit
      ↔ files.readText file.path = .ok unit.contents ∧ unit.name = file.name := by
  rw [collect, map_eq_ok_iff]
  constructor
  · rintro ⟨text, read, rfl⟩
    exact ⟨read, rfl⟩
  · intro h
    obtain ⟨read, named⟩ := h
    exact ⟨unit.contents, read, by rw [← named]⟩

theorem exists_collect_iff {files : FileTree} {file : SourceFile}
    : (∃ unit, file.collect files = .ok unit) ↔ file.Readable files := by
  simp only [collect, map_eq_ok_iff, Readable]
  exact ⟨fun ⟨_, text, read, _⟩ => ⟨text, read⟩, fun ⟨text, read⟩ => ⟨_, text, read, rfl⟩⟩

end SourceFile

-----------------------------------------------------------------------------------------
-- Entries
-----------------------------------------------------------------------------------------

/-- What the command is told to read: a value in the list of a library, or a path of its own. -/
inductive SourceEntry where
  | listed (directory : Path) (library : Toml.Table) (value : Toml.Value)
  | own (path : Path)

namespace SourceEntry

/-- An entry names a file. A listed one is a text; its file stands in the directory of the library
and belongs to the package of the library.
-/
inductive Names : SourceEntry → SourceFile → Prop
  | listed {directory library source package name} (given : library.lookup "package" = some package)
    (shown : package.shown = .ok name)
    : Names (.listed directory library (.text source))
        (.inPackage name (directory.join (.ofString source)))
  | own {path} : Names (.own path) (.alone path)

/-- Why an entry cannot be collected: it names no file, or its file cannot be read. -/
inductive Fails (files : FileTree) : SourceEntry → SourceError → Prop
  | wrongType {directory library value} (other : ∀ source, value ≠ .text source)
    : Fails files (.listed directory library value) .wrongType
  | noPackage {directory library source} (missing : library.lookup "package" = none)
    : Fails files (.listed directory library (.text source)) (.missingKey "package")
  | unwritten {directory library source package error}
    (given : library.lookup "package" = some package) (failed : package.shown = .error error)
    : Fails files (.listed directory library (.text source)) (.unconverted error)
  | unreadable {entry : SourceEntry} {file error} (names : entry.Names file)
    (failed : files.readText file.path = .error error)
    : Fails files entry error

/-- The file that an entry names. -/
def file : SourceEntry → Except SourceError SourceFile
  | .own path => .ok (.alone path)
  | .listed directory library value =>
      match sourcePath directory value, library.lookup "package" with
      | .error error, _ => .error error
      | .ok _, none => .error (.missingKey "package")
      | .ok path, some package =>
          (package.shown.map fun name => .inPackage name path).mapError .unconverted

/-- The unit in the file that an entry names. -/
def collect (files : FileTree) (entry : SourceEntry) : Except SourceError SourceUnit :=
  entry.file.bind (SourceFile.collect files)

theorem file_eq_ok_iff {entry : SourceEntry} {file : SourceFile}
    : entry.file = .ok file ↔ entry.Names file := by
  constructor
  · intro h
    cases entry with
    | own path =>
        obtain rfl := Except.ok.inj h
        exact .own
    | listed directory library value =>
        cases value with
        | text source =>
            cases given : library.lookup "package" with
            | none => simp [SourceEntry.file, sourcePath, given] at h
            | some package =>
                simp only [SourceEntry.file, sourcePath, given, mapError_eq_ok_iff,
                  map_eq_ok_iff] at h
                obtain ⟨name, shown, rfl⟩ := h
                exact .listed given shown
        | _ => simp [SourceEntry.file, sourcePath] at h
  · intro h
    cases h with
    | listed given shown => simp only [SourceEntry.file, sourcePath, given, shown]; rfl
    | own => rfl

theorem collect_eq_ok_iff {files : FileTree} {entry : SourceEntry} {unit : SourceUnit}
    : entry.collect files = .ok unit
      ↔ ∃ file, entry.Names file ∧ file.collect files = .ok unit := by
  rw [collect]
  simp only [← file_eq_ok_iff]
  exact bind_eq_ok_iff

/-- An entry fails to be collected exactly for these reasons, by cases on its value. -/
theorem collect_eq_error_iff {files : FileTree} {entry : SourceEntry} {error : SourceError}
    : entry.collect files = .error error ↔ entry.Fails files error := by
  constructor
  · intro h
    rcases bind_eq_error_iff.mp h with unnamed | ⟨file, named, failed⟩
    · cases entry with
      | own path => cases unnamed
      | listed directory library value =>
          cases value with
          | text source =>
              cases given : library.lookup "package" with
              | none =>
                  simp only [file, sourcePath, given, Except.error.injEq] at unnamed
                  subst unnamed
                  exact .noPackage given
              | some package =>
                  simp only [file, sourcePath, given, mapError_eq_error_iff,
                    map_eq_error_iff] at unnamed
                  obtain ⟨cause, failed, rfl⟩ := unnamed
                  exact .unwritten given failed
          | _ =>
              obtain rfl := Except.error.inj unnamed
              exact .wrongType nofun
    · exact .unreadable (file_eq_ok_iff.mp named) (map_eq_error_iff.mp failed)
  · intro h
    rw [collect]
    cases h with
    | @wrongType directory library value other =>
        cases value with
        | text source => exact (other source rfl).elim
        | _ => rfl
    | noPackage missing => simp only [file, sourcePath, missing]; rfl
    | unwritten given failed => simp only [file, sourcePath, given, failed]; rfl
    | unreadable names failed =>
        exact bind_eq_error_iff.mpr
          (Or.inr ⟨_, file_eq_ok_iff.mpr names, map_eq_error_iff.mpr failed⟩)

end SourceEntry

/-- Files are collected one after the other up to the first that cannot be read, by induction on
their paths.
-/
theorem result_collectFiles (files : FileTree) (paths : List Path)
    : (files.collectFiles none paths).result
      = (paths.map SourceEntry.own).mapM (SourceEntry.collect files) := by
  induction paths with
  | nil => rfl
  | cons path paths ih =>
      rw [FileTree.collectFiles, List.map_cons, List.mapM_cons, Logged.result_andThen]
      simp only [Logged.result_map, ih]
      cases files.readText path <;> rfl

/-- The values in the list of a library are collected one after the other, by induction on them. -/
theorem result_collectSources (files : FileTree) (directory : Path) (library : Toml.Table)
    (values : List Toml.Value)
    : (files.collectSources directory library values).result
      = (values.map (SourceEntry.listed directory library)).mapM (SourceEntry.collect files) := by
  induction values with
  | nil => rfl
  | cons value values ih =>
      rw [FileTree.collectSources, List.map_cons, List.mapM_cons, SourceEntry.collect,
        SourceEntry.file]
      cases sourcePath directory value with
      | error error => rfl
      | ok path =>
          cases library.lookup "package" with
          | none => rfl
          | some package =>
              simp only [Logged.result_andThen, Logged.result_map, ih, FileTree.collectFile,
                unitName]
              cases package.shown <;> rfl

-----------------------------------------------------------------------------------------
-- Libraries
-----------------------------------------------------------------------------------------

/-- The manifest of a library directory is a document with these values. -/
def HasManifest (files : FileTree) (directory : Path) (manifest : Toml.Table) : Prop :=
  ∃ text, files.readText (manifestPath directory) = .ok text ∧ Toml.read text = .ok manifest

/-- A library directory declares a table with a list of sources. -/
structure Declares (files : FileTree) (directory : Path) (library : Toml.Table)
    (values : List Toml.Value)
    : Prop where
  table
    : ∃ manifest,
        HasManifest files directory manifest ∧ manifest.lookup "library" = some (.table library)
  list : ∃ list, library.lookup "sources" = some list ∧ elements? list = some values

/-- What can be wrong with the manifest of a library. -/
inductive ManifestFault (files : FileTree) (directory : Path) : SourceError → Prop
  | unreadable {error} (failed : files.readText (manifestPath directory) = .error error)
    : ManifestFault files directory error
  | undecodable {text cause} (read : files.readText (manifestPath directory) = .ok text)
    (bad : Toml.read text = .error cause)
    : ManifestFault files directory (.ofDecodeError cause)
  | noTable {manifest} (parsed : HasManifest files directory manifest)
    (missing : manifest.lookup "library" = none)
    : ManifestFault files directory (.missingKey "library")
  | notTable {manifest value} (parsed : HasManifest files directory manifest)
    (found : manifest.lookup "library" = some value) (other : ∀ table, value ≠ .table table)
    : ManifestFault files directory .wrongType
  | noSources {manifest library} (parsed : HasManifest files directory manifest)
    (found : manifest.lookup "library" = some (.table library))
    (missing : library.lookup "sources" = none)
    : ManifestFault files directory (.missingKey "sources")
  | notList {manifest library value} (parsed : HasManifest files directory manifest)
    (found : manifest.lookup "library" = some (.table library))
    (listed : library.lookup "sources" = some value) (other : elements? value = none)
    : ManifestFault files directory .wrongType

variable {files : FileTree} {directory : Path}

theorem HasManifest.readLibrary {manifest : Toml.Table} (h : HasManifest files directory manifest)
    : files.readLibrary directory = FileTree.libraryOf manifest := by
  obtain ⟨text, read, parsed⟩ := h
  simp only [FileTree.readLibrary, read, parsed, bind, Except.bind, Except.mapError]

theorem Declares.readLibrary {library : Toml.Table} {values : List Toml.Value}
    (h : Declares files directory library values)
    : files.readLibrary directory = .ok (library, values) := by
  obtain ⟨⟨manifest, parsed, table⟩, list, listed, elements⟩ := h
  simp only [parsed.readLibrary, FileTree.libraryOf, table, listed, elements]

theorem ManifestFault.readLibrary {error : SourceError} (h : ManifestFault files directory error)
    : files.readLibrary directory = .error error := by
  cases h with
  | unreadable failed => simp only [FileTree.readLibrary, failed, bind, Except.bind]
  | undecodable read bad =>
      simp only [FileTree.readLibrary, read, bad, bind, Except.bind, Except.mapError]
  | noTable parsed missing => simp only [parsed.readLibrary, FileTree.libraryOf, missing]
  | notTable parsed found other => simp only [parsed.readLibrary, FileTree.libraryOf, found]
  | noSources parsed found missing =>
      simp only [parsed.readLibrary, FileTree.libraryOf, found, missing]
  | notList parsed found listed other =>
      simp only [parsed.readLibrary, FileTree.libraryOf, found, listed, other]

/-- A library declares its sources, or there is a fault in its manifest. -/
theorem declares_or_fault (files : FileTree) (directory : Path)
    : (∃ library values, Declares files directory library values)
      ∨ ∃ error, ManifestFault files directory error := by
  cases read : files.readText (manifestPath directory) with
  | error error => exact Or.inr ⟨_, .unreadable read⟩
  | ok text =>
      cases parsed : Toml.read text with
      | error cause => exact Or.inr ⟨_, .undecodable read parsed⟩
      | ok manifest =>
          have parsed : HasManifest files directory manifest := ⟨text, read, parsed⟩
          cases found : manifest.lookup "library" with
          | none => exact Or.inr ⟨_, .noTable parsed found⟩
          | some value =>
              cases value with
              | table library =>
                  cases listed : library.lookup "sources" with
                  | none => exact Or.inr ⟨_, .noSources parsed found listed⟩
                  | some list =>
                      cases elements : elements? list with
                      | none => exact Or.inr ⟨_, .notList parsed found listed elements⟩
                      | some values =>
                          exact Or.inl ⟨_, _, ⟨_, parsed, found⟩, _, listed, elements⟩
              | _ => exact Or.inr ⟨_, .notTable parsed found nofun⟩

-----------------------------------------------------------------------------------------
-- The command
-----------------------------------------------------------------------------------------

namespace CommandLine

variable {options : AssembleOptions}

/-- What the command is told to read, in its order: the list of the library before the arguments. -/
inductive Entries (files : FileTree) (options : AssembleOptions) : List SourceEntry → Prop
  | alone (none : options.library = none) : Entries files options (options.sources.map .own)
  | library {directory library values} (given : options.library = some directory)
    (declares : Declares files directory library values)
    : Entries files options
        (values.map (.listed directory library) ++ options.sources.map .own)

/-- The source files of the command in their order. -/
def Names (files : FileTree) (options : AssembleOptions) (sources : List SourceFile) : Prop :=
  ∃ entries, Entries files options entries ∧ List.Forall₂ SourceEntry.Names entries sources

/-- Why the sources of the assembler command cannot be collected. There is a fault in the manifest
of the library, or some entry is the first that cannot be collected.
-/
inductive Uncollected (files : FileTree) (options : AssembleOptions) : SourceError → Prop
  | manifest {directory error} (given : options.library = some directory)
    (fault : ManifestFault files directory error)
    : Uncollected files options error
  | entry {before entry after error} (entries : Entries files options (before ++ entry :: after))
    (earlier : ∀ other ∈ before, ∃ file, other.Names file ∧ file.Readable files)
    (fails : entry.Fails files error)
    : Uncollected files options error

/-- The list of the library is collected before the arguments. -/
theorem result_collect {entries : List SourceEntry} (h : Entries files options entries)
    : (options.collect files).result = entries.mapM (SourceEntry.collect files) := by
  have own := result_collectFiles files options.sources
  rw [AssembleOptions.collect, Logged.result_andThen]
  cases h with
  | alone none =>
      simp only [none, Logged.result_value, Logged.result_map, Except.bind, own]
      cases (options.sources.map SourceEntry.own).mapM (SourceEntry.collect files) <;> rfl
  | @library directory library values given declares =>
      rw [given, List.mapM_append]
      simp only [FileTree.collectLibrary, Logged.result_andThen, Logged.result_ofExcept,
        declares.readLibrary, Except.bind, result_collectSources, Logged.result_map,
        own]
      rfl

theorem result_collect_of_fault {error : SourceError} (given : options.library = some directory)
    (fault : ManifestFault files directory error)
    : (options.collect files).result = .error error := by
  simp only [AssembleOptions.collect, given, Logged.result_andThen, FileTree.collectLibrary,
    Logged.result_ofExcept, fault.readLibrary, Except.bind]

/-- The command is told what to read, or there is a fault in the manifest. -/
theorem entries_or_fault (files : FileTree) (options : AssembleOptions)
    : (∃ entries, Entries files options entries)
      ∨ ∃ directory error,
          options.library = some directory ∧ ManifestFault files directory error := by
  cases given : options.library with
  | none => exact Or.inl ⟨_, .alone given⟩
  | some directory =>
      rcases declares_or_fault files directory with ⟨_, _, declares⟩ | ⟨error, fault⟩
      · exact Or.inl ⟨_, .library given declares⟩
      · exact Or.inr ⟨directory, error, rfl, fault⟩

theorem exists_collect_iff {entry : SourceEntry}
    : (∃ unit, entry.collect files = .ok unit)
      ↔ ∃ file, entry.Names file ∧ file.Readable files := by
  simp only [SourceEntry.collect_eq_ok_iff, ← SourceFile.exists_collect_iff]
  exact ⟨fun ⟨unit, file, h⟩ => ⟨file, h.1, unit, h.2⟩,
    fun ⟨file, names, unit, h⟩ => ⟨unit, file, names, h⟩⟩

/-- Collecting fails exactly for these reasons. -/
theorem result_collect_eq_error_iff {error : SourceError}
    : (options.collect files).result = .error error ↔ Uncollected files options error := by
  constructor
  · intro h
    rcases entries_or_fault files options with ⟨_, entries⟩ | ⟨directory, _, given, fault⟩
    · rw [result_collect entries, mapM_eq_error_iff] at h
      obtain ⟨before, entry, after, rfl, collected, failed⟩ := h
      refine .entry entries (fun other member => ?_) (SourceEntry.collect_eq_error_iff.mp failed)
      exact exists_collect_iff.mp (collected other member)
    · obtain rfl := Except.error.inj ((result_collect_of_fault given fault).symm.trans h)
      exact .manifest given fault
  · intro h
    cases h with
    | manifest given fault => exact result_collect_of_fault given fault
    | entry entries earlier fails =>
        rw [result_collect entries, mapM_eq_error_iff]
        refine ⟨_, _, _, rfl, fun other member => ?_, SourceEntry.collect_eq_error_iff.mpr fails⟩
        exact exists_collect_iff.mpr (earlier other member)

/-- What is collected are the units in the source files. -/
theorem result_collect_eq_ok_iff {units : List SourceUnit}
    : (options.collect files).result = .ok units
      ↔ ∃ sources,
          Names files options sources
          ∧ List.Forall₂ (fun file unit => file.collect files = .ok unit) sources units := by
  constructor
  · intro h
    rcases entries_or_fault files options with ⟨entries, known⟩ | ⟨directory, _, given, fault⟩
    · rw [result_collect known, mapM_eq_ok_iff] at h
      simp only [SourceEntry.collect_eq_ok_iff, forall₂_comp_iff] at h
      obtain ⟨sources, named, collected⟩ := h
      exact ⟨sources, ⟨entries, known, named⟩, collected⟩
    · cases (result_collect_of_fault given fault).symm.trans h
  · intro h
    obtain ⟨sources, ⟨entries, known, named⟩, collected⟩ := h
    rw [result_collect known, mapM_eq_ok_iff]
    simp only [SourceEntry.collect_eq_ok_iff, forall₂_comp_iff]
    exact ⟨sources, named, collected⟩

end CommandLine

end RegisterMachine
