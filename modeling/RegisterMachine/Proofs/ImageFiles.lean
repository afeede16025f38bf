import RegisterMachine.Proofs.CommandArguments
import RegisterMachine.Proofs.JoinedSources
import RegisterMachine.Proofs.Manifests
import RegisterMachine.Proofs.WrittenFiles

/-! The assembler command writes the image of all its sources, or it changes no file.
All sources are collected before any of them is assembled, and all are assembled before anything is
written.
-/

namespace RegisterMachine

open Assembly

/-- The file holds a text in UTF-8 that assembles to an image. -/
def SourceFile.Assembles (files : FileTree) (file : SourceFile) (image : Image) : Prop :=
  ∃ text, files.readText file.path = .ok text ∧ (assemble text).result = .ok image

-----------------------------------------------------------------------------------------
-- Compiling units
-----------------------------------------------------------------------------------------

namespace Assembly

/-- The image of a unit, or the failure under its name. -/
def SourceUnit.compile (unit : SourceUnit) : Except AssemblyFailure Image :=
  (assemble unit.contents).result.mapError (·.inUnit (some unit.name))

/-- The words of a unit are those of its text, and so is the image. -/
theorem SourceUnit.compile_eq (unit : SourceUnit)
    : unit.compile
      = (assembleWords unit.contents (some unit.name)).result.map Image.ofWords := by
  rw [SourceUnit.compile, assemble, Logged.result_map, assembleWords_inUnit _ (some unit.name)]
  cases (assembleWords unit.contents none).result <;> rfl

/-- Compiling units gives their images one after the other, or the failure of the first unit that
does not assemble.
-/
theorem result_compileUnits (units : List SourceUnit)
    : (compileUnits units).result = (units.mapM SourceUnit.compile).map List.flatten := by
  rw [compileUnits, Logged.result_map, result_assembleUnits, funext SourceUnit.compile_eq,
    mapM_map_eq]
  cases units.mapM fun unit => (assembleWords unit.contents (some unit.name)).result with
  | error error => rfl
  | ok parts => exact congrArg Except.ok (Image.ofWords_flatten parts)

/-- Units that are not compiled have a failure under the name of one of them. -/
theorem exists_inUnit_of_compileUnits {units : List SourceUnit} {failure : AssemblyFailure}
    (failed : (compileUnits units).result = .error failure)
    : ∃ name cause, failure = AssemblyFailure.inUnit (some name) cause := by
  rw [result_compileUnits, map_eq_error_iff, mapM_eq_error_iff] at failed
  obtain ⟨_, unit, _, _, _, refused⟩ := failed
  obtain ⟨cause, _, same⟩ := mapError_eq_error_iff.mp refused
  exact ⟨unit.name, cause, same.symm⟩

end Assembly

-----------------------------------------------------------------------------------------
-- The files of the command
-----------------------------------------------------------------------------------------

namespace SourceFile

variable {files : FileTree} {file : SourceFile}

/-- A file that assembles has a unit with this image. -/
theorem assembles_iff {image : Image}
    : file.Assembles files image
      ↔ ∃ unit, file.collect files = .ok unit ∧ unit.compile = .ok image := by
  simp only [SourceUnit.compile, mapError_eq_ok_iff]
  constructor
  · intro h
    obtain ⟨text, read, assembled⟩ := h
    exact ⟨⟨text, file.name⟩, collect_eq_ok_iff.mpr ⟨read, rfl⟩, assembled⟩
  · intro h
    obtain ⟨unit, collected, assembled⟩ := h
    exact ⟨unit.contents, (collect_eq_ok_iff.mp collected).1, assembled⟩

/-- Files that assemble have units with these images. -/
theorem forall₂_assembles_iff {sources : List SourceFile} {images : List Image}
    : List.Forall₂ (Assembles files) sources images
      ↔ ∃ units,
          List.Forall₂ (fun file unit => file.collect files = .ok unit) sources units
          ∧ List.Forall₂ (fun unit image => SourceUnit.compile unit = .ok image) units images := by
  rw [← forall₂_comp_iff, funext₂ fun file image => propext (@assembles_iff files file image)]

end SourceFile

-----------------------------------------------------------------------------------------
-- The command
-----------------------------------------------------------------------------------------

namespace CommandLine

variable {files : FileTree} {options : AssembleOptions} {units : List SourceUnit}

/-- How a command ends after a source that does not assemble: a rejection is reported under the name
of the source, and a conversion that failed is passed on.
-/
def refusal (files : FileTree) (opening name : String) : AssemblyFailure → Ending
  | .rejected error =>
      .finished
        { exitCode := exitRefused
          files := files
          output := ""
          errors := opening ++ assemblyErrorLine name error
          questions := [] }
  | .unconverted error => .raised (.conversion error) files

theorem refusal_fails (files : FileTree) (opening name : String) (failure : AssemblyFailure)
    : (refusal files opening name failure).exitCode = 1
      ∧ (refusal files opening name failure).files = files := by
  cases failure <;> exact ⟨rfl, rfl⟩

theorem assembleWith_of_uncollected {error : SourceError}
    (failed : (options.collect files).result = .error error)
    : assembleWith options files = .raised (.source error) files := by
  simp only [assembleWith, failed]

/-- A unit that does not assemble is reported under its name, and the files stay as they are. -/
theorem assembleWith_of_refused {failure : AssemblyFailure} {name : String}
    (collected : (options.collect files).result = .ok units)
    (refused : (compileUnits units).result = .error (failure.inUnit (some name)))
    : ∃ log, assembleWith options files = refusal files log name failure := by
  cases failure with
  | rejected error =>
      simp only [assembleWith, collected, refused, AssemblyFailure.inUnit]
      exact ⟨_, rfl⟩
  | unconverted error =>
      simp only [assembleWith, collected, refused, AssemblyFailure.inUnit]
      exact ⟨"", rfl⟩

/-- The image of units that assemble is written. -/
theorem assembleWith_of_written {image : Image} {after : FileTree}
    (collected : (options.collect files).result = .ok units)
    (compiled : (compileUnits units).result = .ok image)
    (written : files.write options.image image = .ok after)
    : ∃ errors, assembleWith options files = .finished ⟨exitSuccess, after, "", errors, []⟩ := by
  simp only [assembleWith, collected, compiled, written]
  exact ⟨_, rfl⟩

/-- Sources that assemble have the image of their units. -/
theorem exists_units_of_assembles {sources : List SourceFile} {images : List Image}
    (names : Names files options sources)
    (each : List.Forall₂ (SourceFile.Assembles files) sources images)
    : ∃ units,
        (options.collect files).result = .ok units
        ∧ (compileUnits units).result = .ok images.flatten := by
  obtain ⟨units, collected, compiled⟩ := SourceFile.forall₂_assembles_iff.mp each
  refine ⟨units, result_collect_eq_ok_iff.mpr ⟨sources, names, collected⟩, ?_⟩
  rw [result_compileUnits, mapM_eq_ok_iff.mpr compiled]
  rfl

/-- The first source that does not assemble is reported, once all sources can be read. -/
theorem exists_units_of_refused {before after : List SourceFile} {file : SourceFile}
    {text : String} {failure : AssemblyFailure}
    (names : Names files options (before ++ file :: after))
    (accepted : ∀ earlier ∈ before, ∃ image, earlier.Assembles files image)
    (read : files.readText file.path = .ok text)
    (refused : (Assembly.assemble text).result = .error failure)
    (readable : ∀ later ∈ after, later.Readable files)
    : ∃ units,
        (options.collect files).result = .ok units
        ∧ (compileUnits units).result = .error (failure.inUnit (some file.name)) := by
  obtain ⟨images, each⟩ := exists_forall₂ accepted
  obtain ⟨earlier, collected, compiled⟩ := SourceFile.forall₂_assembles_iff.mp each
  obtain ⟨later, collected'⟩ :=
    exists_forall₂ fun other member => SourceFile.exists_collect_iff.mpr (readable other member)
  have here : file.collect files = .ok ⟨text, file.name⟩ :=
    SourceFile.collect_eq_ok_iff.mpr ⟨read, rfl⟩
  refine ⟨earlier ++ ⟨text, file.name⟩ :: later, ?_, ?_⟩
  · exact result_collect_eq_ok_iff.mpr
      ⟨_, names, List.rel_append collected (.cons here collected')⟩
  · rw [result_compileUnits, map_eq_error_iff, mapM_eq_error_iff]
    refine ⟨earlier, _, later, rfl, exists_of_forall₂ compiled, ?_⟩
    rw [SourceUnit.compile, refused]
    rfl

/-- A command whose sources all assemble has collected and compiled units for them. -/
theorem exists_names_of_compiled {image : Image}
    (collected : (options.collect files).result = .ok units)
    (compiled : (compileUnits units).result = .ok image)
    : ∃ sources images,
        Names files options sources ∧ List.Forall₂ (SourceFile.Assembles files) sources images := by
  obtain ⟨sources, names, collected⟩ := result_collect_eq_ok_iff.mp collected
  rw [result_compileUnits, map_eq_ok_iff] at compiled
  obtain ⟨images, compiled, _⟩ := compiled
  exact ⟨sources, images, names, SourceFile.forall₂_assembles_iff.mpr
    ⟨units, collected, mapM_eq_ok_iff.mp compiled⟩⟩

/-- The assembler command writes the image of all its sources or changes nothing.
If the image can be written, the manifest of the library is in order and every source can be read
and assembled, then the file of the image holds the images of the sources one after the other, and
no other file has changed. In every other case the exit code is one and the files are as they were.
Then a source that cannot be collected is reported, whether the sources before it assemble or not;
and if all can be, the first that does not assemble is, under its name. Only a number in it that is
too long to be converted is reported without that name.
-/
theorem assemble_all_or_nothing {arguments : List String} {options : AssembleOptions}
    (parsed : AssembleOptions.ofArguments? arguments = some options) {files : FileTree}
    (rooted : files.Rooted)
    (writable : files.Writable options.image)
    (input : String)
    : (∀ sources images,
        Names files options sources
        → List.Forall₂ (SourceFile.Assembles files) sources images
        → ∃ report,
            assemble ⟨arguments, files, input⟩ = .finished report
            ∧ report.exitCode = 0
            ∧ FileTree.Gains files report.files options.image images.flatten)
      ∧ ((¬ ∃ sources images,
            Names files options sources
            ∧ List.Forall₂ (SourceFile.Assembles files) sources images)
          → (assemble ⟨arguments, files, input⟩).exitCode = 1
            ∧ (assemble ⟨arguments, files, input⟩).files = files)
      ∧ (∀ error,
          Uncollected files options error
          → assemble ⟨arguments, files, input⟩ = .raised (.source error) files)
      ∧ ∀ before file after text failure,
          Names files options (before ++ file :: after)
          → (∀ earlier ∈ before, ∃ image, earlier.Assembles files image)
          → files.readText file.path = .ok text
          → (Assembly.assemble text).result = .error failure
          → (∀ later ∈ after, later.Readable files)
          → ∃ log, assemble ⟨arguments, files, input⟩ = refusal files log file.name failure := by
  have started : assemble ⟨arguments, files, input⟩ = assembleWith options files := by
    simp only [assemble, parsed]
  rw [started]
  refine ⟨?_, ?_, ?_, ?_⟩
  · intro sources images names each
    obtain ⟨units, collected, compiled⟩ := exists_units_of_assembles names each
    obtain ⟨after, written⟩ := writable images.flatten
    obtain ⟨errors, ending⟩ := assembleWith_of_written collected compiled written
    exact ⟨_, ending, rfl, FileTree.gains_of_write rooted written⟩
  · intro incomplete
    cases collected : (options.collect files).result with
    | error error =>
        rw [assembleWith_of_uncollected collected]
        exact ⟨rfl, rfl⟩
    | ok units =>
        cases compiled : (compileUnits units).result with
        | error failure =>
            obtain ⟨name, cause, rfl⟩ := exists_inUnit_of_compileUnits compiled
            obtain ⟨log, ending⟩ := assembleWith_of_refused collected compiled
            rw [ending]
            exact refusal_fails files log name cause
        | ok image => exact (incomplete (exists_names_of_compiled collected compiled)).elim
  · intro error failed
    exact assembleWith_of_uncollected (result_collect_eq_error_iff.mpr failed)
  · intro before file after text failure names accepted read refused readable
    obtain ⟨units, collected, compiled⟩ :=
      exists_units_of_refused names accepted read refused readable
    exact assembleWith_of_refused collected compiled

/-- A library of one file and a file of its own become one image; and if the manifest is missing,
which is reported, nothing is written.
-/
theorem assemble_all_or_nothing_library
    : let manifest := Toml.manifestText ['\n', ' '] "core" ["a.asm"]
      let files : FileTree :=
        ⟨[ (["lib", "library.toml"], Text.encodeUtf8 manifest)
         , (["lib", "a.asm"], Text.encodeUtf8 "Swap R1 R2")
         , (["main.asm"], Text.encodeUtf8 "// end\nCopy R1 R2") ], []⟩
      (∃ report,
        assemble ⟨["-l", "lib", "main.asm", "out/prog.bin"], files, ""⟩ = .finished report
        ∧ report.exitCode = 0
        ∧ report.files.read (.ofString "out/prog.bin") = .ok [47, 128, 0, 0, 56, 128, 0, 0])
      ∧ assemble ⟨["-l", "bin", "main.asm", "out/prog.bin"], files, ""⟩
        = .raised (.source (.file ⟨.missing, .ofString "bin/library.toml"⟩)) files := by
  intro manifest files
  have plain : ∀ argument ∈ ["main.asm"] ++ ["out/prog.bin"], Arguments.IsPositional argument := by
    decide
  have rooted : files.Rooted := rfl
  have writable : files.Writable (.ofString "out/prog.bin") := by decide +kernel
  constructor
  · have parsed := ofArguments?_assemble (some "lib") plain
    have written
        : files.readText (FileTree.manifestPath (.ofString "lib")) = .ok manifest := by
      decide +kernel
    have spacing : Toml.IsSpacing ['\n', ' '] :=
      List.forall_mem_cons.mpr ⟨Or.inr rfl, List.forall_mem_singleton.mpr (Or.inl rfl)⟩
    have library : (SourceFile.inPackage "core" (.ofString "lib/a.asm")).Assembles files
        [47, 128, 0, 0] :=
      ⟨"Swap R1 R2", by decide +kernel, eq_ok_of_toOption (by decide +kernel)⟩
    have own : (SourceFile.alone (.ofString "main.asm")).Assembles files [56, 128, 0, 0] :=
      ⟨"// end\nCopy R1 R2", by decide +kernel, eq_ok_of_toOption (by decide +kernel)⟩
    obtain ⟨report, ending, exit, gains⟩ :=
      (assemble_all_or_nothing parsed rooted writable "").1 _ _
        (names_of_manifestText rfl spacing written) (.cons library (.cons own .nil))
    exact ⟨report, ending, exit, gains.read⟩
  · have parsed := ofArguments?_assemble (some "bin") plain
    refine (assemble_all_or_nothing parsed rooted writable "").2.2.1 _ (.manifest rfl ?_)
    exact .unreadable (by decide +kernel)

end CommandLine

end RegisterMachine
