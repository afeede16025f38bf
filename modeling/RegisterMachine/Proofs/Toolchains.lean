import RegisterMachine.Proofs.ImageFiles
import RegisterMachine.Proofs.UnbrokenTexts

/-! The two ways from a source file to its output: to assemble it to an image file and run that, or
to run the source file at once. They print the same, and they reject the same source files.
-/

namespace RegisterMachine

open Assembly

-----------------------------------------------------------------------------------------
-- Answers of a console
-----------------------------------------------------------------------------------------

/-- Lines of input are no failures, by induction on them. -/
theorem Console.answer_readingsAfter (emptyLines : Nat) (lines : List (List Char))
    (failure : PromptFailure)
    : ∀ reading ∈ readingsAfter emptyLines lines, reading.answer ≠ .failed failure := by
  fun_induction readingsAfter emptyLines lines with
  | case1 => exact List.forall_mem_singleton.mpr nofun
  | case2 _ _ ih => exact ih
  | case3 _ _ _ _ ih => exact List.forall_mem_cons.mpr ⟨nofun, ih⟩

namespace CommandLine

-----------------------------------------------------------------------------------------
-- Runs
-----------------------------------------------------------------------------------------

/-- The machine that a command runs a program on, without questions or with those of an input. -/
def machineFor (noInput : Bool) (input : String) : Machine :=
  machine (if noInput then none else some (answersOf (Console.readings input)))

theorem calm_machineFor (noInput : Bool) (input : String)
    : (machineFor noInput input).prompt.Calm := by
  intro answers given failure member
  rw [machineFor, machine, Option.ite_none_left_eq_some] at given
  obtain ⟨_, given⟩ := given
  rw [← Option.some.inj given, answersOf, List.mem_map] at member
  obtain ⟨reading, found, failed⟩ := member
  exact Console.answer_readingsAfter 0 _ failure reading found failed

/-- What a run of an image leaves behind on the command line. It ends well, and what it prints and
asks is decided by the image, the flag and the input.
-/
def RanImage (noInput : Bool) (files : FileTree) (input : String) (image : Image)
    (ending : Ending)
    : Prop :=
  ∃ errors,
    ending
      = .finished
          { exitCode := exitSuccess
            files := files
            output := ((machineFor noInput input).run image).text
            errors := errors
            questions := ((machineFor noInput input).run image).questions }

variable {files : FileTree} {image : Image}

theorem ranImage_of_read {verbose : Bool} (noInput : Bool) {path : Path}
    (read : files.read path = .ok image) (input : String)
    : RanImage noInput files input image
        (runImageWith ⟨verbose, noInput, path⟩ files input) := by
  have whole := (Machine.run_unbroken (calm_machineFor noInput input) image).1
  simp only [machineFor] at whole
  simp only [runImageWith, read, ImageOptions.prompt, whole]
  exact ⟨_, rfl⟩

theorem ranImage_of_assembled {verbose : Bool} (noInput : Bool) {path : Path} {text : String}
    (read : files.readText path = .ok text)
    (assembled : (Assembly.assemble text).result = .ok image) (input : String)
    : RanImage noInput files input image
        (runSourceWith ⟨⟨verbose, !noInput⟩, path⟩ files input) := by
  have whole := (Machine.run_unbroken (calm_machineFor noInput input) image).1
  have same
      : machine (RunSettings.prompt ⟨verbose, !noInput⟩ (answersOf (Console.readings input)))
        = machineFor noInput input := by
    cases noInput <;> rfl
  simp only [runSourceWith, read, assembled, same, whole]
  exact ⟨_, rfl⟩

-----------------------------------------------------------------------------------------
-- Records
-----------------------------------------------------------------------------------------

/-- Assembling lines logs nothing but the words that it issues, by induction on the lines. -/
theorem log_assembleLines (unit : Option String) (number : Nat) (lines : List (List Char))
    : ∀ record ∈ (assembleLines unit number lines).log, ∃ issue : Issue, record = issue.record := by
  induction lines generalizing number with
  | nil => exact List.forall_mem_nil _
  | cons line lines ih =>
      rw [assembleLines]
      split
      · rw [assembleLine]
        cases issueLine (String.ofList (trimLine line)) with
        | error cause => exact List.forall_mem_nil _
        | ok issue => exact List.forall_mem_cons.mpr ⟨⟨issue, rfl⟩, ih (number + 1)⟩
      · exact ih (number + 1)

/-- Records for debugging are not shown unless they are asked for, by induction on the records. -/
theorem logText_of_debug {log : List LogRecord} (debug : ∀ record ∈ log, record.level = .debug)
    : Console.logText false log = "" := by
  induction log with
  | nil => rfl
  | cons record log ih =>
      obtain ⟨here, later⟩ := List.forall_mem_cons.mp debug
      have hidden : Console.recordText false record = "" := by
        rw [Console.recordText, Console.shows, here]
        rfl
      rw [Console.logText, List.map_cons, String.join_cons, hidden, ← Console.logText, ih later]
      rfl

theorem logText_assemble (source : String)
    : Console.logText false (Assembly.assemble source).log = "" := by
  refine logText_of_debug fun record member => ?_
  obtain ⟨issue, rfl⟩ := log_assembleLines none 1 _ record member
  rfl

-----------------------------------------------------------------------------------------
-- Toolchains
-----------------------------------------------------------------------------------------

/-- What the two toolchains do with a source file that holds a text. If the text assembles, the file
of the image holds the image, all commands succeed, and both runs print the same and ask the same
questions. If not, both commands that take the source file fail and leave the files as they are; the
one that would run it reports the line, or passes on a conversion that failed, and neither executes
nor asks anything.
-/
inductive ToolchainsAgree (files : FileTree) (source image : String) (flags : List String)
    (input text : String)
    : Prop
  | accepted {bytes : Image} {built ran direct : Report}
    (assembled : (Assembly.assemble text).result = .ok bytes)
    (builds : assemble ⟨[source, image], files, input⟩ = .finished built)
    (runs : runImageFile ⟨flags ++ [image], built.files, input⟩ = .finished ran)
    (runsSource : runSourceFile ⟨flags ++ [source], files, input⟩ = .finished direct)
    (exits : built.exitCode = 0 ∧ ran.exitCode = 0 ∧ direct.exitCode = 0)
    (stored : built.files.read (.ofString image) = .ok bytes)
    (output : ran.output = direct.output)
    (questions : ran.questions = direct.questions)
  | refused {error : AssemblyError} {built direct : Report}
    (rejected : (Assembly.assemble text).result = .error (.rejected error))
    (builds : assemble ⟨[source, image], files, input⟩ = .finished built)
    (runsSource : runSourceFile ⟨flags ++ [source], files, input⟩ = .finished direct)
    (exits : built.exitCode = 1 ∧ direct.exitCode = 1)
    (kept : built.files = files ∧ direct.files = files)
    (unexecuted
      : direct.errors
        = noticeLine .compiling ++ assemblyErrorLine (Path.ofString source).name error)
    (silent : built.output = "" ∧ direct.output = "")
    (unasked : built.questions = [] ∧ direct.questions = [])
  | unconverted {error : ConversionError} {ending : Ending}
    (failed : (Assembly.assemble text).result = .error (.unconverted error))
    (builds : assemble ⟨[source, image], files, input⟩ = ending)
    (runsSource : runSourceFile ⟨flags ++ [source], files, input⟩ = ending)
    (raised : ending = .raised (.conversion error) files)
    (exit : ending.exitCode = 1)

variable {source image text : String}

/-- The assembler command is given one source file. -/
def plainOptions (source image : String) : AssembleOptions :=
  ⟨false, none, [Path.ofString source], Path.ofString image⟩

theorem assemble_eq_assembleWith (plain : Arguments.IsPositional source)
    (plain' : Arguments.IsPositional image) (input : String)
    : assemble ⟨[source, image], files, input⟩
      = assembleWith (plainOptions source image) files := by
  have parsed
      : AssembleOptions.ofArguments? [source, image] = some (plainOptions source image) := by
    refine @ofArguments?_assemble [source] image none ?_
    exact List.forall_mem_cons.mpr ⟨plain, List.forall_mem_singleton.mpr plain'⟩
  simp only [assemble, parsed]

theorem names_plainOptions (files : FileTree) (source image : String)
    : Names files (plainOptions source image) [.alone (Path.ofString source)] :=
  ⟨_, .alone rfl, .cons .own .nil⟩

/-- The two toolchains agree.
For every source file that holds a text in UTF-8, and with or without questions for every input, to
assemble it and run the image prints what running the source file prints, or both refuse it. The
image has to be written somewhere, and neither path may look like an option.
-/
theorem toolchains_agree (plain : Arguments.IsPositional source)
    (plain' : Arguments.IsPositional image) (rooted : files.Rooted)
    (writable : files.Writable (.ofString image))
    (read : files.readText (.ofString source) = .ok text) (noInput : Bool) (input : String)
    : ToolchainsAgree files source image (inputFlags noInput) input text := by
  have direct
      : runSourceFile ⟨inputFlags noInput ++ [source], files, input⟩
        = runSourceWith ⟨⟨false, !noInput⟩, .ofString source⟩ files input := by
    simp only [runSourceFile, ofArguments?_source plain]
  have indirect (files : FileTree)
      : runImageFile ⟨inputFlags noInput ++ [image], files, input⟩
        = runImageWith ⟨false, noInput, .ofString image⟩ files input := by
    simp only [runImageFile, ofArguments?_image plain']
  have built : assemble ⟨[source, image], files, input⟩ = _ :=
    assemble_eq_assembleWith plain plain' input
  have names := names_plainOptions files source image
  cases assembled : (Assembly.assemble text).result with
  | ok bytes =>
      obtain ⟨units, collected, compiled⟩ :=
        exists_units_of_assembles names (.cons ⟨text, read, assembled⟩ .nil)
      rw [List.flatten_singleton] at compiled
      obtain ⟨after, written⟩ := writable bytes
      obtain ⟨log, builds⟩ := assembleWith_of_written collected compiled written
      have stored := (FileTree.gains_of_write rooted written).read
      obtain ⟨errors, runs⟩ := ranImage_of_read noInput stored input
      obtain ⟨errors', runsSource⟩ := ranImage_of_assembled noInput read assembled input
      exact .accepted assembled (built.trans builds) ((indirect after).trans runs)
        (direct.trans runsSource) ⟨rfl, rfl, rfl⟩ stored rfl rfl
  | error failure =>
      obtain ⟨units, collected, compiled⟩ :=
        exists_units_of_refused (show Names files _ ([] ++ [_]) from names)
          (List.forall_mem_nil _) read assembled (List.forall_mem_nil _)
      obtain ⟨log, builds⟩ := assembleWith_of_refused collected compiled
      have runsSource
          : runSourceWith ⟨⟨false, !noInput⟩, .ofString source⟩ files input
            = refusal files (noticeLine .compiling) (Path.ofString source).name failure := by
        cases failure <;>
          simp only [runSourceWith, read, assembled, logText_assemble, String.append_empty,
            refusal]
      cases failure with
      | rejected error =>
          exact .refused assembled (built.trans builds) (direct.trans runsSource) ⟨rfl, rfl⟩
            ⟨rfl, rfl⟩ rfl ⟨rfl, rfl⟩ ⟨rfl, rfl⟩
      | unconverted error =>
          exact .unconverted assembled (built.trans builds) (direct.trans runsSource) rfl rfl

/-- A program that asks for a value is run with its questions and without them, and a file with an
unknown operation is refused.
-/
theorem toolchains_agree_echo
    : let echo := "InputOperand R1 16\nPrintOperand R1 16"
      let files : FileTree :=
        ⟨[ (["main.asm"], Text.encodeUtf8 echo), (["bad.asm"], Text.encodeUtf8 "Jump R1") ], []⟩
      ToolchainsAgree files "main.asm" "out/main.bin" [] "\n00FF\n" echo
      ∧ ToolchainsAgree files "main.asm" "out/main.bin" ["--no-input"] "" echo
      ∧ ToolchainsAgree files "bad.asm" "out/main.bin" [] "" "Jump R1" := by
  intro echo files
  have rooted : files.Rooted := rfl
  have writable : files.Writable (.ofString "out/main.bin") := by decide +kernel
  have read : files.readText (.ofString "main.asm") = .ok echo := by decide +kernel
  have bad : files.readText (.ofString "bad.asm") = .ok "Jump R1" := by decide +kernel
  exact ⟨toolchains_agree (by decide) (by decide) rooted writable read false "\n00FF\n",
    toolchains_agree (by decide) (by decide) rooted writable read true "",
    toolchains_agree (by decide) (by decide) rooted writable bad false ""⟩

end CommandLine

end RegisterMachine
