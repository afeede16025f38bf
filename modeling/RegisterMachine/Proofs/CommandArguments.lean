import Mathlib
import RegisterMachine.CommandLine.Assemble
import RegisterMachine.CommandLine.Run

/-! Plain command lines: the options of a command, and then its paths.
-/

namespace RegisterMachine

namespace Arguments

/-- An argument that does not look like an option; a single dash is none. -/
def IsPositional (argument : String) : Prop :=
  argument.toList = ['-'] ∨ argument.toList.head? ≠ some '-'

instance (argument : String) : Decidable (IsPositional argument) :=
  inferInstanceAs (Decidable (_ ∨ _))

theorem IsPositional.ne_option {argument : String} (plain : IsPositional argument) (c : Char)
    (name : List Char)
    : argument.toList ≠ '-' :: c :: name := by
  intro option
  rcases plain with dash | other
  · cases dash.symm.trans option
  · exact other (by rw [option]; rfl)

theorem parse?_cons {specs : List OptionSpec} {argument : String} (plain : IsPositional argument)
    (rest : List String)
    : parse? specs (argument :: rest) = (parse? specs rest).map (consPositional argument) := by
  rw [parse?]
  split
  · next dashes => exact (plain.ne_option _ _ dashes).elim
  · next c name option => exact (plain.ne_option _ _ option).elim
  · rfl

/-- Arguments that are no options are positionals in the same order, by induction on them. -/
theorem parse?_positionals (specs : List OptionSpec) {arguments : List String}
    (plain : ∀ argument ∈ arguments, IsPositional argument)
    : parse? specs arguments = some ⟨[], arguments⟩ := by
  induction arguments with
  | nil => rfl
  | cons argument arguments ih =>
      obtain ⟨here, later⟩ := List.forall_mem_cons.mp plain
      rw [parse?_cons here, ih later]
      rfl

end Arguments

namespace CommandLine

open Arguments

/-- The arguments that ask for runs without questions, or that do not. -/
def inputFlags (noInput : Bool) : List String :=
  if noInput then ["--no-input"] else []

/-- The arguments that name a library, if there is one. -/
def libraryArguments : Option String → List String
  | none => []
  | some directory => ["-l", directory]

/-- The arguments of a run are its flag and the path of the program. -/
theorem parseRun?_inputFlags {program : String} (plain : IsPositional program) (noInput : Bool)
    : ∃ parsed,
        parseRun? (inputFlags noInput ++ [program]) = some (parsed, Path.ofString program)
        ∧ parsed.has verboseOption.name = false
        ∧ parsed.has noInputOption.name = noInput := by
  have positional : parse? runOptions [program] = some ⟨[], [program]⟩ :=
    parse?_positionals _ (List.forall_mem_singleton.mpr plain)
  cases noInput with
  | false =>
      rw [parseRun?, inputFlags, if_neg Bool.false_ne_true, List.nil_append, positional]
      exact ⟨_, rfl, rfl, rfl⟩
  | true =>
      have parsed
          : parse? runOptions ["--no-input", program]
            = (parse? runOptions [program]).map fun arguments =>
                { arguments with options := [("no-input", none)] ++ arguments.options } := rfl
      rw [parseRun?, inputFlags, if_pos rfl, List.singleton_append, parsed, positional]
      exact ⟨_, rfl, rfl, rfl⟩

theorem ofArguments?_image {program : String} (plain : IsPositional program) (noInput : Bool)
    : ImageOptions.ofArguments? (inputFlags noInput ++ [program])
      = some ⟨false, noInput, Path.ofString program⟩ := by
  obtain ⟨parsed, run, quiet, flag⟩ := parseRun?_inputFlags plain noInput
  rw [ImageOptions.ofArguments?, run, ← quiet, ← flag]
  rfl

theorem ofArguments?_source {program : String} (plain : IsPositional program) (noInput : Bool)
    : SourceOptions.ofArguments? (inputFlags noInput ++ [program])
      = some ⟨⟨false, !noInput⟩, Path.ofString program⟩ := by
  obtain ⟨parsed, run, quiet, flag⟩ := parseRun?_inputFlags plain noInput
  simp only [SourceOptions.ofArguments?, run, Option.map_some, quiet, flag]
  cases noInput <;> rfl

/-- The two commands that run a program read their flags in different ways and see the same in them:
for all arguments, the same are accepted, and the program, the prompt and the amount of records are
the same.
-/
theorem ofArguments?_agree (arguments : List String)
    : (ImageOptions.ofArguments? arguments).map
          (fun options => (options.image, options.verbose, options.prompt))
      = (SourceOptions.ofArguments? arguments).map
          fun options => (options.source, options.settings.verbose, options.settings.prompt) := by
  rw [ImageOptions.ofArguments?, SourceOptions.ofArguments?, Option.map_map, Option.map_map]
  refine congrArg (Option.map · (parseRun? arguments)) (funext fun (parsed, program) => ?_)
  have prompts (answers : List Answer)
      : (if parsed.has noInputOption.name then none else some answers)
        = if (if parsed.has noInputOption.name then false else true) then some answers
          else none := by
    cases parsed.has noInputOption.name <;> rfl
  exact congrArg (fun prompt => (program, _, prompt)) (funext prompts)

theorem ofArguments?_assemble {sources : List String} {image : String} (library : Option String)
    (plain : ∀ argument ∈ sources ++ [image], IsPositional argument)
    : AssembleOptions.ofArguments? (libraryArguments library ++ (sources ++ [image]))
      = some
          { verbose := false
            library := library.map Path.ofString
            sources := sources.map Path.ofString
            image := Path.ofString image } := by
  have positional := parse?_positionals assembleOptions plain
  cases library with
  | none =>
      rw [AssembleOptions.ofArguments?, libraryArguments, List.nil_append, positional]
      simp [Arguments.has, Arguments.value?, guard, verboseOption, libraryOption, helpOption]
  | some directory =>
      have parsed
          : parse? assembleOptions ("-l" :: directory :: (sources ++ [image]))
            = (parse? assembleOptions (sources ++ [image])).map fun arguments =>
                { arguments with
                  options := [] ++ ("library", some directory) :: arguments.options } := rfl
      rw [AssembleOptions.ofArguments?, libraryArguments, List.cons_append, List.cons_append,
        List.nil_append, parsed, positional]
      simp [Arguments.has, Arguments.value?, guard, verboseOption, libraryOption, helpOption]

end CommandLine

end RegisterMachine
