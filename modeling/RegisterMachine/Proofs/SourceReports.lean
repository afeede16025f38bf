import RegisterMachine.Proofs.RunIsolation
import RegisterMachine.Proofs.UnbrokenTexts

/-! The single text that reports a source run is unambiguous.
A rejection is one unfinished line, and the output of a program consists of finished lines. There is
no text at all if a number in the source text is too long to be converted.
-/

namespace RegisterMachine.Session

open Assembly Text

-----------------------------------------------------------------------------------------
-- Reports
-----------------------------------------------------------------------------------------

/-- The ways in which compiling and running a source text is reported. A text that does not assemble
is compiled only, asks nothing and leaves zeros; its report is one line without an end, or it fails
if a conversion did. A text that assembles is executed as well; its report is that of a run of its
image, and splits at the line feeds into the lines of the run with nothing after the last one.
-/
inductive Reports (session : Session) (source : String) (response : Response) : Prop
  | rejected {error} (refused : (assemble source).result = .error (.rejected error))
    (stages : response.stages.map Stage.notice = ["Compiling..."])
    (unasked : ∀ question, .asked question ∉ response.events)
    (cleared : response.session.machine.registers = .zeros session.machine.registers.size)
    (answer : response.answer = .ok (.text ("Error: " ++ error.message)))
    (unbroken : IsUnbroken ("Error: " ++ error.message))
  | unconverted {error} (failed : (assemble source).result = .error (.unconverted error))
    (stages : response.stages.map Stage.notice = ["Compiling..."])
    (unasked : ∀ question, .asked question ∉ response.events)
    (cleared : response.session.machine.registers = .zeros session.machine.registers.size)
    (answer : response.answer = .error (.assembly (.unconverted error)))
  | ran {image lines} (assembled : (assemble source).result = .ok image)
    (stages : response.stages.map Stage.notice = ["Compiling...", "Executing..."])
    (same : response.answer = (session.perform (.run (.image image))).answer)
    (written : (session.machine.run image).lines = lines)
    (answer : response.answer = .ok (.text (outputText lines)))
    (ends : outputText lines = "" ∨ (outputText lines).toList.getLast? = some '\n')
    (count : (outputText lines).toList.count '\n' = lines.length)
    (split
      : (outputText lines).toList.splitOn '\n'
        = lines.map (fun line => line.text.toList) ++ [[]])

variable {session : Session} {source : String}

/-- Assembling asks nothing. -/
theorem asked_not_mem_idle (machine : Machine) (log : List LogRecord) (question : Question)
    : .asked question ∉ ((Outcome.idle machine).afterLog log).events := by
  intro asked
  rcases List.mem_append.mp asked with logged | later
  · obtain ⟨_, _, impossible⟩ := List.mem_map.mp logged
    cases impossible
  · cases later

theorem perform_runSource_failed {failure : AssemblyFailure}
    (failed : (assemble source).result = .error failure)
    : session.Reports source (session.perform (.runSource source)) := by
  have message := message_unbroken_of_assemble failed
  rw [perform, runSource, Machine.runSource, failed]
  cases failure with
  | rejected error =>
      have unbroken : IsUnbroken ("Error: " ++ error.message) :=
        (by decide : IsUnbroken "Error: ").append message
      refine .rejected failed rfl (fun question asked => ?_) rfl rfl unbroken
      rcases List.mem_append.mp asked with before | later
      · exact asked_not_mem_idle _ _ question before
      · cases List.mem_singleton.mp later
  | unconverted error =>
      exact .unconverted failed rfl (asked_not_mem_idle _ _) rfl rfl

/-- A source run of a text that assembles is a run of its image, and the lines of this run are
unbroken.
-/
theorem perform_runSource_ran (calm : session.machine.prompt.Calm) {image : Image}
    (assembled : (assemble source).result = .ok image)
    : session.Reports source (session.perform (.runSource source)) := by
  obtain ⟨whole, lines⟩ := Machine.run_unbroken calm image
  have unbroken
      : ∀ text ∈ (session.machine.run image).lines.map Line.text, IsUnbroken text :=
    List.forall_mem_map.mpr lines
  have given (log : List LogRecord)
      : SourceRun.ofRun ((session.machine.run image).afterLog log)
        = ⟨[.compiling, .executing], (session.machine.run image).afterLog log,
            .ok (outputText (session.machine.run image).lines)⟩ :=
    SourceRun.ofRun_of_whole whole
  have plain
      : (session.perform (.run (.image image))).answer
        = .ok (.text (outputText (session.machine.run image).lines)) := by
    simp only [perform, withImage, Program.load, Logged.result_value, run, answer,
      Outcome.afterLog, whole]
    rfl
  rw [perform, runSource, Machine.runSource, assembled]
  dsimp only
  rw [Machine.run_cleared, given]
  refine .ran assembled rfl plain.symm rfl rfl ?_ ?_ ?_
  · exact (getLast?_unlines _).imp_left And.left
  · rw [outputText, count_unlines unbroken, List.length_map]
  · rw [outputText, splitOn_unlines unbroken, List.map_map]
    rfl

/-- The report of a source text shows whether the text was rejected: only then it is not empty and
does not end with a line feed.
-/
theorem Reports.rejected_iff {response : Response} (h : session.Reports source response)
    {text : String} (answered : response.answer = .ok (.text text))
    : (∃ error, (assemble source).result = .error (.rejected error))
      ↔ text ≠ "" ∧ text.toList.getLast? ≠ some '\n' := by
  cases h with
  | @rejected error refused _ _ _ answer unbroken =>
      obtain rfl : "Error: " ++ error.message = text := by
        simpa using answer.symm.trans answered
      refine ⟨fun _ => ⟨fun empty => ?_, unbroken.getLast?_ne⟩, fun _ => ⟨error, refused⟩⟩
      have first := congrArg (·.toList.head?) empty
      simp at first
  | unconverted failed _ _ _ answer => cases answer.symm.trans answered
  | @ran image lines assembled _ _ _ answer ends _ _ =>
      obtain rfl : outputText lines = text := by simpa using answer.symm.trans answered
      refine ⟨fun refused => ?_, fun unfinished => ?_⟩
      · obtain ⟨error, refused⟩ := refused
        cases refused.symm.trans assembled
      · exact (ends.elim unfinished.1 unfinished.2).elim

/-- There is a report unless a conversion failed. -/
theorem Reports.exists_text_iff {response : Response} (h : session.Reports source response)
    : (∃ text, response.answer = .ok (.text text))
      ↔ ∀ error, (assemble source).result ≠ .error (.unconverted error) := by
  cases h with
  | rejected refused _ _ _ answer =>
      exact ⟨fun _ _ failed => (by cases refused.symm.trans failed), fun _ => ⟨_, answer⟩⟩
  | unconverted failed _ _ _ answer =>
      refine ⟨fun ⟨_, answered⟩ => ?_, fun other => (other _ failed).elim⟩
      cases answer.symm.trans answered
  | ran assembled _ _ _ answer =>
      exact ⟨fun _ _ failed => (by cases assembled.symm.trans failed), fun _ => ⟨_, answer⟩⟩

/-- The single text that reports a source run is unambiguous.
If nothing that the prompt will give is a failure, compiling and running any source text on any
registers is reported in one of these ways, and a caller can tell a text that was rejected from one
that was run by the report alone. No source text can put a line end into an error, and no answer or
register into a line of output. There is no report exactly if a conversion failed.
-/
theorem perform_runSource_unambiguous {session : Session} (calm : session.machine.prompt.Calm)
    (source : String)
    : session.Reports source (session.perform (.runSource source))
      ∧ (∀ text,
          (session.perform (.runSource source)).answer = .ok (.text text)
          → ((∃ error, (assemble source).result = .error (.rejected error))
            ↔ text ≠ "" ∧ text.toList.getLast? ≠ some '\n'))
      ∧ ((∃ text, (session.perform (.runSource source)).answer = .ok (.text text))
        ↔ ∀ error, (assemble source).result ≠ .error (.unconverted error)) := by
  have report : session.Reports source (session.perform (.runSource source)) := by
    cases result : (assemble source).result with
    | error failure => exact perform_runSource_failed result
    | ok image => exact perform_runSource_ran calm result
  exact ⟨report, fun text => report.rejected_iff, report.exists_text_iff⟩

/-- A line separator ends a line of code, and a vertical tab does as well, so that the message about
the second line holds neither of them. A program of one instruction writes one line.
-/
theorem perform_runSource_unambiguous_separators
    : let session : Session := ⟨⟨⟨[3, 4]⟩, some [.entered "12"]⟩, [.heading]⟩
      let bad := "InputOperand R0 10\u2028Jump R1\x0bCopy R0 R1"
      let good := "PrintOperand R1 10"
      session.machine.prompt.Calm
      ∧ session.Reports bad (session.perform (.runSource bad))
      ∧ (session.machine.runSource bad).text.toOption
        = some "Error: Error compiling line: Jump R1. Invalid opcode: Jump"
      ∧ session.Reports good (session.perform (.runSource good))
      ∧ (session.machine.runSource good).text.toOption = some "R1: 0\n" := by
  intro session bad good
  have calm : session.machine.prompt.Calm := by
    rintro _ ⟨⟩ failure member
    cases List.mem_singleton.mp member
  exact ⟨calm, (perform_runSource_unambiguous calm bad).1, by decide +kernel,
    (perform_runSource_unambiguous calm good).1, by decide +kernel⟩

end RegisterMachine.Session
