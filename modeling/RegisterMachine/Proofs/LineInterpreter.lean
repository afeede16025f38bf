import RegisterMachine.Proofs.AssembledWords
import RegisterMachine.Proofs.Observation
import RegisterMachine.Proofs.Results

/-! A source text can be interpreted line by line, without words in between.
Assembling it and running the image is no different for an observer, whatever faults, answers and
failures of the prompt come on the way.
-/

namespace RegisterMachine

open Assembly

/-- What came of interpreting lines: the run, and the cause why a line was not accepted, if that
stopped it.
-/
structure Interpretation where
  outcome : Outcome
  rejection : Option InstructionError

namespace Machine

/-- Reads and executes lines of code one after the other, until a line is no instruction or a
failure escapes. Lines without code are passed over.
-/
def interpretLines (machine : Machine) : List (List Char) → Interpretation
  | [] => ⟨.idle machine, none⟩
  | line :: lines =>
      if isCode (trimLine line) then
        match issueLine (String.ofList (trimLine line)) with
        | .error error => ⟨.idle machine, some error⟩
        | .ok issue =>
            let first := machine.step issue.word
            match first.escaped with
            | some _ => ⟨first, none⟩
            | none =>
                let later := interpretLines first.machine lines
                ⟨first.andThen fun _ => later.outcome, later.rejection⟩
      else
        interpretLines machine lines

/-- Interprets the lines of a source text from cleared registers. -/
def interpret (machine : Machine) (source : String) : Interpretation :=
  (machine.withRegisters machine.registers.clear).interpretLines
    (Text.splitLines source.toList)

/-- Interpreting lines that assemble executes their words, by induction on the lines. The state is
arbitrary, since every line starts from what the lines before it have left.
-/
theorem interpretLines_eq_steps {unit : Option String} {number : Nat} {lines : List (List Char)}
    {words : List Int} (h : (assembleLines unit number lines).result = .ok words)
    (machine : Machine)
    : machine.interpretLines lines = ⟨machine.steps words, none⟩ := by
  induction lines generalizing number words machine with
  | nil =>
      obtain rfl : [] = words := Except.ok.inj h
      rfl
  | cons line lines ih =>
      by_cases code : isCode (trimLine line) = true
      · obtain ⟨issue, rest, read, later, rfl⟩ := assembleLines_cons h code
        rw [interpretLines, if_pos code, read, steps]
        cases cut : (machine.step issue.word).escaped with
        | some failure => simp only [cut, Outcome.andThen]
        | none => simp only [cut, Outcome.andThen, ih later]
      · rw [assembleLines, if_neg code] at h
        rw [interpretLines, if_neg code]
        exact ih h machine

/-- Running the image of a source text is interpreting the text line by line.
The words survive the way into bytes and back, no line is rejected, and registers, questions,
escaped failure, output and remaining answers agree, from every register file and with every prompt.
-/
theorem run_assembled_alike_interpret {source : String} {image : Image}
    (assembled : (assemble source).result = .ok image) (machine : Machine)
    : (∃ words,
        (assembleWords source none).result = .ok words
        ∧ Image.pack? words = some image
        ∧ image.words = words
        ∧ image.truncation? = none)
      ∧ (machine.interpret source).rejection = none
      ∧ (machine.run image).Alike (machine.interpret source).outcome
      ∧ (machine.run image).text
        = Text.unlines ((machine.interpret source).outcome.lines.map Line.text) := by
  obtain ⟨words, found, rfl⟩ := assemble_eq_ok assembled
  have fit : ∀ word ∈ words, IsWord word := isWord_of_assembleLines found
  have interpreted := interpretLines_eq_steps found (machine.withRegisters machine.registers.clear)
  have alike : (machine.run (Image.ofWords words)).Alike (machine.interpret source).outcome := by
    rw [run, execute_ofWords fit, interpret, interpreted]
    have stepped := Outcome.Alike.refl ((machine.withRegisters machine.registers.clear).steps words)
    simpa only [Outcome.andThen_idle] using stepped.andThen logContents_alike
  refine ⟨⟨words, found, Image.pack?_eq_some fit, Image.words_ofWords fit,
    Image.truncation?_ofWords words⟩, ?_, alike, ?_⟩
  · rw [interpret, interpreted]
  · rw [Outcome.text, outputText, alike.lines]

/-- A comment, an empty line, an answered question and a division by zero make no difference. -/
theorem run_assembled_alike_interpret_division
    : (assemble "// ask\n\n\tInputOperand R1, 10\r\nDivision r+1 R0 R2").result
        = .ok [50, 128, 2, 0, 45, 0, 0, 1]
      ∧ (run ⟨⟨[5, 6, 7]⟩, some [.entered "-1"]⟩ [50, 128, 2, 0, 45, 0, 0, 1]).Alike
          (interpret ⟨⟨[5, 6, 7]⟩, some [.entered "-1"]⟩
            "// ask\n\n\tInputOperand R1, 10\r\nDivision r+1 R0 R2").outcome := by
  have assembled
      : (assemble "// ask\n\n\tInputOperand R1, 10\r\nDivision r+1 R0 R2").result
        = .ok [50, 128, 2, 0, 45, 0, 0, 1] :=
    eq_ok_of_toOption (by decide +kernel)
  exact ⟨assembled, (run_assembled_alike_interpret assembled _).2.2.1⟩

end Machine

end RegisterMachine
