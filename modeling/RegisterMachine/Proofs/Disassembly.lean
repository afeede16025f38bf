import RegisterMachine.Proofs.CanonicalWords
import RegisterMachine.Proofs.InstructionGrammar
import RegisterMachine.Proofs.WrittenLines

/-! Every word of a known operation has a source line.
The line gives the word back, except for operands that the operation does not take.
-/

namespace RegisterMachine

namespace Assembly

-----------------------------------------------------------------------------------------
-- Writing lines
-----------------------------------------------------------------------------------------

/-- The token of an operand: registers have a letter in front, bases are bare. -/
def operandToken : OperandKind → Int → String
  | .register, index => "R" ++ decimal index
  | .base, value => decimal value

/-- The tokens of an instruction: its name and the operands that it takes, in pattern order. -/
def instructionTokens (instruction : Instruction) : List String :=
  instruction.operation.name
    :: instruction.operation.pattern.map fun (kind, slot) =>
      operandToken kind (instruction.operands.get slot)

def sourceLine (instruction : Instruction) : String :=
  " ".intercalate (instructionTokens instruction)

theorem name_visible (operation : Operation)
    : ∀ c ∈ operation.name.toList, Text.IsVisible c := by
  intro c member
  have letter := List.all_eq_true.mp operation.name_letters.2 c member
  exact Text.visible_of_isAlpha letter

theorem operandToken_visible (kind : OperandKind) (value : Int)
    : (operandToken kind value).toList ≠ []
      ∧ ∀ c ∈ (operandToken kind value).toList, Text.IsVisible c := by
  have nonempty : (decimal value).toList ≠ [] := by
    intro empty
    have integer := isInteger_decimal value
    rw [empty] at integer
    cases integer with
    | unsigned number => exact number.1 rfl
  cases kind with
  | register =>
      rw [operandToken, String.toList_append]
      refine ⟨List.append_ne_nil_of_right_ne_nil _ nonempty, fun c member => ?_⟩
      rcases List.mem_append.mp member with head | digits
      · rw [List.mem_singleton.mp head]
        exact ⟨by decide, by decide, by decide⟩
      · exact decimal_visible value c digits
  | base => exact ⟨nonempty, decimal_visible value⟩

theorem instructionTokens_visible (instruction : Instruction)
    : ∀ token ∈ instructionTokens instruction,
        token.toList ≠ [] ∧ ∀ c ∈ token.toList, Text.IsVisible c := by
  intro token member
  rcases List.mem_cons.mp member with rfl | member
  · exact ⟨instruction.operation.name_letters.1, name_visible instruction.operation⟩
  · obtain ⟨⟨kind, slot⟩, _, rfl⟩ := List.mem_map.mp member
    exact operandToken_visible kind _

/-- The tokens of a source line are those that it was written from. -/
theorem tokenize_sourceLine (instruction : Instruction)
    : tokenize (sourceLine instruction) = instructionTokens instruction := by
  apply tokenize_intercalate
  intro token member
  obtain ⟨nonempty, visible⟩ := instructionTokens_visible instruction token member
  exact ⟨nonempty, fun c inside => (visible c inside).not_separator⟩

section
variable (instruction : Instruction)

theorem toList_sourceLine
    : (sourceLine instruction).toList
      = [' '].intercalate ((instructionTokens instruction).map String.toList) := by
  rw [sourceLine, String.toList_intercalate]
  rfl

theorem stretches_visible
    : ∀ stretch ∈ (instructionTokens instruction).map String.toList,
        stretch ≠ [] ∧ ∀ c ∈ stretch, Text.IsVisible c := by
  intro stretch member
  obtain ⟨token, found, rfl⟩ := List.mem_map.mp member
  exact instructionTokens_visible instruction token found

/-- A source line begins with a letter, the first one of a name. -/
theorem head?_sourceLine
    : ∃ letter, (sourceLine instruction).toList.head? = some letter ∧ letter.isAlpha = true := by
  obtain ⟨nonempty, letters⟩ := instruction.operation.name_letters
  obtain ⟨letter, name, head⟩ := List.exists_cons_of_ne_nil nonempty
  refine ⟨letter, ?_, ?_⟩
  · rw [toList_sourceLine, instructionTokens, List.map_cons, Text.head?_intercalate _ nonempty,
      head]
    rfl
  · apply List.all_eq_true.mp letters
    rw [head]
    exact List.mem_cons_self

/-- A source line has no blanks around it. -/
theorem trimLine_sourceLine
    : trimLine (sourceLine instruction).toList = (sourceLine instruction).toList := by
  apply Text.trim_eq_self
  · intro c first
    obtain ⟨letter, head, alpha⟩ := head?_sourceLine instruction
    rw [← Option.some.inj (head.symm.trans first)]
    exact (Text.visible_of_isAlpha alpha).not_blank
  · intro c last
    rw [toList_sourceLine] at last
    obtain ⟨stretch, found, inside⟩ :=
      Text.getLast?_intercalate
        (fun stretch member => (stretches_visible instruction stretch member).1) last
    exact ((stretches_visible instruction stretch found).2 c inside).not_blank

/-- A source line is no comment, because it begins with a letter. -/
theorem isCode_sourceLine
    : isCode (sourceLine instruction).toList = true := by
  obtain ⟨letter, head, alpha⟩ := head?_sourceLine instruction
  obtain ⟨rest, cut⟩ := List.head?_eq_some_iff.mp head
  rw [cut]
  unfold isCode
  split
  · next empty => cases empty
  · next slashes =>
      rw [(List.cons.inj slashes).1] at alpha
      cases alpha
  · rfl

theorem sourceLine_lineTerminator
    : ∀ c ∈ (sourceLine instruction).toList, Text.isLineTerminator c = false := by
  intro c member
  rw [toList_sourceLine] at member
  apply Text.not_lineTerminator
  rcases Text.mem_intercalate member with space | inside
  · exact Or.inl space
  · obtain ⟨stretch, found, inside⟩ := inside
    exact Or.inr ((stretches_visible instruction stretch found).2 c inside)

end

-----------------------------------------------------------------------------------------
-- Reading lines back
-----------------------------------------------------------------------------------------

theorem reads_operandToken {kind : OperandKind} {value : Int}
    (inside : 0 ≤ value ∧ value ≤ 511)
    : Reads kind (operandToken kind value) value := by
  have short := not_overlong_decimal (natAbs_lt_of_operand inside)
  cases kind with
  | register =>
      have text : (operandToken .register value).toList = 'R' :: (decimal value).toList := by
        rw [operandToken, String.toList_append]
        rfl
      exact .register text (Or.inl rfl) short (isInteger_decimal value) inside
  | base => exact .base short (isInteger_decimal value)

theorem mem_zip_map_iff {α β : Type} {f : α → β} {list : List α} {entry : α × β}
    : entry ∈ list.zip (list.map f) ↔ entry.1 ∈ list ∧ f entry.1 = entry.2 := by
  rw [List.zip_map_right, List.zip, List.zipWith_self, List.map_map, List.mem_map]
  constructor
  · intro h
    obtain ⟨first, member, rfl⟩ := h
    exact ⟨member, rfl⟩
  · intro h
    exact ⟨entry.1, h.1, Prod.ext rfl h.2⟩

/-- The operand tokens of a source line fill the slots that the operation takes. -/
theorem fills_canonical {instruction : Instruction} (fit : instruction.fields.Fit)
    : Fills instruction.operation
        (instruction.operation.pattern.map fun (kind, slot) =>
          operandToken kind (instruction.operands.get slot))
        instruction.canonical.operands := by
  constructor
  · intro entry member
    obtain ⟨listed, token⟩ := mem_zip_map_iff.mp member
    have taken : entry.1.2 ∈ instruction.operation.pattern.map Prod.snd :=
      List.mem_map_of_mem listed
    rw [← token, Instruction.canonical, Operands.get_restrict, if_pos taken]
    exact reads_operandToken (((Fields.fit_iff _).mp fit).2 entry.1.2)
  · intro slot unfilled
    rw [Instruction.canonical, Operands.get_restrict, if_neg]
    intro taken
    obtain ⟨position, listed, rfl⟩ := List.mem_map.mp taken
    exact unfilled (position, _) (mem_zip_map_iff.mpr ⟨listed, rfl⟩) rfl

/-- The source line of an instruction is accepted and gives its canonical word. -/
theorem translate_sourceLine {instruction : Instruction} (fit : instruction.fields.Fit)
    : translate (sourceLine instruction) = .ok instruction.canonical.word := by
  have unbroken : ∀ token ∈ instructionTokens instruction, ∀ c ∈ token.toList,
      isSeparator c = false := by
    intro token member c inside
    exact ((instructionTokens_visible instruction token member).2 c inside).not_separator
  have canonical := Instruction.fit_canonical fit
  have inside := ((Fields.fit_iff _).mp canonical).2
  have parsed : Parses (instructionTokens instruction) _ :=
    .word (fills_canonical fit) fun slot _ _ => inside slot
  rw [translate_eq, tokenize_sourceLine, parsed.translateTokens_eq unbroken, Instruction.word,
    canonical.toWord_eq]
  rfl

-----------------------------------------------------------------------------------------
-- Source texts of images
-----------------------------------------------------------------------------------------

theorem translate_eq_ok_iff {text : String} {word : Int}
    : translate text = .ok word ↔ ∃ issue, issueLine text = .ok issue ∧ issue.word = word := by
  unfold translate
  cases issueLine text <;> simp [Except.map, Except.mapError]

/-- The source lines of instructions assemble to their canonical words, by induction on the
instructions.
-/
theorem assembleLines_sourceLines (unit : Option String) {instructions : List Instruction}
    (fit : ∀ instruction ∈ instructions, instruction.fields.Fit) (number : Nat)
    : (assembleLines unit number
        (instructions.map fun instruction => (sourceLine instruction).toList)).result
      = .ok (instructions.map fun instruction => instruction.canonical.word) := by
  induction instructions generalizing number with
  | nil => rfl
  | cons instruction instructions ih =>
      obtain ⟨here, rest⟩ := List.forall_mem_cons.mp fit
      have trimmed := trimLine_sourceLine instruction
      obtain ⟨issue, issued, same⟩ := translate_eq_ok_iff.mp (translate_sourceLine here)
      rw [List.map_cons, assembleLines, trimmed,
        if_pos (isCode_sourceLine instruction), Logged.result_andThen, assembleLine,
        trimmed, String.ofList_toList, issued]
      simp only [Logged.result_after, Logged.result_value, Logged.result_map, Except.bind,
        ih rest (number + 1), Except.map, List.map_cons, same]

/-- The source text of an image, one line for each word of a known operation. -/
def disassemble (image : Image) : String :=
  Text.unlines ((image.words.filterMap Instruction.ofWord?).map sourceLine)

/-- The source text of an image assembles to the canonical image. -/
theorem assemble_disassemble (image : Image)
    : (assemble (disassemble image)).result = .ok image.canonical := by
  have fit : ∀ instruction ∈ image.words.filterMap Instruction.ofWord?, instruction.fields.Fit := by
    intro instruction member
    obtain ⟨word, _, found⟩ := List.mem_filterMap.mp member
    exact Instruction.fit_of_ofWord? found
  have lines : ∀ line ∈ (image.words.filterMap Instruction.ofWord?).map sourceLine,
      ∀ c ∈ line.toList, Text.isLineTerminator c = false := by
    intro line member
    obtain ⟨instruction, _, rfl⟩ := List.mem_map.mp member
    exact sourceLine_lineTerminator instruction
  have assembled := assembleLines_sourceLines none fit 1
  rw [assemble, Logged.result_map, assembleWords, disassemble, Text.splitLines_unlines lines,
    List.map_map]
  simp only [Function.comp_def, assembled, Except.map, Image.canonical]

/-- The words of instruction lines are the canonical words. A line fills only the slots that its
operation takes, so that the word which it gives is canonical already.
-/
theorem exists_translate_iff (word : Int)
    : (∃ text, translate text = .ok word)
      ↔ ∃ original instruction,
          IsWord original
          ∧ Instruction.ofWord? original = some instruction
          ∧ word = instruction.canonical.word := by
  constructor
  · intro h
    obtain ⟨text, translated⟩ := h
    have parsed : Parses (tokenize text) (.ok word) := by
      rw [← translated, translate_eq]
      exact parses_translateTokens fun token member => (token_unbroken member).2
    generalize tokenize text = tokens at parsed
    cases parsed with
    | @word operation tokens operands filled inside =>
        have fit : (Instruction.mk operation operands).fields.Fit := filled.fit inside
        have canonical
            : (Instruction.mk operation operands).canonical = ⟨operation, operands⟩ := by
          apply congrArg (Instruction.mk operation)
          refine Operands.restrict_eq_self fun slot unlisted => ?_
          refine filled.zero slot fun entry member same => unlisted ?_
          rw [← same]
          exact List.mem_map_of_mem (List.of_mem_zip member).1
        rw [← (filled.fit inside).toWord_eq]
        refine ⟨_, _, fit.isWord_toWord, Instruction.ofWord?_word fit, ?_⟩
        rw [canonical]
        rfl
  · intro h
    obtain ⟨original, instruction, _, found, rfl⟩ := h
    exact ⟨sourceLine instruction, translate_sourceLine (Instruction.fit_of_ofWord? found)⟩

/-- Assembler and machine agree on the operands of every operation, and every binary of known
operations has a source.
A word of a known operation is executed like the word in which the operands that the operation does
not take are zero, and the source line of the instruction gives this word. An image of whole words
of known operations is executed and run like the one that its source text assembles to. No line
gives any other words.
-/
theorem disassembly_faithful
    : (∀ word instruction,
        Instruction.ofWord? word = some instruction
        → instruction.word = toUnsigned word
          ∧ (∀ machine : Machine,
              (machine.step word).Alike (machine.step instruction.canonical.word))
          ∧ translate (sourceLine instruction) = .ok instruction.canonical.word)
      ∧ (∀ image : Image,
          image.length % 4 = 0
          → (∀ word ∈ image.words,
              ∃ operation, Operation.ofCode? (Fields.ofWord word).opcode = some operation)
          → ∃ assembled,
              (assemble (disassemble image)).result = .ok assembled
              ∧ ∀ machine : Machine,
                  (machine.execute image).Alike (machine.execute assembled)
                  ∧ (machine.run image).Alike (machine.run assembled))
      ∧ ∀ word,
          (∃ text, translate text = .ok word)
          ↔ ∃ original instruction,
              IsWord original
              ∧ Instruction.ofWord? original = some instruction
              ∧ word = instruction.canonical.word := by
  refine ⟨fun word instruction found => ?_, fun image whole known => ?_, exists_translate_iff⟩
  · have fit := Instruction.fit_of_ofWord? found
    refine ⟨?_, Machine.step_canonical_alike found, translate_sourceLine fit⟩
    rw [Instruction.word, Instruction.fields_of_ofWord? found, Fields.toWord_ofWord]
  · refine ⟨_, assemble_disassemble image, fun machine => ?_⟩
    have alike := fun machine => Machine.execute_canonical_alike whole known machine
    exact ⟨alike machine, Machine.run_alike alike machine⟩

/-- A third operand of a copy is dropped on the way through the source text. -/
theorem disassembly_faithful_copy
    : translate (sourceLine ⟨.copy, ⟨1, 2, 300⟩⟩) = .ok 32824
      ∧ (∀ machine : Machine, (machine.step 2516615224).Alike (machine.step 32824))
      ∧ ∃ assembled,
          (assemble (disassemble [56, 128, 0, 150])).result = .ok assembled
          ∧ ∀ machine : Machine,
              (machine.run [56, 128, 0, 150]).Alike (machine.run assembled) := by
  have found : Instruction.ofWord? 2516615224 = some ⟨.copy, ⟨1, 2, 300⟩⟩ := rfl
  have word : (Instruction.canonical ⟨.copy, ⟨1, 2, 300⟩⟩).word = 32824 := by
    have fit := Instruction.fit_canonical (Instruction.fit_of_ofWord? found)
    rw [Instruction.word, fit.toWord_eq]
    rfl
  have words : Image.words [56, 128, 0, 150] = [2516615224] := rfl
  obtain ⟨_, step, translated⟩ := disassembly_faithful.1 _ _ found
  rw [word] at step translated
  obtain ⟨assembled, result, alike⟩ := disassembly_faithful.2.1 [56, 128, 0, 150] rfl (by
    intro word member
    rw [words, List.mem_singleton] at member
    exact ⟨.copy, by rw [member]; rfl⟩)
  exact ⟨translated, step, assembled, result, fun machine => (alike machine).2⟩

end Assembly

end RegisterMachine
