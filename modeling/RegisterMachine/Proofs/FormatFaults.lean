import RegisterMachine.Proofs.AssembledWords
import RegisterMachine.Proofs.OperandChecks
import RegisterMachine.Proofs.OutputTexts
import RegisterMachine.Proofs.RunInvariants

/-! Assembled programs on a full machine have no format faults.
Their words are whole and of known operations, every operand names a register, and the functions of
the operations are defined wherever they are applied.
-/

namespace RegisterMachine

-----------------------------------------------------------------------------------------
-- Causes of faults
-----------------------------------------------------------------------------------------

/-- The faults that operands can have: an operand that names no register, or a base without
numerals.
-/
inductive OperandFault (registers : Registers) (operands : Operands) : Fault → Prop
  | register (slot : Slot) (missing : ¬ registers.Contains (operands.get slot))
    : OperandFault registers operands (.index ⟨operands.get slot, registers.size⟩)
  | base (slot : Slot) (invalid : ¬ IsBase (operands.get slot))
    : OperandFault registers operands (.base ⟨operands.get slot⟩)

/-- A computation has no faults but those of operands. -/
def FailsByOperand {α : Type} (registers : Registers) (operands : Operands)
    (result : Except Fault α)
    : Prop :=
  ∀ fault, result = .error fault → OperandFault registers operands fault

/-- An action whose function is defined has no faults but those of its operands. -/
theorem Action.failsByOperand_effect {action : Action} (defined : action.Defined)
    (registers : Registers) (operands : Operands)
    : FailsByOperand registers operands (action.effect registers operands) := by
  intro fault failed
  have first := (action.checked_effect defined registers operands fault).mp failed
  obtain ⟨check, found, rfl⟩ := Option.map_eq_some_iff.mp first
  have fails : ¬ check.Passes registers operands := by simpa using List.find?_some found
  cases check with
  | register slot => exact .register slot fails
  | base slot => exact .base slot fails

-----------------------------------------------------------------------------------------
-- Words with a calm prompt
-----------------------------------------------------------------------------------------

/-- No answer to come is a failure. -/
def Prompt.Calm (prompt : Prompt) : Prop :=
  ∀ answers, prompt = some answers → ∀ failure, .failed failure ∉ answers

/-- The answer that a calm prompt gives is no failure, and the prompt stays calm. -/
theorem Prompt.Calm.nextAnswer {answers : List Answer} (calm : Prompt.Calm (some answers))
    : (∀ failure, (RegisterMachine.nextAnswer answers).1 ≠ .failed failure)
      ∧ Prompt.Calm (some (RegisterMachine.nextAnswer answers).2) := by
  cases answers with
  | nil => exact ⟨by simp [RegisterMachine.nextAnswer], calm⟩
  | cons answer rest =>
      constructor
      · rintro failure rfl
        exact calm _ rfl failure List.mem_cons_self
      · rintro _ ⟨⟩ failure member
        exact calm _ rfl failure (List.mem_cons_of_mem answer member)

/-- The lines that a word can write when the prompt does not fail: there is no such operation, or
one of its operands is no good, or it writes what its rule says, or its question is not answered, or
answered with a text that is no numeral.
-/
inductive Written (registers : Registers) (word : Int) : Line → Prop
  | unknown (foreign : Operation.ofCode? (Fields.ofWord word).opcode = none)
    : Written registers word (.unknownOpcode (Fields.ofWord word).opcode)
  | fault {fault} (cause : OperandFault registers (Fields.ofWord word).operands fault)
    : Written registers word (.fault fault)
  | report {action lines line}
    (rule : Yields registers (Fields.ofWord word).operands action (.report lines))
    (member : line ∈ lines)
    : Written registers word line
  | cancelled : Written registers word .inputCancelled
  | invalidInput : Written registers word .invalidInput

/-- The registers keep their number, and the prompt stays calm. -/
structure Machine.Steady (size : Nat) (machine : Machine) : Prop where
  size : machine.registers.size = size
  calm : machine.prompt.Calm

/-- A run of a word that is not cut short and writes what words can write. -/
abbrev Outcome.Steady (registers : Registers) (word : Int) (outcome : Outcome) : Prop :=
  outcome.Within (Machine.Steady registers.size) (Written registers word) fun _ => False

namespace Machine

variable {registers : Registers} {word : Int} {machine : Machine}

theorem Steady.withRegisters {size : Nat} (h : machine.Steady size) {registers : Registers}
    (same : registers.size = machine.registers.size)
    : (machine.withRegisters registers).Steady size :=
  ⟨same.trans h.size, h.calm⟩

theorem accept_steady (h : machine.Steady registers.size) (question : Question) {answer : Answer}
    (calm : ∀ failure, answer ≠ .failed failure)
    : (machine.accept question answer).Steady registers word := by
  cases answer with
  | failed failure => exact (calm failure rfl).elim
  | cancelled => exact Outcome.within_writing h (List.forall_mem_singleton.mpr .cancelled)
  | entered text =>
      rw [accept]
      split
      · exact Outcome.within_idle (h.withRegisters (Registers.size_store _ _ _))
      · refine Outcome.Within.after (Outcome.within_writing h ?_) _
        exact List.forall_mem_singleton.mpr .invalidInput

theorem ask_steady (h : machine.Steady registers.size) (question : Question)
    : (machine.ask question).Steady registers word := by
  obtain ⟨_, prompt⟩ := machine
  obtain ⟨size, calm⟩ := h
  cases prompt with
  | none => exact Outcome.within_writing ⟨size, calm⟩ (List.forall_mem_singleton.mpr .cancelled)
  | some answers =>
      obtain ⟨given, later⟩ := calm.nextAnswer
      have state : Steady registers.size ⟨_, some (nextAnswer answers).2⟩ := ⟨size, later⟩
      exact (accept_steady state question given).after _

/-- A word with a calm prompt is not stopped, and every line that it writes has its reason. -/
theorem step_steady (calm : machine.prompt.Calm) (word : Int)
    : (machine.step word).Steady machine.registers word := by
  have steady : machine.Steady machine.registers.size := ⟨rfl, calm⟩
  rw [step]
  cases known : Operation.ofCode? (Fields.ofWord word).opcode with
  | none => exact Outcome.within_writing steady (List.forall_mem_singleton.mpr (.unknown known))
  | some operation =>
      refine Outcome.Within.after ?_ _
      rw [perform]
      cases result : operation.action.effect machine.registers (Fields.ofWord word).operands with
      | error fault =>
          have cause := Action.failsByOperand_effect operation.action_defined _ _ fault result
          exact Outcome.within_writing steady (List.forall_mem_singleton.mpr (.fault cause))
      | ok effect =>
          have rule := Action.effect_eq_ok_iff.mp result
          cases effect with
          | write stores =>
              exact Outcome.within_idle (steady.withRegisters (Registers.size_storeAll _ _))
          | report lines =>
              exact Outcome.within_writing steady fun line member => .report rule member
          | ask question => exact ask_steady steady question

end Machine

-----------------------------------------------------------------------------------------
-- Words on a full machine
-----------------------------------------------------------------------------------------

/-- A full machine with a calm prompt. -/
structure Machine.Sound (machine : Machine) : Prop where
  full : machine.registers.size = registerCount
  calm : machine.prompt.Calm

/-- The lines of an effect on a full machine are ordinary, by cases on the rules. -/
theorem Yields.report_ordinary {registers : Registers} {operands : Operands} {action : Action}
    {lines : List Line} (h : Yields registers operands action (.report lines))
    (full : registers.size = registerCount)
    : ∀ line ∈ lines, OrdinaryText line.text := by
  cases h with
  | printAll base =>
      intro line member
      rcases List.mem_cons.mp member with rfl | member
      · exact .heading
      · obtain ⟨⟨value, index⟩, cell, rfl⟩ := List.mem_map.mp member
        have below : index < registers.size := (List.mem_zipIdx' cell).1
        exact .register (by omega) (by simp only [registerCount] at full; omega) base
  | printOne source base =>
      obtain ⟨low, high⟩ := source
      refine List.forall_mem_singleton.mpr ?_
      exact .register low (by simp only [registerCount] at full; omega) base
  | zeroDivisor | byteIndex | byteValue =>
      exact List.forall_mem_singleton.mpr (.complaint (by decide))

/-- A fault of an operand on a full machine is about a base, because no operand is greater than the
index of the last register.
-/
theorem OperandFault.ordinary {registers : Registers} {word : Int} {fault : Fault}
    (h : OperandFault registers (Fields.ofWord word).operands fault)
    (full : registers.size = registerCount)
    : OrdinaryText (Line.fault fault).text := by
  cases h with
  | base slot invalid => exact .complaint List.mem_cons_self
  | register slot missing =>
      obtain ⟨low, high⟩ := ((Fields.fit_iff _).mp (Fields.fit_ofWord word)).2 slot
      exact (missing ⟨low, by rw [full, registerCount]; omega⟩).elim

/-- The line of a word of a known operation is ordinary on a full machine. -/
theorem Written.ordinary {registers : Registers} {word : Int} {line : Line}
    (h : Written registers word line)
    (known : ∃ operation, Operation.ofCode? (Fields.ofWord word).opcode = some operation)
    (full : registers.size = registerCount)
    : OrdinaryText line.text := by
  cases h with
  | unknown foreign =>
      obtain ⟨operation, known⟩ := known
      cases foreign.symm.trans known
  | fault cause => exact cause.ordinary full
  | report rule member => exact rule.report_ordinary full line member
  | cancelled => exact .cancelled
  | invalidInput => exact .complaint (by decide)

/-- A run that keeps a machine sound, writes ordinary lines only, and is not cut short. -/
abbrev Outcome.Ordinary (outcome : Outcome) : Prop :=
  outcome.Within Machine.Sound (fun line => OrdinaryText line.text) fun _ => False

namespace Machine

theorem Sound.withRegisters {machine : Machine} (h : machine.Sound) {registers : Registers}
    (same : registers.size = machine.registers.size)
    : (machine.withRegisters registers).Sound :=
  ⟨same.trans h.full, h.calm⟩

/-- A word of a known operation has no format fault on a full machine. -/
theorem step_ordinary {word : Int}
    (known : ∃ operation, Operation.ofCode? (Fields.ofWord word).opcode = some operation)
    {machine : Machine} (h : machine.Sound)
    : (machine.step word).Ordinary :=
  (step_steady h.calm word).mono
    (fun _ steady => ⟨steady.size.trans h.full, steady.calm⟩)
    (fun _ written => written.ordinary known h.full)

/-- Well-assembled programs cannot hit format faults.
If a source text assembles, its image is run to the end on every full machine whose prompt does not
fail. All lines of the run are ordinary, and none is about an unknown operation, a partial word or a
missing register.
-/
theorem run_assembled_ordinary {source : String} {image : Image}
    (assembled : (Assembly.assemble source).result = .ok image) {machine : Machine}
    (full : machine.registers.size = registerCount) (calm : machine.prompt.Calm)
    : (machine.run image).escaped = none
      ∧ ∀ line ∈ (machine.run image).lines,
          OrdinaryText line.text ∧ ¬ IsFormatFault line.text := by
  obtain ⟨words, found, rfl⟩ := Assembly.assemble_eq_ok assembled
  have known := Assembly.exists_operation_of_assembleLines found
  have sound : machine.Sound := ⟨full, calm⟩
  -- Each step may start in any state that the steps before it can have left.
  have ordinary : (machine.run (Image.ofWords words)).Ordinary := by
    refine run_within ?_ ?_ (sound.withRegisters (Registers.size_clear _))
    · rw [Image.words_ofWords (Assembly.isWord_of_assembleLines found)]
      exact fun word member machine state => step_ordinary (known word member) state
    · rw [Image.truncation?_ofWords]
      exact nofun
  refine ⟨Option.eq_none_iff_forall_ne_some.mpr ordinary.failures, fun line member => ?_⟩
  exact ⟨ordinary.lines line member, (ordinary.lines line member).not_isFormatFault⟩

/-- The last register, a divisor of zero and a base that is too great make ordinary lines. -/
theorem run_assembled_ordinary_division
    : (Assembly.assemble "InputOperand R511 7\nDivision R511 R0 R1\nPrintOperand R511 37").result
        = .ok [242, 255, 1, 0, 237, 63, 128, 0, 241, 127, 9, 0]
      ∧ Registers.full.size = registerCount
      ∧ Prompt.Calm (some [.entered "12"])
      ∧ ∀ line
          ∈ (run ⟨.full, some [.entered "12"]⟩
              [242, 255, 1, 0, 237, 63, 128, 0, 241, 127, 9, 0]).lines,
          OrdinaryText line.text := by
  have assembled
      : (Assembly.assemble
            "InputOperand R511 7\nDivision R511 R0 R1\nPrintOperand R511 37").result
        = .ok [242, 255, 1, 0, 237, 63, 128, 0, 241, 127, 9, 0] :=
    eq_ok_of_toOption (by decide +kernel)
  have full : Registers.full.size = registerCount := Registers.size_zeros _
  have calm : Prompt.Calm (some [.entered "12"]) := by
    rintro _ ⟨⟩ failure member
    cases List.mem_singleton.mp member
  have ordinary :=
    @run_assembled_ordinary _ _ assembled ⟨.full, some [.entered "12"]⟩ full calm
  exact ⟨assembled, full, calm, fun line member => (ordinary.2 line member).1⟩

end Machine

end RegisterMachine
