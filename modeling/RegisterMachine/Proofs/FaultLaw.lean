import RegisterMachine.Proofs.FormatFaults
import RegisterMachine.Proofs.WordEffects

/-! The law of faults.
An instruction looks at its operands one by one, and the first one that is no good decides the line
that it writes. Nothing else in the registers can make an instruction fail.
-/

namespace RegisterMachine

-----------------------------------------------------------------------------------------
-- Messages
-----------------------------------------------------------------------------------------

namespace Operation

/-- The operands of an operation that name registers, in the order in which they are looked at. -/
def accesses : Operation → List Slot
  | .printRegisters => []
  | .printOperand | .inputOperand => [.first]
  | .bitwiseInversion | .maxPowerOfTwo => [.first, .third]
  | .swap => [.first, .second]
  | .copy => [.second, .first]
  | _ => [.first, .second, .third]

/-- The operands that an instruction reaches when all before them name registers. A division by a
register that holds zero does not reach its destination.
-/
def reached (registers : Registers) (operands : Operands) (operation : Operation) : List Slot :=
  match operation with
  | .division | .modulo =>
      if registers.Contains operands.second ∧ registers.value operands.second = 0 then
        [.first, .second]
      else
        operation.accesses
  | _ => operation.accesses

/-- The operand that is the base of numerals. -/
def baseSlot? : Operation → Option Slot
  | .printRegisters => some .first
  | .printOperand | .inputOperand => some .second
  | _ => none

/-- An operation checks the operands that it reaches, and then its base if it has one. -/
theorem checks_action (registers : Registers) (operands : Operands) (operation : Operation)
    : operation.action.checks registers operands
      = (operation.reached registers operands).map .register
        ++ (operation.baseSlot?.map .base).toList := by
  cases operation with
  | division | modulo =>
      simp only [action, Action.checks, reached, accesses, baseSlot?, Option.map_none,
        Option.toList_none, List.append_nil]
      split <;> rfl
  | _ => rfl

end Operation

/-- The messages of faults. An operand that is reached names no register, while all that are reached
before it do; or all that are reached name registers and the base has no numerals.
-/
inductive FaultMessage (registers : Registers) (operands : Operands) (operation : Operation)
    : String → Prop
  | register (slot : Slot)
    (first
      : (operation.reached registers operands).find?
          (fun slot => registers.size ≤ operands.get slot)
        = some slot)
    : FaultMessage registers operands operation
        ("Register index " ++ decimal (operands.get slot) ++ " out of range (0-"
          ++ decimal ((registers.size : Int) - 1) ++ ")")
  | base (slot : Slot)
    (present
      : ∀ other ∈ operation.reached registers operands, operands.get other < registers.size)
    (source : operation.baseSlot? = some slot) (invalid : ¬ IsBase (operands.get slot))
    : FaultMessage registers operands operation "Invalid Base."

section Messages

variable {registers : Registers} {operands : Operands}

theorem firstFault?_append (earlier later : List Check)
    : firstFault? registers operands (earlier ++ later)
      = (firstFault? registers operands earlier).or (firstFault? registers operands later) := by
  rw [firstFault?, List.find?_append]
  cases h : earlier.find? fun check => ¬ check.Passes registers operands with
  | none => simp only [firstFault?, h, Option.none_or, Option.map_none]
  | some check => simp only [firstFault?, h, Option.some_or, Option.map_some]

/-- The registers in a row of operands are checked against the size of the register file. -/
theorem firstFault?_registers (nonneg : ∀ slot, 0 ≤ operands.get slot) (slots : List Slot)
    : firstFault? registers operands (slots.map .register)
      = (slots.find? fun slot => registers.size ≤ operands.get slot).map
          fun slot => .index ⟨operands.get slot, registers.size⟩ := by
  have missing
      : (fun check : Check => decide (¬ check.Passes registers operands)) ∘ .register
        = fun slot => decide (registers.size ≤ operands.get slot) := by
    funext slot
    simp only [Function.comp, Check.Passes, Registers.Contains, nonneg slot, true_and, not_lt]
  rw [firstFault?, List.find?_map, missing, Option.map_map]
  rfl

/-- The base, where there is one, is checked for having numerals. -/
theorem firstFault?_base (source : Option Slot) (fault : Fault)
    : firstFault? registers operands (source.map .base).toList = some fault
      ↔ ∃ slot,
          source = some slot
          ∧ ¬ IsBase (operands.get slot)
          ∧ .base ⟨operands.get slot⟩ = fault := by
  cases source with
  | none => simp [firstFault?]
  | some slot =>
      rw [Option.map_some, Option.toList_some, firstFault?_cons]
      by_cases valid : IsBase (operands.get slot)
      · have passes : (Check.base slot).Passes registers operands := valid
        rw [if_pos passes]
        constructor
        · intro impossible
          cases impossible
        · rintro ⟨_, ⟨⟩, invalid, _⟩
          exact (invalid valid).elim
      · have fails : ¬ (Check.base slot).Passes registers operands := valid
        rw [if_neg fails, Option.some.injEq]
        constructor
        · intro same
          exact ⟨slot, rfl, valid, same⟩
        · rintro ⟨_, ⟨⟩, _, same⟩
          exact same

/-- The messages of faults are those of the first failing checks of operands that come from a word,
by whether an operand that is reached names no register.
-/
theorem faultMessage_iff (inside : ∀ slot, 0 ≤ operands.get slot ∧ operands.get slot ≤ 511)
    (operation : Operation) (message : String)
    : FaultMessage registers operands operation message
      ↔ ∃ fault,
          firstFault? registers operands (operation.action.checks registers operands) = some fault
          ∧ fault.message = message := by
  have worded (slot : Slot)
      : (Fault.index ⟨operands.get slot, registers.size⟩).message
        = "Register index " ++ decimal (operands.get slot) ++ " out of range (0-"
          ++ decimal ((registers.size : Int) - 1) ++ ")" :=
    IndexOutOfRange.message_eq (natAbs_lt_of_operand (inside slot))
  rw [operation.checks_action, firstFault?_append,
    firstFault?_registers fun slot => (inside slot).1]
  cases found : (operation.reached registers operands).find?
      fun slot => registers.size ≤ operands.get slot with
  | some slot =>
      constructor
      · intro h
        cases h with
        | register other first =>
            obtain rfl := Option.some.inj (found.symm.trans first)
            exact ⟨_, rfl, worded slot⟩
        | base _ present _ _ =>
            have missing : (registers.size : Int) ≤ operands.get slot := by
              simpa using List.find?_some found
            exact (missing.not_gt (present slot (List.mem_of_find?_eq_some found))).elim
      · intro h
        obtain ⟨_, ⟨⟩, rfl⟩ := h
        rw [worded]
        exact .register slot found
  | none =>
      have present : ∀ other ∈ operation.reached registers operands,
          operands.get other < registers.size := by
        simpa using found
      rw [Option.map_none, Option.none_or]
      constructor
      · intro h
        cases h with
        | register slot first => cases found.symm.trans first
        | base slot _ source invalid =>
            exact ⟨_, (firstFault?_base _ _).mpr ⟨slot, source, invalid, rfl⟩, rfl⟩
      · intro h
        obtain ⟨fault, failed, rfl⟩ := h
        obtain ⟨slot, source, invalid, rfl⟩ := (firstFault?_base _ _).mp failed
        exact .base slot present source invalid

/-- No fault of an instruction reads like a failure of the arithmetic. -/
theorem FaultMessage.ne_arithmetic {operation : Operation} {message : String}
    (h : FaultMessage registers operands operation message) (error : ArithmeticError)
    : message ≠ error.message := by
  cases h with
  | register slot first =>
      intro same
      have begins : "Register index ".toList <+: error.message.toList := by
        simp only [← same, String.toList_append, List.append_assoc]
        exact List.prefix_append _ _
      cases error <;> exact absurd begins (by decide)
  | base => cases error <;> decide

end Messages

-----------------------------------------------------------------------------------------
-- Lines
-----------------------------------------------------------------------------------------

theorem begins_as_fault {text message : String}
    (same : text = "Error during instruction execution: " ++ message)
    : "Error during instruction execution: ".toList <+: text.toList := by
  rw [same, String.toList_append]
  exact List.prefix_append _ _

/-- Only the line of a fault reads like one, by cases on the line. -/
theorem Line.text_eq_fault_iff {line : Line} {message : String}
    : line.text = "Error during instruction execution: " ++ message
      ↔ ∃ cause, line = .fault cause ∧ cause.message = message := by
  constructor
  · intro same
    cases line with
    | fault cause =>
        exact ⟨cause, rfl,
          (String.append_right_inj "Error during instruction execution: ").mp same⟩
    | register index numeral =>
        have regrouped
            : "R" ++ (decimal index ++ (": " ++ numeral))
              = "Error during instruction execution: " ++ message := by
          rw [← String.append_assoc, ← String.append_assoc]
          exact same
        exact (append_ne_append (by decide) (by decide) _ message regrouped).elim
    | unknownOpcode opcode =>
        exact (@append_ne_append "Error: Unknown opcode " _ (by decide) (by decide) _ message
          same).elim
    | truncated cause =>
        exact (@append_ne_append "Error: " _ (by decide) (by decide) _ message same).elim
    | _ => exact absurd (begins_as_fault same) (by decide)
  · intro h
    obtain ⟨cause, rfl, rfl⟩ := h
    rfl

/-- An effect reports no fault, by cases on the rules. -/
theorem Yields.fault_not_mem {registers : Registers} {operands : Operands} {action : Action}
    {lines : List Line} (h : Yields registers operands action (.report lines)) (cause : Fault)
    : .fault cause ∉ lines := by
  cases h with
  | printAll base => simp [Registers.listing]
  | printOne | zeroDivisor | byteIndex | byteValue => simp

-----------------------------------------------------------------------------------------
-- Words
-----------------------------------------------------------------------------------------

namespace Machine

variable {machine : Machine} {word : Int} {operation : Operation}

theorem accept_fault_not_mem (machine : Machine) (question : Question) {answer : Answer}
    (calm : ∀ failure, answer ≠ .failed failure) (cause : Fault)
    : .fault cause ∉ (machine.accept question answer).lines := by
  cases answer with
  | failed failure => exact (calm failure rfl).elim
  | cancelled => simp [accept, Outcome.writing]
  | entered text =>
      rw [accept]
      split <;> simp [Outcome.idle, Outcome.after, Outcome.writing]

theorem ask_fault_not_mem (calm : machine.prompt.Calm) (question : Question) (cause : Fault)
    : .fault cause ∉ (machine.ask question).lines := by
  obtain ⟨registers, prompt⟩ := machine
  cases prompt with
  | none => simp [ask, Outcome.writing]
  | some answers => exact accept_fault_not_mem _ question calm.nextAnswer.1 cause

/-- An instruction without an effect writes a line about its fault and does nothing else. -/
theorem step_of_fault
    (known : Operation.ofCode? (Fields.ofWord word).opcode = some operation) {cause : Fault}
    (failed
      : operation.action.effect machine.registers (Fields.ofWord word).operands = .error cause)
    : (machine.step word).lines = [.fault cause]
      ∧ (machine.step word).machine = machine
      ∧ (machine.step word).escaped = none := by
  have effect : machine.registers.wordEffect word = .report [.fault cause] := by
    simp only [Registers.wordEffect, known, failed]
  obtain ⟨reached, lines, _, escaped⟩ := machine.step_alike_carryOut word
  rw [reached, lines, escaped, effect]
  exact ⟨rfl, rfl, rfl⟩

/-- With a calm prompt a word writes about a fault only if it has no effect. -/
theorem fault_mem_step_iff
    (known : Operation.ofCode? (Fields.ofWord word).opcode = some operation)
    (calm : machine.prompt.Calm) (cause : Fault)
    : .fault cause ∈ (machine.step word).lines
      ↔ operation.action.effect machine.registers (Fields.ofWord word).operands
        = .error cause := by
  cases result : operation.action.effect machine.registers (Fields.ofWord word).operands with
  | error fault =>
      rw [(step_of_fault known result).1, List.mem_singleton]
      simp only [Line.fault.injEq, Except.error.injEq, eq_comm]
  | ok effect =>
      have rule := Action.effect_eq_ok_iff.mp result
      have silent : .fault cause ∉ (machine.step word).lines := by
        rw [(machine.step_alike_carryOut word).lines, Registers.wordEffect_of_yields known rule]
        cases effect with
        | write stores => exact List.not_mem_nil
        | report lines => exact rule.fault_not_mem cause
        | ask question => exact ask_fault_not_mem calm question cause
      exact ⟨fun h => (silent h).elim, nofun⟩

/-- The fault law of instructions on register files of any size.
With a prompt that does not fail, a word of a known operation writes a line about a fault exactly
with one of two messages. The first register operand in the order of the operation that names no
register is named with the bounds of the register file; or, where there is none, the operand that is
a base has no numerals. Such a line is the only one and nothing is changed. Divisions by a register
that holds zero say so whatever their destination is. No contents of the registers lead to a failure
of the arithmetic itself.
-/
theorem step_fault_law
    (known : Operation.ofCode? (Fields.ofWord word).opcode = some operation)
    (calm : machine.prompt.Calm)
    : (∀ message,
        (∃ line ∈ (machine.step word).lines,
          line.text = "Error during instruction execution: " ++ message)
        ↔ FaultMessage machine.registers (Fields.ofWord word).operands operation message)
      ∧ (∀ message,
        FaultMessage machine.registers (Fields.ofWord word).operands operation message
        → (machine.step word).lines.map Line.text
            = ["Error during instruction execution: " ++ message]
          ∧ (machine.step word).machine = machine
          ∧ (machine.step word).escaped = none)
      ∧ (operation = .division ∨ operation = .modulo
        → (Fields.ofWord word).operands.first < machine.registers.size
        → (Fields.ofWord word).operands.second < machine.registers.size
        → machine.registers.value (Fields.ofWord word).operands.second = 0
        → (machine.step word).lines.map Line.text = ["Error: Division by zero."])
      ∧ ∀ error : ArithmeticError, ∀ line ∈ (machine.step word).lines,
          line.text ≠ "Error during instruction execution: " ++ error.message := by
  have inside := ((Fields.fit_iff _).mp (Fields.fit_ofWord word)).2
  have checked :=
    Action.checked_effect operation.action_defined machine.registers (Fields.ofWord word).operands
  have law (message : String)
      : FaultMessage machine.registers (Fields.ofWord word).operands operation message
        ↔ ∃ fault,
            operation.action.effect machine.registers (Fields.ofWord word).operands = .error fault
            ∧ fault.message = message := by
    simp only [faultMessage_iff inside, checked _]
  have written (message : String)
      : (∃ line ∈ (machine.step word).lines,
          line.text = "Error during instruction execution: " ++ message)
        ↔ FaultMessage machine.registers (Fields.ofWord word).operands operation message := by
    simp only [law, Line.text_eq_fault_iff, ← fault_mem_step_iff known calm]
    constructor
    · rintro ⟨_, member, fault, rfl, same⟩
      exact ⟨fault, member, same⟩
    · rintro ⟨fault, member, same⟩
      exact ⟨_, member, fault, rfl, same⟩
  refine ⟨written, fun message h => ?_, fun divides first second zero => ?_,
    fun error line member same => ?_⟩
  · obtain ⟨fault, failed, rfl⟩ := (law message).mp h
    obtain ⟨lines, same, escaped⟩ := step_of_fault known failed
    exact ⟨by rw [lines]; rfl, same, escaped⟩
  · have rule
        : Yields machine.registers (Fields.ofWord word).operands operation.action
            (.report [.divisionByZero]) := by
      rcases divides with rfl | rfl <;>
        exact .zeroDivisor ⟨(inside .first).1, first⟩ ⟨(inside .second).1, second⟩ zero
    rw [(machine.step_alike_carryOut word).lines, Registers.wordEffect_of_yields known rule]
    rfl
  · exact ((written error.message).mp ⟨line, member, same⟩).ne_arithmetic error rfl

/-- A copy looks at its source before its destination. -/
theorem step_fault_law_copy
    : Operation.ofCode? (Fields.ofWord 114872).opcode = some .copy
      ∧ Prompt.Calm none
      ∧ (step ⟨.zeros 3, none⟩ 114872).lines.map Line.text
        = ["Error during instruction execution: Register index 7 out of range (0-2)"] := by
  have known : Operation.ofCode? (Fields.ofWord 114872).opcode = some .copy := by decide +kernel
  have calm : Prompt.Calm none := nofun
  have law := @step_fault_law ⟨.zeros 3, none⟩ 114872 .copy known calm
  have first
      : (Operation.reached (.zeros 3) (Fields.ofWord 114872).operands .copy).find?
          (fun slot => (Registers.zeros 3).size ≤ (Fields.ofWord 114872).operands.get slot)
        = some .second := by
    decide +kernel
  have text
      : "Error during instruction execution: "
            ++ ("Register index " ++ decimal ((Fields.ofWord 114872).operands.get .second)
              ++ " out of range (0-" ++ decimal ((Registers.zeros 3).size - 1) ++ ")")
        = "Error during instruction execution: Register index 7 out of range (0-2)" := by
    decide +kernel
  have written := (law.2.1 _ (.register .second first)).1
  exact ⟨known, calm, written.trans (congrArg (fun text => [text]) text)⟩

end Machine

end RegisterMachine
