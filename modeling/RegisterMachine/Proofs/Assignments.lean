import RegisterMachine.Proofs.Footprints

/-! Runs that give one register a value, and runs that only write a line.
On a full machine every operand names a register, so that an operation with two sources gives its
destination a function of their values, whatever registers the operands name.
-/

namespace RegisterMachine

-----------------------------------------------------------------------------------------
-- Runs that change one register at most
-----------------------------------------------------------------------------------------

/-- A run that gives a register a value and does nothing else to the machine on which it starts:
all other registers keep their values, nothing is written or asked, and nothing cuts it short.
-/
structure Outcome.Assigns (start : Machine) (index value : Int) (outcome : Outcome) : Prop where
  held : outcome.machine.registers.get index = .ok value
  frame
    : ∀ other,
        other ≠ index → outcome.machine.registers.get other = start.registers.get other
  size : outcome.machine.registers.size = start.registers.size
  prompt : outcome.machine.prompt = start.prompt
  silent : outcome.lines = []
  unasked : outcome.questions = []
  whole : outcome.escaped = none

/-- A run that writes one line and leaves the machine on which it starts as it was. -/
structure Outcome.Complains (start : Machine) (text : String) (outcome : Outcome) : Prop where
  kept : outcome.machine = start
  said : outcome.lines.map Line.text = [text]
  unasked : outcome.questions = []
  whole : outcome.escaped = none

namespace Outcome

variable {start : Machine} {index value : Int} {first second : Outcome}

/-- Runs that give a register the same value leave the same machine. -/
theorem Assigns.machine_eq (h : first.Assigns start index value)
    (h' : second.Assigns start index value)
    : first.machine = second.machine := by
  have registers : first.machine.registers = second.machine.registers := by
    apply Registers.ext_get (h.size.trans h'.size.symm)
    intro other
    by_cases same : other = index
    · rw [same, h.held, h'.held]
    · rw [h.frame other same, h'.frame other same]
  exact congrArg₂ Machine.mk registers (h.prompt.trans h'.prompt.symm)

/-- Doing nothing gives a register the value that it has. -/
theorem idle_assigns (held : start.registers.get index = .ok value)
    : (idle start).Assigns start index value :=
  ⟨held, fun _ _ => rfl, rfl, rfl, rfl, rfl, rfl⟩

/-- Giving a register the value that it has changes nothing. -/
theorem Assigns.machine_eq_start (h : first.Assigns start index value)
    (held : start.registers.get index = .ok value)
    : first.machine = start :=
  h.machine_eq (idle_assigns held)

/-- Of two values that a register is given one after the other the second one stays. -/
theorem Assigns.andThen {next : Machine → Outcome} {later : Int}
    (h : first.Assigns start index value)
    (hnext : (next first.machine).Assigns first.machine index later)
    : (first.andThen next).Assigns start index later := by
  have reached := machine_andThen h.whole next
  refine ⟨?_, fun other different => ?_, ?_, ?_, ?_, ?_, ?_⟩
  · rw [reached, hnext.held]
  · rw [reached, hnext.frame other different, h.frame other different]
  · rw [reached, hnext.size, h.size]
  · rw [reached, hnext.prompt, h.prompt]
  · rw [lines_andThen h.whole, h.silent, hnext.silent, List.append_nil]
  · rw [questions_andThen h.whole, h.unasked, hnext.unasked, List.append_nil]
  · rw [escaped_andThen h.whole, hnext.whole]

end Outcome

-----------------------------------------------------------------------------------------
-- Words
-----------------------------------------------------------------------------------------

namespace Machine

variable {machine : Machine} {word : Int}

/-- A word whose effect is a single store gives a register the signed view of a value. -/
theorem step_assigns {index value : Int}
    (effect : machine.registers.wordEffect word = .write [(index, value)])
    : (machine.step word).Assigns machine index (toSigned value) := by
  have contained : machine.registers.Contains index :=
    (Registers.wordEffect_write_reachable effect).2 (index, value) List.mem_cons_self
  obtain ⟨reached, lines, questions, escaped⟩ := machine.step_alike_carryOut word
  rw [effect] at reached lines questions escaped
  have stored : (machine.step word).machine.registers = machine.registers.store index value := by
    rw [reached]
    rfl
  refine ⟨?_, fun other different => ?_, machine.size_step word, ?_, lines, questions, escaped⟩
  · rw [stored, Registers.get_store contained, if_pos rfl]
  · rw [stored, Registers.get_store contained, if_neg different]
  · rw [reached]
    rfl

/-- A word whose effect is a line does nothing but write it. -/
theorem step_complains {line : Line}
    (effect : machine.registers.wordEffect word = .report [line])
    : (machine.step word).Complains machine line.text := by
  obtain ⟨reached, lines, questions, escaped⟩ := machine.step_alike_carryOut word
  rw [effect] at reached lines questions escaped
  exact ⟨reached, by rw [lines]; rfl, questions, escaped⟩

end Machine

/-- On a full machine every operand of a word names a register. -/
theorem Registers.contains_operand {registers : Registers} (full : registers.size = registerCount)
    (word : Int) (slot : Slot)
    : registers.Contains ((Fields.ofWord word).operands.get slot) := by
  obtain ⟨low, high⟩ := ((Fields.fit_iff _).mp (Fields.fit_ofWord word)).2 slot
  refine ⟨low, ?_⟩
  rw [full, registerCount]
  omega

-----------------------------------------------------------------------------------------
-- Operations with two sources
-----------------------------------------------------------------------------------------

namespace Operation

/-- Every word of an operation that finds two values in the registers of its first two operands
gives a result to the register of the third. This is so on every full machine, whatever its other
registers hold, and whether or not operands name the same register. An operation with a single
source has its result whatever the second operand is.
-/
def Produces (operation : Operation) (a b result : Int) : Prop :=
  ∀ (machine : Machine) (word : Int),
    machine.registers.size = registerCount
    → ofCode? (Fields.ofWord word).opcode = some operation
    → machine.registers.get (Fields.ofWord word).operands.first = .ok a
    → machine.registers.get (Fields.ofWord word).operands.second = .ok b
    → (machine.step word).Assigns machine (Fields.ofWord word).operands.third result

variable (operation : Operation)

/-- An operation that yields a store of its result, if its operands name registers, produces it. -/
theorem produces_of_yields {a b result : Int}
    (rule
      : ∀ (registers : Registers) (operands : Operands),
          registers.Contains operands.first
          → registers.Contains operands.second
          → registers.Contains operands.third
          → registers.value operands.first = a
          → registers.value operands.second = b
          → Yields registers operands operation.action (.write [(operands.third, result)]))
    : operation.Produces a b (toSigned result) := by
  intro machine word full known first second
  obtain ⟨source, held⟩ := Registers.get_eq_ok_iff.mp first
  obtain ⟨source', held'⟩ := Registers.get_eq_ok_iff.mp second
  have destination := Registers.contains_operand full word .third
  have yields := rule _ _ source source' destination held held'
  exact Machine.step_assigns (Registers.wordEffect_of_yields known yields)

theorem produces_of_unary {function : Int → Int} (shape : operation.action = .unary function)
    (a b : Int)
    : operation.Produces a b (toSigned (function a)) := by
  apply operation.produces_of_yields
  rintro registers operands source _ destination rfl _
  rw [shape]
  exact .unary source destination

theorem produces_of_binary {function : BinaryFunction}
    (shape : operation.action = .binary function) {a b result : Int}
    (defined : function a b = .ok result)
    : operation.Produces a b (toSigned result) := by
  apply operation.produces_of_yields
  rintro registers operands source source' destination rfl rfl
  rw [shape]
  exact .binary source source' defined destination

theorem produces_of_divide {function : BinaryFunction}
    (shape : operation.action = .divide function) {a b result : Int} (nonzero : b ≠ 0)
    (defined : function a b = .ok result)
    : operation.Produces a b (toSigned result) := by
  apply operation.produces_of_yields
  rintro registers operands source source' destination rfl rfl
  rw [shape]
  exact .divide source source' nonzero defined destination

end Operation

end RegisterMachine
