import RegisterMachine.Proofs.EffectRules
import RegisterMachine.Session

/-! An instruction word either stores or writes lines, and a fault changes no register.
All checks of an instruction precede its first store, so nothing is half done.
-/

namespace RegisterMachine

/-- The ways in which an instruction can end: it stores values in registers that exist and says
nothing, or it writes lines and stores nothing, or a foreign failure of the prompt stops it before
it did either.
-/
inductive Conduct (machine : Machine) (count : Nat) (outcome : Outcome) : Prop
  | completed (stores : List (Int × Int)) (some : stores ≠ [])
    (reachable : ∀ store ∈ stores, machine.registers.Contains store.1)
    (stored : outcome.machine.registers = machine.registers.storeAll stores)
    (silent : outcome.lines = []) (whole : outcome.escaped = none)
  | spoke (length : outcome.lines.length = count)
    (kept : outcome.machine.registers = machine.registers) (whole : outcome.escaped = none)
  | interrupted {failure : PromptFailure} {rest : List Answer}
    (raised : machine.prompt = Option.some (.failed failure :: rest))
    (foreign : failure.kind.isFault = false) (escaped : outcome.escaped = Option.some failure)
    (silent : outcome.lines = []) (kept : outcome.machine.registers = machine.registers)

/-- How many lines an instruction writes if it writes any: one, but the heading and every register
if it prints all registers in a base that has numerals.
-/
def lineCount (registers : Registers) (fields : Fields) : Nat :=
  if Operation.ofCode? fields.opcode = some .printRegisters ∧ IsBase fields.operands.first then
    1 + registers.size
  else
    1

theorem Conduct.of_same {machine : Machine} {count : Nat} {first second : Outcome}
    (h : Conduct machine count first)
    (registers : second.machine.registers = first.machine.registers)
    (lines : second.lines = first.lines) (escaped : second.escaped = first.escaped)
    : Conduct machine count second := by
  cases h with
  | completed stores some reachable stored silent whole =>
      exact .completed stores some reachable (registers.trans stored) (lines.trans silent)
        (escaped.trans whole)
  | spoke length kept whole =>
      exact .spoke (lines ▸ length) (registers.trans kept) (escaped.trans whole)
  | interrupted raised foreign failure silent kept =>
      exact .interrupted raised foreign (escaped.trans failure) (lines.trans silent)
        (registers.trans kept)

namespace Machine

/-- The answer to a question about an existing register is stored, or one line is written, or the
failure escapes. The machine that takes the answer may have another prompt.
-/
theorem accept_conduct {machine asking : Machine} {question : Question} {answer : Answer}
    (same : asking.registers = machine.registers)
    (destination : machine.registers.Contains question.register)
    (raised
      : ∀ failure,
          answer = .failed failure
          → ∃ rest, machine.prompt = some (.failed failure :: rest))
    : Conduct machine 1 (asking.accept question answer) := by
  cases answer with
  | cancelled => exact .spoke rfl same rfl
  | failed failure =>
      obtain ⟨kind, message⟩ := failure
      obtain ⟨rest, prompt⟩ := raised _ rfl
      cases kind with
      | badValue | arithmetic | badIndex => exact .spoke rfl same rfl
      | assembly _ | other _ => exact .interrupted prompt rfl rfl rfl same
  | entered text =>
      rw [accept]
      cases readNumeral text question.base with
      | error error => exact .spoke rfl same rfl
      | ok value =>
          refine .completed [(question.register, value)] (by simp) ?_ ?_ rfl rfl
          · simpa using destination
          · simp only [Outcome.idle, withRegisters, same]
            rfl

/-- Asking for the value of an existing register ends in one of the three ways. -/
theorem ask_conduct {machine : Machine} {question : Question}
    (destination : machine.registers.Contains question.register)
    : Conduct machine 1 (machine.ask question) := by
  obtain ⟨registers, prompt⟩ := machine
  cases prompt with
  | none => exact .spoke rfl rfl rfl
  | some answers =>
      have conduct
          : Conduct ⟨registers, some answers⟩ 1
              (accept ⟨registers, some (nextAnswer answers).2⟩ question
                (nextAnswer answers).1) := by
        refine accept_conduct rfl destination fun failure given => ?_
        cases answers with
        | nil => cases given
        | cons answer rest => exact ⟨rest, by rw [← given]; rfl⟩
      exact conduct.of_same rfl rfl rfl

theorem lineCount_eq_one {registers : Registers} {fields : Fields}
    (h : ∀ operation, Operation.ofCode? fields.opcode = some operation
      → operation.action ≠ .printAll)
    : lineCount registers fields = 1 := by
  refine if_neg ?_
  intro all
  exact h .printRegisters all.1 rfl

/-- Every effect that stores values names registers that exist. -/
theorem write_reachable {registers : Registers} {operands : Operands} {action : Action}
    {stores : List (Int × Int)} (h : Yields registers operands action (.write stores))
    : stores ≠ [] ∧ ∀ store ∈ stores, registers.Contains store.1 := by
  cases h with
  | unary _ destination | binary _ _ _ destination | divide _ _ _ _ destination
  | copy _ destination | setByte destination _ _ _ _ =>
      refine ⟨by simp, fun store member => ?_⟩
      rw [List.mem_singleton.mp member]
      exact destination
  | swap first second =>
      refine ⟨by simp, fun store member => ?_⟩
      rcases List.mem_cons.mp member with same | member
      · rw [same]
        exact first
      · rw [List.mem_singleton.mp member]
        exact second

/-- Every effect that writes lines writes as many as its operation does. -/
theorem report_length {registers : Registers} {operation : Operation} {opcode : Int}
    {operands : Operands} {action : Action} {lines : List Line}
    (known : Operation.ofCode? opcode = some operation) (shape : operation.action = action)
    (h : Yields registers operands action (.report lines))
    : lines.length = lineCount registers ⟨opcode, operands⟩ := by
  have single (different : action ≠ .printAll) : lineCount registers ⟨opcode, operands⟩ = 1 := by
    apply lineCount_eq_one
    intro other found
    rw [← Option.some.inj (known.symm.trans found), shape]
    exact different
  cases h with
  | printAll base =>
      obtain rfl := operation.action_eq_printAll_iff.mp shape
      have all : lineCount registers ⟨opcode, operands⟩ = 1 + registers.size :=
        if_pos ⟨known, base⟩
      rw [all, Registers.listing, List.length_cons, List.length_map, List.length_zipIdx,
        Registers.size, Nat.add_comm]
  | printOne | zeroDivisor | byteIndex | byteValue => exact (single (by simp)).symm

/-- Carrying out an operation ends in one of the three ways. -/
theorem perform_conduct {machine : Machine} {operation : Operation} {opcode : Int}
    (operands : Operands) (known : Operation.ofCode? opcode = some operation)
    : Conduct machine (lineCount machine.registers ⟨opcode, operands⟩)
        (machine.perform operation operands) := by
  rw [perform]
  cases result : operation.action.effect machine.registers operands with
  | error fault =>
      -- Printing all registers in a base that has numerals never ends in a fault.
      have single : lineCount machine.registers ⟨opcode, operands⟩ = 1 := by
        refine if_neg ?_
        intro all
        obtain rfl := Option.some.inj (known.symm.trans all.1)
        have rule : Yields machine.registers operands .printAll _ := .printAll all.2
        cases result.symm.trans (Action.effect_eq_ok_iff.mpr rule)
      exact .spoke single.symm rfl rfl
  | ok effect =>
      have rule := Action.effect_eq_ok_iff.mp result
      cases effect with
      | write stores =>
          obtain ⟨some, reachable⟩ := write_reachable rule
          exact .completed stores some reachable rfl rfl rfl
      | report lines => exact .spoke (report_length known rfl rule) rfl rfl
      | ask question =>
          generalize shape : operation.action = action at rule
          cases rule with
          | ask destination base =>
              have single : lineCount machine.registers ⟨opcode, operands⟩ = 1 := by
                apply lineCount_eq_one
                intro other found
                rw [← Option.some.inj (known.symm.trans found), shape]
                exact nofun
              rw [single]
              exact ask_conduct destination

/-- Executing any integer as a word ends in one of the three ways. -/
theorem step_conduct (machine : Machine) (word : Int)
    : Conduct machine (lineCount machine.registers (Fields.ofWord word)) (machine.step word) := by
  rw [step]
  cases known : Operation.ofCode? (Fields.ofWord word).opcode with
  | none =>
      have single : lineCount machine.registers (Fields.ofWord word) = 1 := by
        apply lineCount_eq_one
        intro operation found
        cases known.symm.trans found
      exact .spoke single.symm rfl rfl
  | some operation =>
      exact (perform_conduct (Fields.ofWord word).operands known).of_same rfl rfl rfl

end Machine

/-- The text of a line that tells that an instruction was not completed. -/
def Line.IsComplaint (line : Line) : Prop :=
  "Error".toList <+: line.text.toList ∨ line.text = "Input cancelled."

/-- An instruction word writes or speaks, never both, and faults are atomic.
For every session and word, the lines that the word adds to the output and the registers that it
leaves are those of one of the three ways; a complaint among the lines comes with unchanged
registers.
-/
theorem Session.perform_word_conduct (session : Session) (word : Int)
    : ∃ outcome,
        Conduct session.machine (lineCount session.machine.registers (Fields.ofWord word)) outcome
        ∧ (session.perform (.word word)).session
          = ⟨outcome.machine, session.output ++ outcome.lines⟩
        ∧ (session.perform (.word word)).answer
          = (match outcome.escaped with
            | some failure => .error (.prompt failure)
            | none => .ok (.lines outcome.lines))
        ∧ ∀ line ∈ outcome.lines,
            line.IsComplaint → outcome.machine.registers = session.machine.registers := by
  have conduct := session.machine.step_conduct word
  refine ⟨session.machine.step word, conduct, rfl, ?_, ?_⟩
  · cases h : (session.machine.step word).escaped <;>
      simp [perform, Session.word, Session.answer, Outcome.afterLog, h]
  · intro line member _
    cases conduct with
    | completed _ _ _ _ silent _ => simp [silent] at member
    | spoke _ kept _ => exact kept
    | interrupted _ _ _ _ kept => exact kept

end RegisterMachine
