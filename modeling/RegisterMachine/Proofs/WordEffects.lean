import RegisterMachine.Proofs.Observation
import RegisterMachine.Proofs.RunInvariants
import RegisterMachine.Proofs.WordConduct
import RegisterMachine.Proofs.WordFields

/-! A word is executed by carrying out its effect on the registers.
What it stores, writes and asks can be read off this effect and the answers to come.
-/

namespace RegisterMachine

-----------------------------------------------------------------------------------------
-- The effect of a word
-----------------------------------------------------------------------------------------

/-- The effect of the low 32 bits of an integer as an instruction word. An instruction that has no
effect, and a word that is no instruction, write a line about it.
-/
def Registers.wordEffect (registers : Registers) (word : Int) : Effect :=
  match Operation.ofCode? (Fields.ofWord word).opcode with
  | none => .report [.unknownOpcode (Fields.ofWord word).opcode]
  | some operation =>
      match operation.action.effect registers (Fields.ofWord word).operands with
      | .ok effect => effect
      | .error fault => .report [.fault fault]

/-- Only the log tells whether a word or its effect was carried out. -/
theorem Machine.step_alike_carryOut (machine : Machine) (word : Int)
    : (machine.step word).Alike (machine.carryOut (machine.registers.wordEffect word)) := by
  rw [step, Registers.wordEffect]
  cases Operation.ofCode? (Fields.ofWord word).opcode with
  | none => exact .refl _
  | some operation =>
      refine (Outcome.after_logged_alike _ _).trans ?_
      dsimp only
      rw [perform]
      cases operation.action.effect machine.registers (Fields.ofWord word).operands with
      | error fault => exact .refl _
      | ok effect => exact .refl _

namespace Registers

variable {registers : Registers} {word : Int}

theorem wordEffect_of_yields {operation : Operation} {effect : Effect}
    (known : Operation.ofCode? (Fields.ofWord word).opcode = some operation)
    (rule : Yields registers (Fields.ofWord word).operands operation.action effect)
    : registers.wordEffect word = effect := by
  simp only [wordEffect, known, Action.effect_eq_ok_iff.mpr rule]

/-- A word has the effect of a known operation, or writes a single line. -/
theorem wordEffect_cases (registers : Registers) (word : Int)
    : (∃ operation,
        Operation.ofCode? (Fields.ofWord word).opcode = some operation
        ∧ Yields registers (Fields.ofWord word).operands operation.action
            (registers.wordEffect word))
      ∨ ∃ line, registers.wordEffect word = .report [line] := by
  cases known : Operation.ofCode? (Fields.ofWord word).opcode with
  | none => exact Or.inr ⟨_, by simp only [wordEffect, known]; rfl⟩
  | some operation =>
      cases result : operation.action.effect registers (Fields.ofWord word).operands with
      | error fault => exact Or.inr ⟨_, by simp only [wordEffect, known, result]; rfl⟩
      | ok effect =>
          have rule := Action.effect_eq_ok_iff.mp result
          rw [wordEffect_of_yields known rule]
          exact Or.inl ⟨operation, rfl, rule⟩

/-- The lines of an effect are at least one. -/
theorem wordEffect_report_ne_nil {lines : List Line}
    (h : registers.wordEffect word = .report lines)
    : lines ≠ [] := by
  rcases registers.wordEffect_cases word with ⟨operation, _, rule⟩ | ⟨line, single⟩
  · rw [h] at rule
    generalize operation.action = action at rule
    cases rule <;> simp [listing]
  · obtain rfl := Effect.report.inj (h.symm.trans single)
    simp

/-- An effect that stores has at least one store, and stores only in registers that exist. -/
theorem wordEffect_write_reachable {stores : List (Int × Int)}
    (h : registers.wordEffect word = .write stores)
    : stores ≠ [] ∧ ∀ store ∈ stores, registers.Contains store.1 := by
  rcases registers.wordEffect_cases word with ⟨operation, _, rule⟩ | ⟨line, single⟩
  · exact Machine.write_reachable (h ▸ rule)
  · cases h.symm.trans single

end Registers

-----------------------------------------------------------------------------------------
-- Input words
-----------------------------------------------------------------------------------------

/-- A word whose operation asks for a value. -/
def IsInputWord (word : Int) : Prop :=
  Operation.ofCode? (Fields.ofWord word).opcode = some .inputOperand

instance (word : Int) : Decidable (IsInputWord word) :=
  inferInstanceAs (Decidable (_ = _))

/-- The question that a word asks on a register file of some size. An input word asks for the value
of the register in its first operand if there is such a register and its second operand is a base.
-/
def question? (size : Nat) (word : Int) : Option Question :=
  let operands := (Fields.ofWord word).operands
  if IsInputWord word ∧ operands.first < size ∧ IsBase operands.second then
    some ⟨operands.first, operands.second⟩
  else
    none

theorem Operation.action_eq_ask_iff (operation : Operation)
    : operation.action = .ask ↔ operation = .inputOperand := by
  cases operation <;> simp [action, Action.total]

/-- A word whose effect is a question is an input word, and both are the same question. -/
theorem Registers.wordEffect_eq_ask_iff {registers : Registers} {word : Int} {question : Question}
    : registers.wordEffect word = .ask question
      ↔ question? registers.size word = some question := by
  have nonneg : 0 ≤ (Fields.ofWord word).operands.first :=
    (((Fields.fit_iff _).mp (Fields.fit_ofWord word)).2 .first).1
  simp only [question?, Option.ite_none_right_eq_some, Option.some.injEq]
  constructor
  · intro h
    rcases registers.wordEffect_cases word with ⟨operation, known, rule⟩ | ⟨line, single⟩
    · rw [h] at rule
      generalize shape : operation.action = action at rule
      cases rule with
      | ask destination base =>
          obtain rfl := operation.action_eq_ask_iff.mp shape
          exact ⟨⟨known, destination.2, base⟩, rfl⟩
    · cases h.symm.trans single
  · intro h
    obtain ⟨⟨known, inside, base⟩, rfl⟩ := h
    exact wordEffect_of_yields known (.ask ⟨nonneg, inside⟩ base)

theorem question?_eq_none {word : Int} (h : ¬ IsInputWord word) (size : Nat)
    : question? size word = none := by
  simp [question?, h]

/-- A word that asks nothing takes no answer and does not stop the run. -/
theorem Machine.step_of_no_question {machine : Machine} {word : Int}
    (h : question? machine.registers.size word = none)
    : (machine.step word).machine.prompt = machine.prompt
      ∧ (machine.step word).questions = []
      ∧ (machine.step word).escaped = none := by
  obtain ⟨reached, _, questions, escaped⟩ := machine.step_alike_carryOut word
  rw [reached, questions, escaped]
  cases effect : machine.registers.wordEffect word with
  | write stores => exact ⟨rfl, rfl, rfl⟩
  | report lines => exact ⟨rfl, rfl, rfl⟩
  | ask question => cases h.symm.trans (Registers.wordEffect_eq_ask_iff.mp effect)

theorem Machine.step_of_silent {word : Int} (silent : ¬ IsInputWord word) (machine : Machine)
    : (machine.step word).machine.prompt = machine.prompt
      ∧ (machine.step word).questions = []
      ∧ (machine.step word).escaped = none :=
  step_of_no_question (question?_eq_none silent machine.registers.size)

-----------------------------------------------------------------------------------------
-- What a word stores
-----------------------------------------------------------------------------------------

/-- The stores that an answer to a question leads to. -/
def Question.stores (question : Question) : Answer → List (Int × Int)
  | .entered text =>
      match readNumeral text question.base with
      | .ok value => [(question.register, value)]
      | .error _ => []
  | .cancelled | .failed _ => []

/-- An answer that stops a run: a failure of a kind that instructions do not have themselves. -/
def Answer.Foreign (answer : Answer) : Prop :=
  ∃ failure : PromptFailure, answer = .failed failure ∧ failure.kind.isFault = false

/-- A line that an instruction word writes; only the line about a partial word is not one. -/
def Line.IsOfWord : Line → Prop
  | .truncated _ => False
  | _ => True

/-- The ways in which an answer is settled: it is stored, or a line is written instead, or it stops
the run.
-/
inductive Machine.Settled (machine : Machine) (question : Question) (answer : Answer)
    (outcome : Outcome)
    : Prop
  | stored {value : Int} (stores : question.stores answer = [(question.register, value)])
    (calm : ¬ answer.Foreign)
    (reached
      : outcome
        = .idle (machine.withRegisters (machine.registers.store question.register value)))
  | told (line : Line) (log : List LogRecord) (stores : question.stores answer = [])
    (calm : ¬ answer.Foreign) (ofWord : line.IsOfWord)
    (reached : outcome = ⟨machine, [line], log.map .logged, none⟩)
  | stopped {failure : PromptFailure} (given : answer = .failed failure)
    (foreign : failure.kind.isFault = false)
    (reached : outcome = ⟨machine, [], [], some failure⟩)

/-- The stores that carrying out an effect leads to, with the next answer to come. -/
def Effect.stores (prompt : Prompt) : Effect → List (Int × Int)
  | .write stores => stores
  | .report _ => []
  | .ask question =>
      match prompt with
      | none => []
      | some answers => question.stores (nextAnswer answers).1

/-- The stores that a machine makes when it executes a word. -/
def Machine.stores (machine : Machine) (word : Int) : List (Int × Int) :=
  (machine.registers.wordEffect word).stores machine.prompt

namespace Machine

/-- Every answer is settled in one of the three ways. -/
theorem accept_settled (machine : Machine) (question : Question) (answer : Answer)
    : machine.Settled question answer (machine.accept question answer) := by
  cases answer with
  | cancelled => exact .told .inputCancelled [] rfl nofun trivial rfl
  | failed failure =>
      obtain ⟨kind, message⟩ := failure
      cases kind with
      | badValue | arithmetic | badIndex =>
          refine .told (.fault (.prompt message)) [] rfl ?_ trivial rfl
          rintro ⟨failure, same, foreign⟩
          cases same
          cases foreign
      | assembly _ | other _ => exact .stopped rfl rfl rfl
  | entered text =>
      cases read : readNumeral text question.base with
      | ok value => exact .stored (by rw [Question.stores, read]) nofun (by rw [accept, read])
      | error error =>
          refine .told .invalidInput [.rejected text error] ?_ nofun trivial ?_
          · rw [Question.stores, read]
          · rw [accept, read]
            rfl

theorem registers_accept (machine : Machine) (question : Question) (answer : Answer)
    : (machine.accept question answer).machine.registers
      = machine.registers.storeAll (question.stores answer) := by
  cases machine.accept_settled question answer with
  | stored stores _ reached | told _ _ stores _ _ reached =>
      rw [reached, stores]
      rfl
  | stopped given _ reached =>
      rw [reached, given]
      rfl

/-- An answer either is stored, or a line is written, or it is a failure that escapes. -/
theorem stores_answer_ne_nil_iff (machine : Machine) (question : Question) (answer : Answer)
    : question.stores answer ≠ []
      ↔ (machine.accept question answer).lines = []
        ∧ (machine.accept question answer).escaped = none := by
  cases machine.accept_settled question answer with
  | stored stores _ reached => simp [reached, stores, Outcome.idle]
  | told _ _ stores _ _ reached => simp [reached, stores]
  | stopped given _ reached =>
      rw [reached]
      simp [given, Question.stores]

/-- Taking an answer asks nothing more and leaves the answers after it alone. -/
theorem accept_takes (machine : Machine) (question : Question) (answer : Answer)
    : (machine.accept question answer).machine.prompt = machine.prompt
      ∧ (machine.accept question answer).questions = [] := by
  cases machine.accept_settled question answer with
  | stored _ _ reached | stopped _ _ reached =>
      rw [reached]
      exact ⟨rfl, rfl⟩
  | told _ _ _ _ _ reached =>
      rw [reached]
      simp [Outcome.questions, List.filterMap_map]

theorem accept_whole (machine : Machine) (question : Question) {answer : Answer}
    (calm : ¬ answer.Foreign)
    : (machine.accept question answer).escaped = none := by
  cases machine.accept_settled question answer with
  | stored _ _ reached =>
      rw [reached]
      rfl
  | told _ _ _ _ _ reached => rw [reached]
  | stopped given foreign _ => exact (calm ⟨_, given, foreign⟩).elim

theorem accept_isOfWord (machine : Machine) (question : Question) (answer : Answer)
    : ∀ line ∈ (machine.accept question answer).lines, line.IsOfWord := by
  cases machine.accept_settled question answer with
  | stored _ _ reached | stopped _ _ reached =>
      rw [reached]
      exact List.forall_mem_nil _
  | told _ _ _ _ ofWord reached =>
      rw [reached]
      exact List.forall_mem_singleton.mpr ofWord

theorem registers_carryOut (machine : Machine) (effect : Effect)
    : (machine.carryOut effect).machine.registers
      = machine.registers.storeAll (effect.stores machine.prompt) := by
  obtain ⟨registers, prompt⟩ := machine
  cases effect with
  | write stores => rfl
  | report lines => rfl
  | ask question =>
      cases prompt with
      | none => rfl
      | some answers => exact registers_accept _ question _

/-- A word changes the registers by its stores only. -/
theorem registers_step (machine : Machine) (word : Int)
    : (machine.step word).machine.registers
      = machine.registers.storeAll (machine.stores word) := by
  rw [(machine.step_alike_carryOut word).machine, registers_carryOut]
  rfl

@[simp]
theorem size_step (machine : Machine) (word : Int)
    : (machine.step word).machine.registers.size = machine.registers.size := by
  rw [registers_step, Registers.size_storeAll]

/-- The number of registers stays the same over a run. -/
theorem size_steps (machine : Machine) (words : List Int)
    : (machine.steps words).machine.registers.size = machine.registers.size := by
  have within
      : (machine.steps words).Within
          (fun state => state.registers.size = machine.registers.size) (fun _ => True)
          fun _ => True := by
    apply steps_within
    · intro word _ state same
      exact ⟨(state.size_step word).trans same, fun _ _ => trivial, fun _ _ => trivial⟩
    · rfl
  exact within.state

/-- A word either stores, or it writes a line or is stopped by a failure of the prompt. -/
theorem stores_ne_nil_iff (machine : Machine) (word : Int)
    : machine.stores word ≠ []
      ↔ (machine.step word).lines = [] ∧ (machine.step word).escaped = none := by
  rw [(machine.step_alike_carryOut word).lines, (machine.step_alike_carryOut word).escaped, stores]
  cases effect : machine.registers.wordEffect word with
  | write stores =>
      have some := (Registers.wordEffect_write_reachable effect).1
      exact ⟨fun _ => ⟨rfl, rfl⟩, fun _ => some⟩
  | report lines =>
      have some := Registers.wordEffect_report_ne_nil effect
      exact ⟨fun h => (h rfl).elim, fun h => (some h.1).elim⟩
  | ask question =>
      obtain ⟨registers, prompt⟩ := machine
      cases prompt with
      | none => simp [carryOut, ask, Effect.stores, Outcome.writing]
      | some answers =>
          simp only [carryOut, ask, Effect.stores, Outcome.after]
          exact stores_answer_ne_nil_iff _ question _

end Machine

-----------------------------------------------------------------------------------------
-- What a word says
-----------------------------------------------------------------------------------------

/-- Two runs that write the same lines, ask the same questions, leave the same answers to come and
let the same failure escape; their registers may differ.
-/
structure Outcome.SameDialogue (first second : Outcome) : Prop where
  lines : first.lines = second.lines
  questions : first.questions = second.questions
  prompt : first.machine.prompt = second.machine.prompt
  escaped : first.escaped = second.escaped

namespace Outcome

theorem Alike.sameDialogue {first second : Outcome} (h : Alike first second)
    : SameDialogue first second :=
  ⟨h.lines, h.questions, congrArg Machine.prompt h.machine, h.escaped⟩

theorem SameDialogue.symm {first second : Outcome} (h : SameDialogue first second)
    : SameDialogue second first :=
  ⟨h.lines.symm, h.questions.symm, h.prompt.symm, h.escaped.symm⟩

theorem SameDialogue.trans {first second third : Outcome} (h : SameDialogue first second)
    (h' : SameDialogue second third)
    : SameDialogue first third :=
  ⟨h.lines.trans h'.lines, h.questions.trans h'.questions, h.prompt.trans h'.prompt,
    h.escaped.trans h'.escaped⟩

end Outcome

namespace Machine

variable {first second : Machine}

theorem accept_sameDialogue (prompt : first.prompt = second.prompt) (question : Question)
    (answer : Answer)
    : (first.accept question answer).SameDialogue (second.accept question answer) := by
  cases answer with
  | cancelled => exact ⟨rfl, rfl, prompt, rfl⟩
  | failed failure =>
      rw [accept, accept]
      split <;> exact ⟨rfl, rfl, prompt, rfl⟩
  | entered text =>
      rw [accept, accept]
      cases readNumeral text question.base <;> exact ⟨rfl, rfl, prompt, rfl⟩

/-- An effect says the same on all machines with the same answers to come. -/
theorem carryOut_sameDialogue (prompt : first.prompt = second.prompt) (effect : Effect)
    : (first.carryOut effect).SameDialogue (second.carryOut effect) := by
  obtain ⟨registers, answers⟩ := first
  obtain ⟨registers', answers'⟩ := second
  obtain rfl : answers = answers' := prompt
  cases effect with
  | write stores => exact ⟨rfl, rfl, rfl, rfl⟩
  | report lines => exact ⟨rfl, rfl, rfl, rfl⟩
  | ask question =>
      cases answers with
      | none => exact ⟨rfl, rfl, rfl, rfl⟩
      | some answers =>
          obtain ⟨lines, questions, prompt, escaped⟩ :=
            @accept_sameDialogue ⟨registers, some (nextAnswer answers).2⟩
              ⟨registers', some (nextAnswer answers).2⟩ rfl question (nextAnswer answers).1
          exact ⟨lines, congrArg (question :: ·) questions, prompt, escaped⟩

/-- A word with the same effect on both machines says the same. -/
theorem step_sameDialogue (prompt : first.prompt = second.prompt) {word : Int}
    (effect : first.registers.wordEffect word = second.registers.wordEffect word)
    : (first.step word).SameDialogue (second.step word) := by
  have carried := carryOut_sameDialogue prompt (second.registers.wordEffect word)
  rw [← effect] at carried
  refine (first.step_alike_carryOut word).sameDialogue.trans (carried.trans ?_)
  rw [effect]
  exact (second.step_alike_carryOut word).sameDialogue.symm

end Machine

end RegisterMachine
