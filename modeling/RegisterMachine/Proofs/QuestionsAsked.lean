import RegisterMachine.Proofs.ImageRuns
import RegisterMachine.Proofs.WordEffects

/-! Which questions a program asks is decided by its words and the number of registers.
Answers decide only where a run is cut short, and every question takes the next answer to come.
-/

namespace RegisterMachine

-----------------------------------------------------------------------------------------
-- Messages
-----------------------------------------------------------------------------------------

/-- The message with which a word asks for a value on a register file of some size, if it asks. -/
def inputMessage? (size : Nat) (word : Int) : Option String :=
  let operands := (Fields.ofWord word).operands
  if IsInputWord word ∧ operands.first < size ∧ 2 ≤ operands.second ∧ operands.second ≤ 36 then
    some ("Enter value for R" ++ decimal operands.first ++ " in base "
      ++ decimal operands.second ++ ":")
  else
    none

theorem text_question? (size : Nat) (word : Int)
    : (question? size word).map Question.text = inputMessage? size word := by
  simp only [question?, inputMessage?]
  split <;> rfl

/-- The messages that the person at the prompt sees in a run. -/
def Outcome.messages (outcome : Outcome) : List String :=
  outcome.questions.map Question.text

theorem Outcome.messages_andThen {first : Outcome} (whole : first.escaped = none)
    (next : Machine → Outcome)
    : (first.andThen next).messages = first.messages ++ (next first.machine).messages := by
  rw [messages, questions_andThen whole, List.map_append]
  rfl

-----------------------------------------------------------------------------------------
-- Single words
-----------------------------------------------------------------------------------------

namespace Machine

/-- A word with a question takes the next answer; without answers left the question is cancelled. -/
theorem step_of_question {machine : Machine} {word : Int} {question : Question}
    (asks : question? machine.registers.size word = some question) {answers : List Answer}
    (prompt : machine.prompt = some answers)
    : (machine.step word).Alike
        (.after (.asked question)
          (accept ⟨machine.registers, some answers.tail⟩ question
            (answers.headD .cancelled))) := by
  have carried := machine.step_alike_carryOut word
  rw [Registers.wordEffect_eq_ask_iff.mpr asks] at carried
  obtain ⟨registers, _⟩ := machine
  obtain rfl := prompt
  cases answers with
  | nil => exact carried
  | cons answer rest => exact carried

/-- A word with a question asks it and no other. -/
theorem step_of_question_says {machine : Machine} {word : Int} {question : Question}
    (asks : question? machine.registers.size word = some question) {answers : List Answer}
    (prompt : machine.prompt = some answers)
    : (machine.step word).messages = [question.text]
      ∧ (machine.step word).machine.prompt = some answers.tail
      ∧ (machine.step word).escaped
        = (accept ⟨machine.registers, some answers.tail⟩ question
            (answers.headD .cancelled)).escaped := by
  obtain ⟨reached, _, asked, escaped⟩ := step_of_question asks prompt
  obtain ⟨left, nothing⟩ := accept_takes ⟨machine.registers, some answers.tail⟩ question
    (answers.headD .cancelled)
  refine ⟨?_, (congrArg Machine.prompt reached).trans left, escaped⟩
  rw [Outcome.messages, asked]
  exact congrArg (fun questions => question.text :: questions.map Question.text) nothing

/-- Without a prompt a word asks nothing, and one that would ask writes that the input was
cancelled.
-/
theorem step_of_no_prompt {machine : Machine} (prompt : machine.prompt = none) (word : Int)
    : (machine.step word).machine.prompt = none
      ∧ (machine.step word).questions = []
      ∧ (machine.step word).escaped = none
      ∧ ((question? machine.registers.size word).isSome
          → (machine.step word).lines = [.inputCancelled]) := by
  cases asks : question? machine.registers.size word with
  | none =>
      obtain ⟨left, asked, whole⟩ := step_of_no_question asks
      exact ⟨left.trans prompt, asked, whole, nofun⟩
  | some question =>
      have carried := machine.step_alike_carryOut word
      rw [Registers.wordEffect_eq_ask_iff.mpr asks] at carried
      obtain ⟨registers, _⟩ := machine
      obtain rfl := prompt
      obtain ⟨reached, lines, asked, whole⟩ := carried
      exact ⟨congrArg Machine.prompt reached, asked, whole, fun _ => lines⟩

end Machine

-----------------------------------------------------------------------------------------
-- Runs
-----------------------------------------------------------------------------------------

/-- How the messages of a program and the answers to come meet in a run. Either every message is
asked and takes an answer, none of which stops the run; or some answer does, and its message is the
last one asked.
-/
inductive Interview (messages : List String) (answers : List Answer) (outcome : Outcome) : Prop
  | finished (calm : ∀ answer ∈ answers.take messages.length, ¬ answer.Foreign)
    (asked : outcome.messages = messages)
    (left : outcome.machine.prompt = some (answers.drop messages.length))
    (whole : outcome.escaped = none)
  | stopped (given : List Answer) {rest : List Answer} {failure : PromptFailure}
    (split : answers = given ++ .failed failure :: rest) (foreign : failure.kind.isFault = false)
    (early : given.length < messages.length) (calm : ∀ answer ∈ given, ¬ answer.Foreign)
    (asked : outcome.messages = messages.take (given.length + 1))
    (left : outcome.machine.prompt = some rest)
    (escaped : outcome.escaped = some failure)

namespace Interview

variable {messages : List String} {answers : List Answer} {first : Outcome}
  {next : Machine → Outcome}

/-- A run that asks nothing comes before the others without effect on them. -/
theorem after_silence (silent : first.messages = []) (whole : first.escaped = none)
    (later : Interview messages answers (next first.machine))
    : Interview messages answers (first.andThen next) := by
  have all : (first.andThen next).messages = (next first.machine).messages := by
    rw [Outcome.messages_andThen whole, silent, List.nil_append]
  have state := Outcome.machine_andThen whole next
  have ending := Outcome.escaped_andThen whole next
  cases later with
  | finished calm asked left whole' =>
      exact .finished calm (all.trans asked) (state ▸ left) (ending.trans whole')
  | stopped given split foreign early calm asked left escaped =>
      exact .stopped given split foreign early calm (all.trans asked) (state ▸ left)
        (ending.trans escaped)

/-- A run that asks nothing can follow. -/
theorem before_silence (h : Interview messages answers first)
    (silent
      : ∀ state,
          (next state).messages = []
          ∧ (next state).machine.prompt = state.prompt
          ∧ (next state).escaped = none)
    : Interview messages answers (first.andThen next) := by
  cases h with
  | finished calm asked left whole =>
      obtain ⟨none, same, whole'⟩ := silent first.machine
      refine .finished calm ?_ ?_ ?_
      · rw [Outcome.messages_andThen whole, asked, none, List.append_nil]
      · rw [Outcome.machine_andThen whole, same, left]
      · rw [Outcome.escaped_andThen whole, whole']
  | stopped given split foreign early calm asked left escaped =>
      rw [Outcome.andThen_of_escaped escaped]
      exact .stopped given split foreign early calm asked left escaped

/-- A message whose answer does not stop the run is asked before the others. -/
theorem cons {message : String} (asked : first.messages = [message])
    (whole : first.escaped = none) (calm : ¬ (answers.headD .cancelled).Foreign)
    (later : Interview messages answers.tail (next first.machine))
    : Interview (message :: messages) answers (first.andThen next) := by
  have all : (first.andThen next).messages = message :: (next first.machine).messages := by
    rw [Outcome.messages_andThen whole, asked, List.singleton_append]
  have state := Outcome.machine_andThen whole next
  have ending := Outcome.escaped_andThen whole next
  cases answers with
  | nil =>
      cases later with
      | finished _ asked' left whole' =>
          exact .finished (by simp) (by rw [all, asked'])
            (by rw [state, left, List.drop_nil, List.tail_nil, List.drop_nil]) (ending.trans whole')
      | stopped _ split => simp at split
  | cons answer rest =>
      cases later with
      | finished calm' asked' left whole' =>
          refine .finished ?_ (by rw [all, asked']) (state ▸ left) (ending.trans whole')
          exact List.forall_mem_cons.mpr ⟨calm, calm'⟩
      | @stopped given rest' failure split foreign early calm' asked' left escaped =>
          obtain rfl : rest = given ++ .failed failure :: rest' := split
          refine .stopped (answer :: given) rfl foreign ?_ ?_ ?_ (state ▸ left)
            (ending.trans escaped)
          · simpa using early
          · exact List.forall_mem_cons.mpr ⟨calm, calm'⟩
          · rw [all, asked']
            rfl

/-- A message whose answer stops the run is the last one. -/
theorem stop {message : String} {failure : PromptFailure} (asked : first.messages = [message])
    (left : first.machine.prompt = some answers.tail)
    (given : answers.headD .cancelled = .failed failure) (foreign : failure.kind.isFault = false)
    (escaped : first.escaped = some failure)
    : Interview (message :: messages) answers (first.andThen next) := by
  rw [Outcome.andThen_of_escaped escaped]
  cases answers with
  | nil => cases given
  | cons answer rest =>
      obtain rfl : answer = .failed failure := given
      exact .stopped [] rfl foreign (by simp) (by simp) asked left escaped

/-- Answers that do not stop a run let it ask every message and end. -/
theorem of_calm (h : Interview messages answers first)
    (calm : ∀ answer ∈ answers, ¬ answer.Foreign)
    : first.messages = messages ∧ first.escaped = none := by
  cases h with
  | finished _ asked _ whole => exact ⟨asked, whole⟩
  | stopped given split foreign _ _ _ _ _ =>
      have calm := calm _ (split ▸ List.mem_append_right given List.mem_cons_self)
      exact (calm ⟨_, rfl, foreign⟩).elim

/-- A run that is not cut short has taken one answer for each message. -/
theorem prompt_eq (h : Interview messages answers first) (whole : first.escaped = none)
    : first.machine.prompt = some (answers.drop messages.length) := by
  cases h with
  | finished _ _ left _ => exact left
  | stopped _ _ _ _ _ _ _ escaped => cases whole.symm.trans escaped

end Interview

namespace Machine

/-- A run asks the messages of its words one after the other, by induction on the words. -/
theorem steps_interview {machine : Machine} {answers : List Answer}
    (prompt : machine.prompt = some answers) (words : List Int)
    : Interview (words.filterMap (inputMessage? machine.registers.size)) answers
        (machine.steps words) := by
  induction words generalizing machine answers with
  | nil => exact .finished (by simp) rfl prompt rfl
  | cons word words ih =>
      rw [steps]
      have message := text_question? machine.registers.size word
      cases asks : question? machine.registers.size word with
      | none =>
          rw [asks] at message
          obtain ⟨left, asked, whole⟩ := step_of_no_question asks
          have later := ih (left.trans prompt)
          rw [size_step] at later
          rw [List.filterMap_cons_none message.symm]
          exact later.after_silence (by rw [Outcome.messages, asked]; rfl) whole
      | some question =>
          rw [asks] at message
          obtain ⟨asked, left, ending⟩ := step_of_question_says asks prompt
          rw [List.filterMap_cons_some message.symm]
          by_cases foreign : (answers.headD .cancelled).Foreign
          · obtain ⟨failure, given, stray⟩ := foreign
            rw [given] at ending
            refine .stop asked left given stray (ending.trans ?_)
            simp [accept, stray]
          · have later := ih left
            rw [size_step] at later
            exact .cons asked (ending.trans (accept_whole _ question foreign)) foreign later

/-- Without a prompt a run asks nothing, by induction on the words. -/
theorem steps_of_no_prompt {machine : Machine} (prompt : machine.prompt = none) (words : List Int)
    : (machine.steps words).machine.prompt = none
      ∧ (machine.steps words).messages = []
      ∧ (machine.steps words).escaped = none := by
  induction words generalizing machine with
  | nil => exact ⟨prompt, rfl, rfl⟩
  | cons word words ih =>
      obtain ⟨left, asked, whole, _⟩ := step_of_no_prompt prompt word
      have none : (machine.step word).messages = [] := congrArg (List.map Question.text) asked
      obtain ⟨left', none', whole'⟩ := ih left
      rw [steps, Outcome.machine_andThen whole, Outcome.messages_andThen whole,
        Outcome.escaped_andThen whole, none, none']
      exact ⟨left', rfl, whole'⟩

-----------------------------------------------------------------------------------------
-- Answers
-----------------------------------------------------------------------------------------

/-- A word that a run reaches after other words finds the answers that their questions have left. If
it asks a question itself it takes the first of these answers, and all later ones are left; else it
asks nothing and leaves them all.
-/
structure TakesInTurn (machine : Machine) (answers : List Answer) (before : List Int) (word : Int)
    (count : Nat)
    : Prop where
  found : (machine.steps before).machine.prompt = some (answers.drop count)
  passed
    : inputMessage? machine.registers.size word = none
      → ((machine.steps before).machine.step word).questions = []
        ∧ ((machine.steps before).machine.step word).machine.prompt = some (answers.drop count)
  taken
    : ∀ question,
        question? machine.registers.size word = some question
        → ((machine.steps before).machine.step word).Alike
            (.after (.asked question)
              (accept
                ⟨(machine.steps before).machine.registers, some (answers.drop (count + 1))⟩
                question (answers.getD count .cancelled)))

theorem steps_takesInTurn {machine : Machine} {answers : List Answer}
    (prompt : machine.prompt = some answers) {before : List Int}
    (whole : (machine.steps before).escaped = none) (word : Int)
    : machine.TakesInTurn answers before word
        (before.filterMap (inputMessage? machine.registers.size)).length := by
  have found := (steps_interview prompt before).prompt_eq whole
  refine ⟨found, ?_, ?_⟩
  · intro passed
    have none : question? (machine.steps before).machine.registers.size word = none := by
      rw [size_steps]
      exact Option.map_eq_none_iff.mp ((text_question? _ word).trans passed)
    obtain ⟨left, asked, _⟩ := step_of_no_question none
    exact ⟨asked, left.trans found⟩
  · intro question asks
    rw [← size_steps machine before] at asks
    have taken := step_of_question asks found
    rwa [List.tail_drop, List.headD_eq_head?_getD, List.head?_drop,
      ← List.getD_eq_getElem?_getD] at taken

/-- A run that asks nothing, and in which every word with a message writes that the input was
cancelled.
-/
structure Unasked (machine : Machine) (words : List Int) (outcome : Outcome) : Prop where
  silent : outcome.messages = []
  whole : outcome.escaped = none
  cancelled
    : ∀ before word after,
        words = before ++ word :: after
        → (inputMessage? machine.registers.size word).isSome
        → (machine.linesAfter before word).map Line.text = ["Input cancelled."]

-----------------------------------------------------------------------------------------
-- Images
-----------------------------------------------------------------------------------------

theorem reportTruncation_silent (image : Image) (machine : Machine)
    : (reportTruncation image machine).messages = []
      ∧ (reportTruncation image machine).machine.prompt = machine.prompt
      ∧ (reportTruncation image machine).escaped = none := by
  rw [reportTruncation_eq]
  exact ⟨rfl, rfl, rfl⟩

theorem execute_unasked {machine : Machine} (prompt : machine.prompt = none) (image : Image)
    : machine.Unasked image.words (machine.execute image) := by
  obtain ⟨_, none, whole⟩ := steps_of_no_prompt prompt image.words
  obtain ⟨_, _, events, whole'⟩ := execute_of_whole whole
  have asked : (machine.execute image).messages = (machine.steps image.words).messages := by
    rw [Outcome.messages, Outcome.questions, events]
    rfl
  refine ⟨asked.trans none, whole', fun before word after _ asks => ?_⟩
  obtain ⟨left, _, _⟩ := steps_of_no_prompt prompt before
  rw [← text_question?, Option.isSome_map, ← size_steps machine before] at asks
  obtain ⟨_, _, _, cancelled⟩ := step_of_no_prompt left word
  rw [linesAfter, cancelled asks]
  rfl

theorem execute_interview {machine : Machine} {answers : List Answer}
    (prompt : machine.prompt = some answers) (image : Image)
    : Interview (image.words.filterMap (inputMessage? machine.registers.size)) answers
        (machine.execute image) :=
  (steps_interview prompt image.words).before_silence (reportTruncation_silent image)

/-- An execution is not cut short if no answer to come stops it. -/
theorem execute_whole {machine : Machine}
    (calm : ∀ answers, machine.prompt = some answers → ∀ answer ∈ answers, ¬ answer.Foreign)
    (image : Image)
    : (machine.execute image).escaped = none := by
  cases prompt : machine.prompt with
  | none => exact (execute_unasked prompt image).whole
  | some answers => exact ((execute_interview prompt image).of_calm (calm answers prompt)).2

/-- The questions of a program do not depend on data.
The messages of an execution are those of the words of its image, for all contents of the registers
and all answers that do not stop it; an answer that does makes its question the last one. Every
question takes the next answer to come, no other word takes any, and without a prompt each question
counts as cancelled.
-/
theorem execute_questions (image : Image) (registers : Registers)
    : let messages := image.words.filterMap (inputMessage? registers.size)
      (∀ answers : List Answer,
        (∀ answer ∈ answers, ¬ answer.Foreign)
        → (execute ⟨registers, some answers⟩ image).messages = messages)
      ∧ (∀ answers, Interview messages answers (execute ⟨registers, some answers⟩ image))
      ∧ (∀ answers before word after,
          image.words = before ++ word :: after
          → (steps ⟨registers, some answers⟩ before).escaped = none
          → TakesInTurn ⟨registers, some answers⟩ answers before word
              (before.filterMap (inputMessage? registers.size)).length)
      ∧ Unasked ⟨registers, none⟩ image.words (execute ⟨registers, none⟩ image) := by
  have interview (answers : List Answer) :=
    @execute_interview ⟨registers, some answers⟩ answers rfl image
  refine ⟨?_, interview, ?_, execute_unasked rfl image⟩
  · intro answers calm
    exact ((interview answers).of_calm calm).1
  · intro answers before word after _ whole
    exact steps_takesInTurn rfl whole word

/-- Words for a base and a register that do not exist ask nothing, a text that is no numeral and a
failed calculation are answers like all others, and the partial word at the end changes nothing.
-/
theorem execute_questions_refused
    : (∀ answer ∈ [Answer.entered "zz", .failed ⟨.arithmetic, "overflow"⟩], ¬ answer.Foreign)
      ∧ (execute ⟨⟨[3, 4, 0, 0]⟩, some [.entered "zz", .failed ⟨.arithmetic, "overflow"⟩]⟩
            (Image.ofWords [163858, 606258, 164018, 262226] ++ [7])).messages
          = ["Enter value for R0 in base 10:", "Enter value for R2 in base 16:"]
      ∧ Interview ["Enter value for R0 in base 10:", "Enter value for R2 in base 16:"]
          [.failed ⟨.other "KeyError", "gone"⟩, .entered "12"]
          (execute ⟨⟨[3, 4, 0, 0]⟩, some [.failed ⟨.other "KeyError", "gone"⟩, .entered "12"]⟩
            (Image.ofWords [163858, 606258, 164018, 262226] ++ [7]))
      ∧ (steps ⟨⟨[3, 4, 0, 0]⟩, some [.entered "zz", .entered "ff"]⟩
            [163858, 606258, 164018]).escaped = none
      ∧ TakesInTurn ⟨⟨[3, 4, 0, 0]⟩, some [.entered "zz", .entered "ff"]⟩
          [.entered "zz", .entered "ff"] [163858, 606258, 164018] 262226 1
      ∧ (linesAfter ⟨⟨[3, 4, 0, 0]⟩, none⟩ [163858, 606258, 164018] 262226).map Line.text
          = ["Input cancelled."] := by
  have words
      : Image.words (Image.ofWords [163858, 606258, 164018, 262226] ++ [7])
        = [163858, 606258, 164018, 262226] := rfl
  have asked
      : [163858, 606258, 164018, 262226].filterMap (inputMessage? 4)
        = ["Enter value for R0 in base 10:", "Enter value for R2 in base 16:"] := by
    decide +kernel
  have calm
      : ∀ answer ∈ [Answer.entered "zz", .failed ⟨.arithmetic, "overflow"⟩], ¬ answer.Foreign := by
    rintro answer member ⟨failure, rfl, foreign⟩
    simp only [List.mem_cons, reduceCtorEq, Answer.failed.injEq, List.not_mem_nil, or_false,
      false_or] at member
    rw [member] at foreign
    cases foreign
  have whole
      : (steps ⟨⟨[3, 4, 0, 0]⟩, some [.entered "zz", .entered "ff"]⟩
            [163858, 606258, 164018]).escaped = none := rfl
  obtain ⟨messages, interview, turns, unasked⟩ :=
    execute_questions (Image.ofWords [163858, 606258, 164018, 262226] ++ [7]) ⟨[3, 4, 0, 0]⟩
  have cancelled := unasked.cancelled [163858, 606258, 164018] 262226 [] words (by decide)
  refine ⟨calm, (messages _ calm).trans asked, ?_, whole,
    turns _ [163858, 606258, 164018] 262226 [] words whole, cancelled⟩
  rw [← asked]
  exact interview _

end Machine

end RegisterMachine
