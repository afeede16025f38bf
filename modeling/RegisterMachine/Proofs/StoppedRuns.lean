import RegisterMachine.Proofs.AppendedImages
import RegisterMachine.Proofs.RunIsolation

/-! A failure of the prompt that stops a run leaves what the words before it have done.
The word that asked has changed nothing, and no word after it is executed.
-/

namespace RegisterMachine

-----------------------------------------------------------------------------------------
-- The first words of an image
-----------------------------------------------------------------------------------------

namespace Image

theorem tailLines_take {image : Image} {count : Nat} (enough : count ≤ image.words.length)
    (offset : Nat)
    : tailLines offset (image.take (4 * count)) = [] := by
  rw [length_words] at enough
  rw [tailLines, List.length_take, if_pos]
  omega

end Image

-----------------------------------------------------------------------------------------
-- Words that are stopped
-----------------------------------------------------------------------------------------

namespace Machine

/-- The prompt fails while the word at a position of a program is executed: the words before it are
executed to their end, it asks a question, and the next answer is the failure.
-/
structure FailsAt (machine : Machine) (words : List Int) (position : Nat)
    (failure : PromptFailure)
    : Prop where
  reached : (machine.steps (words.take position)).escaped = none
  asks
    : ∃ word question,
        words[position]? = some word ∧ question? machine.registers.size word = some question
  given
    : ∃ rest, (machine.steps (words.take position)).machine.prompt = some (.failed failure :: rest)

variable {machine : Machine}

/-- A word with a question is logged before it asks. -/
theorem step_eq_ask {word : Int} {question : Question}
    (asks : question? machine.registers.size word = some question)
    : machine.step word
      = .after (.logged (.executing .inputOperand (Fields.ofWord word).operands))
          (machine.ask question) := by
  have known : Operation.ofCode? (Fields.ofWord word).opcode = some .inputOperand := by
    rw [question?, Option.ite_none_right_eq_some] at asks
    exact asks.1.1
  have effect := Registers.wordEffect_eq_ask_iff.mpr asks
  rw [Registers.wordEffect, known] at effect
  rw [step, known]
  dsimp only at effect ⊢
  rw [perform]
  cases result
      : Operation.inputOperand.action.effect machine.registers (Fields.ofWord word).operands with
  | error fault =>
      rw [result] at effect
      cases effect
  | ok found =>
      rw [result] at effect
      obtain rfl : found = .ask question := effect
      rfl

/-- A failure that is no fault stops the word that asked, before it has stored or written anything.
-/
theorem step_of_failure {word : Int} {question : Question} {failure : PromptFailure}
    {rest : List Answer} (asks : question? machine.registers.size word = some question)
    (given : machine.prompt = some (.failed failure :: rest))
    (stray : failure.kind.isFault = false)
    : machine.step word
      = { machine := ⟨machine.registers, some rest⟩
          lines := []
          events :=
            [ .logged (.executing .inputOperand (Fields.ofWord word).operands),
              .asked question ]
          escaped := some failure } := by
  obtain ⟨registers, _⟩ := machine
  obtain rfl := given
  rw [step_eq_ask asks, ask]
  simp only [nextAnswer, accept, stray, Bool.false_eq_true, if_false]
  rfl

/-- A word is stopped by nothing but a failure that answers its question. -/
theorem failure_of_step_escaped {word : Int} {failure : PromptFailure}
    (escaped : (machine.step word).escaped = some failure)
    : failure.kind.isFault = false ∧ machine.FailsAt [word] 0 failure := by
  cases machine.step_conduct word with
  | completed _ _ _ _ _ whole => cases whole.symm.trans escaped
  | spoke _ _ whole => cases whole.symm.trans escaped
  | interrupted raised foreign failed _ _ =>
      obtain rfl := Option.some.inj (failed.symm.trans escaped)
      refine ⟨foreign, rfl, ?_, _, raised⟩
      cases asks : question? machine.registers.size word with
      | none =>
          obtain ⟨_, _, whole⟩ := step_of_no_question asks
          cases whole.symm.trans escaped
      | some question => exact ⟨word, question, rfl, asks⟩

/-- A failure that comes after the first word comes one position later from there. -/
theorem FailsAt.cons {word : Int} {words : List Int} {position : Nat} {failure : PromptFailure}
    (whole : (machine.step word).escaped = none)
    (h : (machine.step word).machine.FailsAt words position failure)
    : machine.FailsAt (word :: words) (position + 1) failure := by
  obtain ⟨reached, ⟨asking, question, found, asks⟩, rest, given⟩ := h
  rw [size_step] at asks
  refine ⟨?_, ⟨asking, question, found, asks⟩, rest, ?_⟩
  · rw [List.take_succ_cons, steps, Outcome.escaped_andThen whole, reached]
  · rw [List.take_succ_cons, steps, Outcome.machine_andThen whole, given]

/-- Up to the failure the words are executed, and the failure is all that follows. -/
theorem steps_of_failsAt {words : List Int} {position : Nat} {failure : PromptFailure}
    (h : machine.FailsAt words position failure) (stray : failure.kind.isFault = false)
    : ∃ word question rest,
        words[position]? = some word
        ∧ question? machine.registers.size word = some question
        ∧ (machine.steps (words.take position)).machine.prompt = some (.failed failure :: rest)
        ∧ machine.steps words
          = { machine := ⟨(machine.steps (words.take position)).machine.registers, some rest⟩
              lines := (machine.steps (words.take position)).lines
              events :=
                (machine.steps (words.take position)).events
                ++ [ .logged (.executing .inputOperand (Fields.ofWord word).operands),
                    .asked question ]
              escaped := some failure } := by
  obtain ⟨reached, ⟨word, question, found, asks⟩, rest, given⟩ := h
  refine ⟨word, question, rest, found, asks, given, ?_⟩
  obtain ⟨inside, here⟩ := List.getElem?_eq_some_iff.mp found
  have split : words = words.take position ++ word :: words.drop (position + 1) := by
    rw [← here, List.getElem_cons_drop, List.take_append_drop]
  rw [← size_steps machine (words.take position)] at asks
  have stopped := step_of_failure asks given stray
  have later
      : (machine.steps (words.take position)).machine.steps (word :: words.drop (position + 1))
        = (machine.steps (words.take position)).machine.step word := by
    rw [steps]
    exact Outcome.andThen_of_escaped (congrArg Outcome.escaped stopped) _
  conv => lhs; rw [split, steps_append]
  simp only [Outcome.andThen, reached, later, stopped, List.append_nil]

/-- Words are stopped exactly where the prompt fails, by induction on the words. -/
theorem steps_escaped_iff {words : List Int} {failure : PromptFailure}
    (stray : failure.kind.isFault = false)
    : (machine.steps words).escaped = some failure
      ↔ ∃ position, machine.FailsAt words position failure := by
  constructor
  · intro escaped
    induction words generalizing machine with
    | nil => cases escaped
    | cons word words ih =>
        rw [steps] at escaped
        cases first : (machine.step word).escaped with
        | none =>
            rw [Outcome.escaped_andThen first] at escaped
            obtain ⟨position, later⟩ := ih escaped
            exact ⟨position + 1, later.cons first⟩
        | some other =>
            rw [Outcome.andThen_of_escaped first, first] at escaped
            obtain rfl := Option.some.inj escaped
            obtain ⟨_, _, ⟨_, question, found, asks⟩, given⟩ := failure_of_step_escaped first
            obtain rfl := Option.some.inj found
            exact ⟨0, rfl, ⟨word, question, rfl, asks⟩, given⟩
  · intro h
    obtain ⟨position, fails⟩ := h
    obtain ⟨_, _, _, _, _, _, stopped⟩ := steps_of_failsAt fails stray
    rw [stopped]

-----------------------------------------------------------------------------------------
-- Images that are stopped
-----------------------------------------------------------------------------------------

/-- An execution that is stopped is stopped in its words. -/
theorem execute_escaped_iff {image : Image} {failure : PromptFailure}
    : (machine.execute image).escaped = some failure
      ↔ (machine.steps image.words).escaped = some failure := by
  cases first : (machine.steps image.words).escaped with
  | none => rw [(machine.escaped_execute_eq_none_iff image).mpr first]
  | some other => rw [execute, Outcome.andThen_of_escaped first, first]

/-- What an execution that is stopped at a word has done is the execution of the words before it. -/
theorem execute_of_failsAt {image : Image} {position : Nat} {failure : PromptFailure}
    (h : machine.FailsAt image.words position failure) (stray : failure.kind.isFault = false)
    : let before := machine.execute (image.take (4 * position))
      before.escaped = none
      ∧ ∃ word question rest,
          image.words[position]? = some word
          ∧ question? machine.registers.size word = some question
          ∧ before.machine.prompt = some (.failed failure :: rest)
          ∧ machine.execute image
            = { machine := ⟨before.machine.registers, some rest⟩
                lines := before.lines
                events :=
                  before.events
                  ++ [ .logged (.executing .inputOperand (Fields.ofWord word).operands),
                      .asked question ]
                escaped := some failure } := by
  intro before
  obtain ⟨word, question, rest, found, asks, given, stopped⟩ := steps_of_failsAt h stray
  have enough : position ≤ image.words.length :=
    Nat.le_of_lt (List.getElem?_eq_some_iff.mp found).1
  have whole : (machine.steps (Image.words (image.take (4 * position)))).escaped = none := by
    rw [Image.words_take]
    exact h.reached
  obtain ⟨state, lines, events, whole'⟩ := execute_of_whole whole
  rw [Image.words_take] at state lines events
  rw [Image.tailLines_take enough, List.append_nil] at lines
  refine ⟨whole', word, question, rest, found, asks, state ▸ given, ?_⟩
  have escaped := congrArg Outcome.escaped stopped
  rw [execute, Outcome.andThen_of_escaped escaped, stopped, state, lines, events]

end Machine

-----------------------------------------------------------------------------------------
-- Sessions
-----------------------------------------------------------------------------------------

/-- A failure that no part of a session takes for its own. Instructions have three kinds of failure
themselves, and compiling and running a source text takes the rejection of a source text for that of
its own.
-/
structure PromptFailure.Stray (failure : PromptFailure) : Prop where
  noFault : failure.kind.isFault = false
  noRejection : ∀ lineNumber, failure.kind ≠ .assembly lineNumber

namespace Session

/-- The commands that execute an image, each with the records of loading it and the machine from
which it is executed. A program that is run, and a source text, start from cleared registers.
-/
inductive Launches (session : Session) : Command → List LogRecord → Machine → Image → Prop
  | execute {program image} (loaded : program.load.result = .ok image)
    : session.Launches (.execute program) program.load.log session.machine image
  | run {program image} (loaded : program.load.result = .ok image)
    : session.Launches (.run program) program.load.log
        (session.machine.withRegisters session.machine.registers.clear) image
  | runSource {source image} (assembled : (Assembly.assemble source).result = .ok image)
    : session.Launches (.runSource source) (Assembly.assemble source).log
        (session.machine.withRegisters session.machine.registers.clear) image

/-- A response that a failure of the prompt has cut off at a word of an image. The failure is passed
on as it is, the registers are those after the words before, and the answers to come those after the
failure; the last things seen are that the word begins and asks. Nothing that the command has
written comes back later, because the next execution is that of a new session on the same machine.
-/
structure CutOff (log : List LogRecord) (start : Machine) (image : Image) (position : Nat)
    (failure : PromptFailure) (response : Response)
    : Prop where
  escaped : response.answer = .error (.prompt failure)
  before : (start.execute (image.take (4 * position))).escaped = none
  registers
    : response.session.machine.registers
      = (start.execute (image.take (4 * position))).machine.registers
  answers
    : ∃ rest,
        (start.execute (image.take (4 * position))).machine.prompt
          = some (.failed failure :: rest)
        ∧ response.session.machine.prompt = some rest
  events
    : ∃ word question,
        image.words[position]? = some word
        ∧ question? start.registers.size word = some question
        ∧ response.events
          = log.map .logged ++ (start.execute (image.take (4 * position))).events
            ++ [ .logged (.executing .inputOperand (Fields.ofWord word).operands),
                .asked question ]
  next
    : ∀ image',
        response.session.perform (.execute (.image image'))
        = Session.perform ⟨response.session.machine, []⟩ (.execute (.image image'))

theorem answer_eq_prompt_iff (outcome : Outcome) (reply : Reply) (failure : PromptFailure)
    : answer outcome reply = .error (.prompt failure) ↔ outcome.escaped = some failure := by
  rw [answer]
  cases outcome.escaped <;> simp

/-- The run of a source text passes on a stray failure that escapes, and fails for nothing else. -/
theorem text_ofRun_eq_prompt_iff {outcome : Outcome} {failure : PromptFailure}
    (stray : failure.Stray)
    : (SourceRun.ofRun outcome).text = .error (.prompt failure)
      ↔ outcome.escaped = some failure := by
  cases cut : outcome.escaped with
  | none => simp [SourceRun.ofRun_of_whole cut]
  | some other =>
      by_cases foreign : ∀ lineNumber, other.kind ≠ .assembly lineNumber
      · simp [SourceRun.ofRun_of_failure cut foreign]
      · obtain ⟨lineNumber, kind⟩ := not_forall_not.mp foreign
        obtain ⟨_, message⟩ := other
        obtain rfl := kind
        have different : PromptFailure.mk (.assembly lineNumber) message ≠ failure := by
          rintro rfl
          exact stray.noRejection lineNumber rfl
        simp [SourceRun.ofRun_of_assembly cut, different]

/-- After a run to the end the contents are logged and nothing else is done, so that a command is
cut off by a stray failure exactly if the execution of its image is.
-/
theorem Launches.perform_eq {session : Session} {command : Command} {log : List LogRecord}
    {start : Machine} {image : Image} (launches : session.Launches command log start image)
    : ∃ ending : Machine → Outcome,
        (∀ machine, (ending machine).escaped = none)
        ∧ (session.perform command).session.machine
          = ((start.execute image).andThen ending).machine
        ∧ ∀ failure : PromptFailure,
            failure.Stray
            → ((session.perform command).answer = .error (.prompt failure)
                ↔ ((start.execute image).andThen ending).escaped = some failure)
              ∧ (((start.execute image).andThen ending).escaped = some failure
                → (session.perform command).events
                  = log.map .logged ++ ((start.execute image).andThen ending).events) := by
  cases launches with
  | @execute program image loaded =>
      refine ⟨.idle, ?_⟩
      rw [Outcome.andThen_idle, perform, withImage, loaded]
      exact ⟨fun _ => rfl, rfl, fun failure _ => ⟨answer_eq_prompt_iff _ _ _, fun _ => rfl⟩⟩
  | @run program image loaded =>
      refine ⟨Machine.logContents, ?_⟩
      rw [perform, withImage, loaded]
      exact ⟨fun _ => rfl, rfl, fun failure _ => ⟨answer_eq_prompt_iff _ _ _, fun _ => rfl⟩⟩
  | @runSource source image assembled =>
      refine ⟨Machine.logContents, fun _ => rfl, ?_, fun failure stray => ⟨?_, fun cut => ?_⟩⟩
      all_goals
        rw [perform, Session.runSource, Machine.runSource, assembled]
        dsimp only
        rw [Machine.run_cleared]
      · exact SourceRun.machine_ofRun _
      · exact map_eq_error_iff.trans (text_ofRun_eq_prompt_iff stray)
      · have escaped
            : ((session.machine.run image).afterLog (Assembly.assemble source).log).escaped
              = some failure := cut
        rw [SourceRun.ofRun_of_failure escaped stray.noRejection]
        rfl

/-- A run that is cut off by a failure of the prompt leaves the state before the word that asked.
A command that executes an image fails with a stray failure exactly if the prompt fails so while one
of the words is executed. Then the registers are those that the words before it alone leave, from
cleared registers where the command clears them; no later word is executed, and the next execution
writes what it would write in a new session with the same registers and the remaining answers.
-/
theorem perform_stopped {session : Session} {command : Command} {log : List LogRecord}
    {start : Machine} {image : Image} (launches : session.Launches command log start image)
    {failure : PromptFailure} (stray : failure.Stray)
    : ((session.perform command).answer = .error (.prompt failure)
        ↔ ∃ position, start.FailsAt image.words position failure)
      ∧ ∀ position,
          start.FailsAt image.words position failure
          → CutOff log start image position failure (session.perform command) := by
  obtain ⟨ending, quiet, state, passed⟩ := launches.perform_eq
  obtain ⟨answered, events⟩ := passed failure stray
  rw [answered]
  refine ⟨?_, fun position fails => ?_⟩
  · rw [← Machine.steps_escaped_iff stray.noFault, ← Machine.execute_escaped_iff]
    cases cut : (start.execute image).escaped with
    | none => rw [Outcome.escaped_andThen cut, quiet]
    | some other => rw [Outcome.andThen_of_escaped cut, cut]
  · obtain ⟨before, word, question, rest, found, asks, given, stopped⟩ :=
      Machine.execute_of_failsAt fails stray.noFault
    have cut := congrArg Outcome.escaped stopped
    rw [Outcome.andThen_of_escaped cut] at state events answered
    have events := events cut
    rw [stopped] at state events
    exact
      { escaped := answered.mpr cut
        before := before
        registers := by rw [state]
        answers := ⟨rest, given, by rw [state]⟩
        events := ⟨word, question, found, asks, by rw [events, List.append_assoc]⟩
        next := fun _ => rfl }

/-- A number is asked for and printed; the next question gets a failure of a foreign kind, so that
the copy after it is not made. The line of the number does not come back.
-/
theorem perform_stopped_second_question
    : let source := "InputOperand R0 10\nPrintOperand R0 10\nInputOperand R1 16\nCopy R2 R0"
      let image := Image.ofWords [163858, 163857, 262194, 88]
      let failure : PromptFailure := ⟨.other "RuntimeError", "gone"⟩
      let session : Session :=
        ⟨⟨⟨[3, 4, 5]⟩, some [.entered "12", .failed failure, .entered "ff"]⟩, []⟩
      let start := session.machine.withRegisters session.machine.registers.clear
      (Assembly.assemble source).result = .ok image
      ∧ failure.Stray
      ∧ start.FailsAt image.words 2 failure
      ∧ CutOff (Assembly.assemble source).log start image 2 failure
          (session.perform (.runSource source))
      ∧ (start.execute (image.take 8)).machine
        = ⟨⟨[12, 0, 0]⟩, some [.failed failure, .entered "ff"]⟩
      ∧ (start.execute (image.take 8)).text = "R0: 12\n" := by
  intro source image failure session start
  have assembled : (Assembly.assemble source).result = .ok image :=
    eq_ok_of_toOption (by decide +kernel)
  have stray : failure.Stray := ⟨rfl, fun _ => nofun⟩
  have fails : start.FailsAt image.words 2 failure :=
    ⟨rfl, ⟨262194, ⟨1, 16⟩, rfl, by decide⟩, [.entered "ff"], rfl⟩
  have launches : session.Launches (.runSource source) _ start image := .runSource assembled
  have stopped := perform_stopped launches stray
  exact ⟨assembled, stray, fails, stopped.2 2 fails, rfl, by decide +kernel⟩

end Session

end RegisterMachine
