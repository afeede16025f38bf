import RegisterMachine.Proofs.RegisterInvariant

/-! Runs do not leak into each other.
A run starts from cleared registers, of which only the number is left from before, and the lines
that a session still has are never seen again.
-/

namespace RegisterMachine

-----------------------------------------------------------------------------------------
-- Machines
-----------------------------------------------------------------------------------------

/-- Cleared registers keep nothing but their number. -/
theorem Registers.clear_eq_of_size {first second : Registers} (same : first.size = second.size)
    : first.clear = second.clear := by
  rw [clear, clear, same]

namespace Machine

variable {first second : Machine}

theorem cleared_eq_of_size (prompt : first.prompt = second.prompt)
    (size : first.registers.size = second.registers.size)
    : first.withRegisters first.registers.clear = second.withRegisters second.registers.clear := by
  rw [withRegisters, withRegisters, Registers.clear_eq_of_size size, prompt]

theorem run_eq_of_size (prompt : first.prompt = second.prompt)
    (size : first.registers.size = second.registers.size) (image : Image)
    : first.run image = second.run image := by
  rw [run, run, cleared_eq_of_size prompt size]

/-- Clearing the registers before a run makes no difference to it. -/
theorem run_cleared (machine : Machine) (image : Image)
    : (machine.withRegisters machine.registers.clear).run image = machine.run image := by
  have prompt : (machine.withRegisters machine.registers.clear).prompt = machine.prompt := rfl
  exact run_eq_of_size prompt (Registers.size_clear _) image

theorem runSource_eq_of_size (prompt : first.prompt = second.prompt)
    (size : first.registers.size = second.registers.size) (source : String)
    : first.runSource source = second.runSource source := by
  rw [runSource, runSource, cleared_eq_of_size prompt size]

end Machine

-----------------------------------------------------------------------------------------
-- Sessions
-----------------------------------------------------------------------------------------

/-- Two responses that look the same and leave the same machine behind. Only lines from before,
which the sessions still have, may differ.
-/
structure Response.Indistinct (first second : Response) : Prop where
  answer : first.answer = second.answer
  events : first.events = second.events
  stages : first.stages = second.stages
  machine : first.session.machine = second.session.machine

namespace Session

/-- The commands that take images or source texts and start from cleared registers. -/
inductive StartsCleared : Command → Prop
  | run (image : Image) : StartsCleared (.run (.image image))
  | runSource (source : String) : StartsCleared (.runSource source)

variable {first second : Session}

/-- Sessions on the same machine respond alike to a command that needs an image if they do so once
there is one.
-/
theorem withImage_indistinct {next : Session → List LogRecord → Image → Response}
    (same : first.machine = second.machine)
    (hnext : ∀ log image, (next first log image).Indistinct (next second log image))
    (program : Program)
    : (first.withImage program next).Indistinct (second.withImage program next) := by
  rw [withImage, withImage]
  cases program.load.result with
  | error error => exact ⟨rfl, rfl, rfl, same⟩
  | ok image => exact hnext _ image

/-- Sessions on the same machine respond alike whatever lines they still have, by cases on the
command.
-/
theorem perform_indistinct (same : first.machine = second.machine) (command : Command)
    : (first.perform command).Indistinct (second.perform command) := by
  obtain ⟨machine, output⟩ := first
  obtain ⟨_, output'⟩ := second
  obtain rfl := same
  cases command with
  | clear | dump | size | word | runSource => exact ⟨rfl, rfl, rfl, rfl⟩
  | get index =>
      rw [perform, perform]
      cases machine.registers.get index <;> exact ⟨rfl, rfl, rfl, rfl⟩
  | set index value =>
      rw [perform, perform]
      cases machine.registers.set index value <;> exact ⟨rfl, rfl, rfl, rfl⟩
  | line text =>
      rw [perform, perform]
      cases Assembly.issueLine text <;> exact ⟨rfl, rfl, rfl, rfl⟩
  | execute program | run program | runFresh program =>
      have same : Session.machine ⟨machine, output⟩ = Session.machine ⟨machine, output'⟩ := rfl
      rw [perform, perform]
      exact withImage_indistinct same (fun _ _ => ⟨rfl, rfl, rfl, rfl⟩) program

/-- Sessions on the same machine go on alike, by induction on the commands. -/
theorem performAll_indistinct (same : first.machine = second.machine) (commands : List Command)
    : List.Forall₂ Response.Indistinct (first.performAll commands)
        (second.performAll commands) := by
  induction commands generalizing first second with
  | nil => exact .nil
  | cons command commands ih =>
      have here := perform_indistinct same command
      exact .cons here (ih here.machine)

/-- Of the registers before it only their number matters to a command that clears them. -/
theorem StartsCleared.indistinct {command : Command} (starts : StartsCleared command)
    (prompt : first.machine.prompt = second.machine.prompt)
    (size : first.machine.registers.size = second.machine.registers.size)
    : (first.perform command).Indistinct (second.perform command) := by
  cases starts with
  | run image =>
      have same := Machine.run_eq_of_size prompt size image
      have found (session : Session)
          : session.perform (.run (.image image)) = session.run [] image := rfl
      rw [found, found, Session.run, Session.run, same]
      exact ⟨rfl, rfl, rfl, rfl⟩
  | runSource source =>
      have same := Machine.runSource_eq_of_size prompt size source
      rw [perform, perform, Session.runSource, Session.runSource, same]
      exact ⟨rfl, rfl, rfl, rfl⟩

/-- A run on a machine of its own looks like one on any full machine. -/
theorem runFresh_eq_run (prompt : first.machine.prompt = second.machine.prompt)
    (full : second.machine.registers.size = registerCount) (image : Image)
    : (first.perform (.runFresh (.image image))).answer
          = (second.perform (.run (.image image))).answer
        ∧ (first.perform (.runFresh (.image image))).events
          = (second.perform (.run (.image image))).events := by
  have prompt' : (first.machine.withRegisters .full).prompt = second.machine.prompt := prompt
  have size
      : (first.machine.withRegisters .full).registers.size = second.machine.registers.size :=
    (Registers.size_zeros registerCount).trans full.symm
  have same := Machine.run_eq_of_size prompt' size image
  have fresh : first.perform (.runFresh (.image image)) = first.runFresh [] image := rfl
  have shared : second.perform (.run (.image image)) = second.run [] image := rfl
  rw [fresh, shared, runFresh, run, same]
  exact ⟨rfl, rfl⟩

/-- Runs do not leak into each other.
Take two sessions with as many registers each, whatever the registers hold, after any commands given
with any answers, runs that were cut short included. A run and a source run with the same answers to
come look the same in both and leave the same registers, and whatever comes later looks the same as
well. On full machines a run looks like one on a machine of its own. An execution depends on the
registers as they are and on the answers to come, but not on lines from before.
-/
theorem runs_isolated (first second : Session)
    (size : first.machine.registers.size = second.machine.registers.size)
    (history history' : List (Prompt × Command)) (prompt : Prompt)
    : let here := (first.advance history).withPrompt prompt
      let there := (second.advance history').withPrompt prompt
      (∀ command,
        StartsCleared command
        → (here.perform command).Indistinct (there.perform command)
          ∧ ∀ later,
              List.Forall₂ Response.Indistinct
                ((here.perform command).session.performAll later)
                ((there.perform command).session.performAll later))
      ∧ (first.machine.registers.size = registerCount
        → ∀ (own : Session) (image : Image),
            ((own.withPrompt prompt).perform (.runFresh (.image image))).answer
              = (here.perform (.run (.image image))).answer
            ∧ ((own.withPrompt prompt).perform (.runFresh (.image image))).events
              = (here.perform (.run (.image image))).events)
      ∧ (here.machine.registers = there.machine.registers
        → ∀ image : Image,
            here.perform (.execute (.image image))
            = there.perform (.execute (.image image))) := by
  intro here there
  have sizeHere : here.machine.registers.size = first.machine.registers.size :=
    size_advance first history
  have sizeThere : there.machine.registers.size = second.machine.registers.size :=
    size_advance second history'
  have sameSize : here.machine.registers.size = there.machine.registers.size := by
    rw [sizeHere, sizeThere, size]
  refine ⟨fun command starts => ?_, fun full own image => ?_, fun same image => ?_⟩
  · have alike : (here.perform command).Indistinct (there.perform command) :=
      starts.indistinct rfl sameSize
    exact ⟨alike, performAll_indistinct alike.machine⟩
  · exact runFresh_eq_run rfl (sizeHere.trans full) image
  · have machine : here.machine = there.machine := congrArg (Machine.mk · prompt) same
    have executed (session : Session)
        : session.perform (.execute (.image image)) = session.execute [] image := rfl
    rw [executed, executed, execute, execute, machine]

/-- A number is printed, and the question after it fails in a foreign way. The line that is left
makes no difference to what comes next.
-/
theorem runs_isolated_stopped_execution
    : let stopped := Image.ofWords [163857, 163858]
      let failure : PromptFailure := ⟨.other "RuntimeError", "gone"⟩
      let history : List (Prompt × Command) :=
        [(some [.failed failure], .execute (.image stopped))]
      let here := ((start 512 none).advance history).withPrompt (some [.entered "12"])
      let there := (start 512 none).withPrompt (some [.entered "12"])
      (here.perform (.run (.image stopped))).Indistinct (there.perform (.run (.image stopped)))
      ∧ ((start 3 (some [.entered "12"])).perform (.runFresh (.image stopped))).answer
        = (here.perform (.run (.image stopped))).answer
      ∧ here.perform (.execute (.image stopped)) = there.perform (.execute (.image stopped))
      ∧ outputText here.output = "R0: 0\n"
      ∧ there.output = [] := by
  intro stopped failure history here there
  have size : (start 512 none).machine.registers.size = (start 512 none).machine.registers.size :=
    rfl
  have registers : here.machine.registers = there.machine.registers := by
    decide +kernel
  obtain ⟨cleared, fresh, executed⟩ :=
    runs_isolated (start 512 none) (start 512 none) size history [] (some [.entered "12"])
  have full : (start 512 none).machine.registers.size = registerCount :=
    Registers.size_zeros 512
  exact ⟨(cleared _ (.run stopped)).1, (fresh full (start 3 none) stopped).1,
    executed registers stopped, by decide +kernel, rfl⟩

end Session

end RegisterMachine
