import Mathlib
import RegisterMachine.Machine

/-! What every step keeps is kept by a whole run.
States, lines and escaping failures are followed together, since a line is judged in the state in
which it was written.
-/

namespace RegisterMachine

section
variable {States : Machine → Prop} {Lines : Line → Prop} {Failures : PromptFailure → Prop}

/-- A run ends in a state of a class, writes lines of a class only, and is cut short by failures of
a class only.
-/
structure Outcome.Within (States : Machine → Prop) (Lines : Line → Prop)
    (Failures : PromptFailure → Prop) (outcome : Outcome)
    : Prop where
  state : States outcome.machine
  lines : ∀ line ∈ outcome.lines, Lines line
  failures : ∀ failure, outcome.escaped = some failure → Failures failure

namespace Outcome

theorem within_writing {machine : Machine} {lines : List Line} (state : States machine)
    (written : ∀ line ∈ lines, Lines line)
    : (writing machine lines).Within States Lines Failures :=
  ⟨state, written, nofun⟩

theorem within_idle {machine : Machine} (state : States machine)
    : (idle machine).Within States Lines Failures :=
  within_writing state (by simp)

theorem Within.after {outcome : Outcome} (h : outcome.Within States Lines Failures) (event : Event)
    : (outcome.after event).Within States Lines Failures :=
  ⟨h.state, h.lines, h.failures⟩

/-- A run within some classes is within greater ones. -/
theorem Within.mono {States' : Machine → Prop} {Lines' : Line → Prop} {outcome : Outcome}
    (h : outcome.Within States Lines Failures)
    (states : ∀ machine, States machine → States' machine)
    (lines : ∀ line, Lines line → Lines' line)
    : outcome.Within States' Lines' Failures :=
  ⟨states _ h.state, fun line member => lines line (h.lines line member), h.failures⟩

/-- A run that goes on stays within the classes, by cases on whether it was cut short before. -/
theorem Within.andThen {first : Outcome} {next : Machine → Outcome}
    (h : first.Within States Lines Failures)
    (hnext : ∀ machine, States machine → (next machine).Within States Lines Failures)
    : (first.andThen next).Within States Lines Failures := by
  cases cut : first.escaped with
  | some failure => simpa only [Outcome.andThen, cut] using h
  | none =>
      have later := hnext first.machine h.state
      simp only [Outcome.andThen, cut]
      refine ⟨later.state, fun line member => ?_, later.failures⟩
      rcases List.mem_append.mp member with earlier | last
      · exact h.lines line earlier
      · exact later.lines line last

end Outcome

namespace Machine

/-- Words whose steps stay within the classes are executed within them, by induction on the words.
-/
theorem steps_within {words : List Int}
    (step
      : ∀ word ∈ words,
          ∀ machine : Machine,
            States machine → (machine.step word).Within States Lines Failures)
    {machine : Machine} (state : States machine)
    : (machine.steps words).Within States Lines Failures := by
  induction words generalizing machine with
  | nil => exact Outcome.within_idle state
  | cons word words ih =>
      obtain ⟨here, rest⟩ := List.forall_mem_cons.mp step
      exact (here machine state).andThen fun machine state => ih rest state

/-- An image is executed within the classes if its words are and the line about a partial word is of
the class.
-/
theorem execute_within {image : Image}
    (step
      : ∀ word ∈ image.words,
          ∀ machine : Machine,
            States machine → (machine.step word).Within States Lines Failures)
    (truncated : ∀ truncation, image.truncation? = some truncation → Lines (.truncated truncation))
    {machine : Machine} (state : States machine)
    : (machine.execute image).Within States Lines Failures := by
  refine (steps_within step state).andThen fun machine state => ?_
  rw [reportTruncation]
  cases found : image.truncation? with
  | none => exact Outcome.within_idle state
  | some truncation =>
      refine Outcome.within_writing state fun line member => ?_
      rw [List.mem_singleton.mp member]
      exact truncated truncation found

/-- A run is an execution from cleared registers. -/
theorem run_within {image : Image}
    (step
      : ∀ word ∈ image.words,
          ∀ machine : Machine,
            States machine → (machine.step word).Within States Lines Failures)
    (truncated : ∀ truncation, image.truncation? = some truncation → Lines (.truncated truncation))
    {machine : Machine} (cleared : States (machine.withRegisters machine.registers.clear))
    : (machine.run image).Within States Lines Failures :=
  (execute_within step truncated cleared).andThen fun _ state => (Outcome.within_idle state).after _

end Machine

end

end RegisterMachine
