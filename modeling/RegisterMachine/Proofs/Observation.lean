import Mathlib
import RegisterMachine.Machine

/-! What an observer without the log can tell of a run.
Runs that are alike stay alike when they go on in the same way.
-/

namespace RegisterMachine

namespace Outcome

/-- Two runs that end in the same state, write the same lines, ask the same questions and let the
same failure escape; they may leave different records in the log.
-/
structure Alike (first second : Outcome) : Prop where
  machine : first.machine = second.machine
  lines : first.lines = second.lines
  questions : first.questions = second.questions
  escaped : first.escaped = second.escaped

theorem Alike.refl (outcome : Outcome) : Alike outcome outcome :=
  ⟨rfl, rfl, rfl, rfl⟩

theorem Alike.symm {first second : Outcome} (h : Alike first second) : Alike second first :=
  ⟨h.machine.symm, h.lines.symm, h.questions.symm, h.escaped.symm⟩

theorem Alike.trans {first second third : Outcome} (h : Alike first second)
    (h' : Alike second third)
    : Alike first third :=
  ⟨h.machine.trans h'.machine, h.lines.trans h'.lines, h.questions.trans h'.questions,
    h.escaped.trans h'.escaped⟩

theorem machine_andThen {first : Outcome} (whole : first.escaped = none)
    (next : Machine → Outcome)
    : (first.andThen next).machine = (next first.machine).machine := by
  simp only [andThen, whole]

theorem lines_andThen {first : Outcome} (whole : first.escaped = none) (next : Machine → Outcome)
    : (first.andThen next).lines = first.lines ++ (next first.machine).lines := by
  simp only [andThen, whole]

theorem escaped_andThen {first : Outcome} (whole : first.escaped = none)
    (next : Machine → Outcome)
    : (first.andThen next).escaped = (next first.machine).escaped := by
  simp only [andThen, whole]

theorem questions_andThen {first : Outcome} (whole : first.escaped = none)
    (next : Machine → Outcome)
    : (first.andThen next).questions = first.questions ++ (next first.machine).questions := by
  simp only [andThen, whole, questions, List.filterMap_append]

theorem events_andThen {first : Outcome} (whole : first.escaped = none)
    (next : Machine → Outcome)
    : (first.andThen next).events = first.events ++ (next first.machine).events := by
  simp only [andThen, whole]

theorem andThen_of_escaped {first : Outcome} {failure : PromptFailure}
    (cut : first.escaped = some failure) (next : Machine → Outcome)
    : first.andThen next = first := by
  simp only [andThen, cut]

/-- A run is whole exactly when both of its parts are. -/
theorem escaped_andThen_eq_none_iff {first : Outcome} {next : Machine → Outcome}
    : (first.andThen next).escaped = none
      ↔ first.escaped = none ∧ (next first.machine).escaped = none := by
  cases cut : first.escaped with
  | some failure => simp [andThen_of_escaped cut, cut]
  | none => simp [escaped_andThen cut]

/-- Alike runs that go on alike are alike, by cases on whether the first part is cut short. -/
theorem Alike.andThen {first second : Outcome} {next next' : Machine → Outcome}
    (h : Alike first second) (hnext : ∀ machine, Alike (next machine) (next' machine))
    : Alike (first.andThen next) (second.andThen next') := by
  obtain ⟨machine, lines, questions, escaped⟩ := h
  cases whole : first.escaped with
  | some failure =>
      have cut : second.escaped = some failure := escaped.symm.trans whole
      simp only [Outcome.andThen, whole, cut]
      exact ⟨machine, lines, questions, escaped⟩
  | none =>
      have whole' : second.escaped = none := escaped.symm.trans whole
      obtain ⟨machine', lines', questions', escaped'⟩ := hnext second.machine
      refine ⟨?_, ?_, ?_, ?_⟩
      · simpa only [Outcome.andThen, whole, whole', machine] using machine'
      · simpa only [Outcome.andThen, whole, whole', machine, lines]
          using congrArg (second.lines ++ ·) lines'
      · rw [questions_andThen whole, questions_andThen whole', machine, questions, questions']
      · simpa only [Outcome.andThen, whole, whole', machine] using escaped'

theorem after_logged_alike (record : LogRecord) (outcome : Outcome)
    : Alike (after (.logged record) outcome) outcome :=
  ⟨rfl, rfl, rfl, rfl⟩

end Outcome

namespace Machine

theorem logContents_alike (machine : Machine)
    : (logContents machine).Alike (.idle machine) :=
  Outcome.after_logged_alike _ _

/-- Images that are executed alike from every state are run alike. -/
theorem run_alike {first second : Image}
    (h : ∀ machine : Machine, (machine.execute first).Alike (machine.execute second))
    (machine : Machine)
    : (machine.run first).Alike (machine.run second) :=
  (h _).andThen fun _ => .refl _

end Machine

end RegisterMachine
