import RegisterMachine.Proofs.Observation
import RegisterMachine.Proofs.WordFields

/-! Executions of images, cut into their words and what is left after the last of them.
-/

namespace RegisterMachine

/-- The lines about what is left of an image after its whole words, for an image that starts at an
offset.
-/
def Image.tailLines (offset : Nat) (image : Image) : List Line :=
  if image.length % 4 = 0 then
    []
  else
    [.truncated ⟨offset + 4 * (image.length / 4), image.length % 4⟩]

namespace Machine

-----------------------------------------------------------------------------------------
-- Words of a run
-----------------------------------------------------------------------------------------

/-- The lines that a word writes after other words of a program. -/
def linesAfter (machine : Machine) (before : List Int) (word : Int) : List Line :=
  ((machine.steps before).machine.step word).lines

theorem steps_snoc {machine : Machine} {before : List Int}
    (whole : (machine.steps before).escaped = none) (word : Int)
    : (machine.steps (before ++ [word])).machine
      = ((machine.steps before).machine.step word).machine := by
  rw [steps_append, Outcome.machine_andThen whole]
  exact congrArg Outcome.machine (Outcome.andThen_idle _)

-----------------------------------------------------------------------------------------
-- The end of an image
-----------------------------------------------------------------------------------------

theorem reportTruncation_eq (image : Image) (machine : Machine)
    : reportTruncation image machine = .writing machine (image.tailLines 0) := by
  rw [reportTruncation, Image.truncation?, Image.truncationFrom?_eq, Image.tailLines]
  by_cases aligned : image.length % 4 = 0
  · rw [if_pos aligned, if_pos aligned]
    rfl
  · rw [if_neg aligned, if_neg aligned]

/-- A line about a partial word depends on the length of the image only. -/
theorem reportTruncation_congr {image image' : Image} (length : image'.length = image.length)
    : reportTruncation image' = reportTruncation image := by
  funext machine
  rw [reportTruncation_eq, reportTruncation_eq, Image.tailLines, Image.tailLines, length]

theorem reportTruncation_whole (image : Image) (machine : Machine)
    : (reportTruncation image machine).escaped = none := by
  rw [reportTruncation_eq]
  rfl

/-- What an execution adds to the steps of its words. -/
theorem execute_of_whole {machine : Machine} {image : Image}
    (whole : (machine.steps image.words).escaped = none)
    : (machine.execute image).machine = (machine.steps image.words).machine
      ∧ (machine.execute image).lines = (machine.steps image.words).lines ++ image.tailLines 0
      ∧ (machine.execute image).events = (machine.steps image.words).events
      ∧ (machine.execute image).escaped = none := by
  have tail := reportTruncation_eq image (machine.steps image.words).machine
  rw [execute, Outcome.machine_andThen whole, Outcome.lines_andThen whole,
    Outcome.events_andThen whole, Outcome.escaped_andThen whole, tail]
  exact ⟨rfl, rfl, List.append_nil _, rfl⟩

/-- The words of an image are stopped if and only if its execution is. -/
theorem escaped_execute_eq_none_iff (machine : Machine) (image : Image)
    : (machine.execute image).escaped = none
      ↔ (machine.steps image.words).escaped = none := by
  rw [execute, Outcome.escaped_andThen_eq_none_iff]
  exact and_iff_left (reportTruncation_whole image _)

end Machine

end RegisterMachine
