import RegisterMachine.Proofs.AssembledWords
import RegisterMachine.Proofs.Observation

/-! Words are canonical if they are zero in the slots that their operation does not take.
These slots are never looked at, so that every word of a known operation is executed like its
canonical word.
-/

namespace RegisterMachine

-----------------------------------------------------------------------------------------
-- Operands outside the pattern
-----------------------------------------------------------------------------------------

namespace Operands

/-- The operands in the slots of a pattern, and zero in all other slots. -/
def restrict (operands : Operands) (pattern : Pattern) : Operands :=
  let keep (slot : Slot) := if slot ∈ pattern.map Prod.snd then operands.get slot else 0
  ⟨keep .first, keep .second, keep .third⟩

theorem get_restrict (operands : Operands) (pattern : Pattern) (slot : Slot)
    : (operands.restrict pattern).get slot
      = if slot ∈ pattern.map Prod.snd then operands.get slot else 0 := by
  cases slot <;> rfl

theorem restrict_eq_self {operands : Operands} {pattern : Pattern}
    (h : ∀ slot, slot ∉ pattern.map Prod.snd → operands.get slot = 0)
    : operands.restrict pattern = operands := by
  apply ext_get
  intro slot
  rw [get_restrict]
  split
  · rfl
  · next unlisted => exact (h slot unlisted).symm

end Operands

/-- No action looks at an operand outside the pattern of its operation. -/
theorem Operation.effect_restrict (operation : Operation) (registers : Registers)
    (operands : Operands)
    : operation.action.effect registers (operands.restrict operation.pattern)
      = operation.action.effect registers operands := by
  cases operation <;> rfl

-----------------------------------------------------------------------------------------
-- Canonical words
-----------------------------------------------------------------------------------------

namespace Instruction

/-- The instruction in the low 32 bits of an integer, if the operation is known. -/
def ofWord? (word : Int) : Option Instruction :=
  (Operation.ofCode? (Fields.ofWord word).opcode).map fun operation =>
    ⟨operation, (Fields.ofWord word).operands⟩

def word (instruction : Instruction) : Int :=
  instruction.fields.toWord

/-- The same instruction with zero in the slots that its operation does not take. -/
def canonical (instruction : Instruction) : Instruction :=
  { instruction with operands := instruction.operands.restrict instruction.operation.pattern }

theorem fields_of_ofWord? {word : Int} {instruction : Instruction}
    (h : ofWord? word = some instruction)
    : instruction.fields = Fields.ofWord word := by
  obtain ⟨operation, known, rfl⟩ := Option.map_eq_some_iff.mp h
  rw [fields, (Operation.ofCode?_eq_some_iff _ _).mp known]

theorem fit_of_ofWord? {word : Int} {instruction : Instruction}
    (h : ofWord? word = some instruction)
    : instruction.fields.Fit := by
  rw [fields_of_ofWord? h]
  exact Fields.fit_ofWord word

/-- Instructions whose operands fit are found in their words. -/
theorem ofWord?_word {instruction : Instruction} (fit : instruction.fields.Fit)
    : ofWord? instruction.word = some instruction := by
  rw [ofWord?, word, fit.ofWord_toWord, fields, Operation.ofCode?_code]
  rfl

theorem fit_canonical {instruction : Instruction} (fit : instruction.fields.Fit)
    : instruction.canonical.fields.Fit := by
  obtain ⟨code, operands⟩ := (Fields.fit_iff _).mp fit
  refine (Fields.fit_iff _).mpr ⟨code, fun slot => ?_⟩
  have hslot := operands slot
  simp only [fields, canonical, Operands.get_restrict] at hslot ⊢
  split <;> omega

end Instruction

-----------------------------------------------------------------------------------------
-- Execution
-----------------------------------------------------------------------------------------

/-- Words with the same instruction, up to operands that it does not take, are executed alike. -/
theorem Machine.step_canonical_alike {word : Int} {instruction : Instruction}
    (h : Instruction.ofWord? word = some instruction) (machine : Machine)
    : (machine.step word).Alike (machine.step instruction.canonical.word) := by
  have fields := Instruction.fields_of_ofWord? h
  have fields' := Instruction.fields_of_ofWord? (Instruction.ofWord?_word
    (Instruction.fit_canonical (Instruction.fit_of_ofWord? h)))
  have perform
      : machine.perform instruction.operation instruction.canonical.operands
        = machine.perform instruction.operation instruction.operands := by
    simp only [Machine.perform, Instruction.canonical, Operation.effect_restrict]
  rw [step, step, ← fields, ← fields']
  simp only [Instruction.fields, Instruction.canonical, Operation.ofCode?_code] at perform ⊢
  rw [perform]
  -- Only the records in the log show that the operands were different.
  exact (Outcome.after_logged_alike _ _).trans (Outcome.after_logged_alike _ _).symm

/-- What is left of an image if its words are made canonical. -/
def Image.canonical (image : Image) : Image :=
  .ofWords ((image.words.filterMap Instruction.ofWord?).map fun instruction =>
    instruction.canonical.word)

/-- Words of known operations are executed like their canonical words, by induction on the words. -/
theorem Machine.steps_canonical_alike {words : List Int}
    (known : ∀ word ∈ words, (Instruction.ofWord? word).isSome) (machine : Machine)
    : (machine.steps words).Alike
        (machine.steps ((words.filterMap Instruction.ofWord?).map fun instruction =>
          instruction.canonical.word)) := by
  induction words generalizing machine with
  | nil => exact .refl _
  | cons word words ih =>
      obtain ⟨here, rest⟩ := List.forall_mem_cons.mp known
      obtain ⟨instruction, found⟩ := Option.isSome_iff_exists.mp here
      rw [List.filterMap_cons_some found, List.map_cons, steps, steps]
      exact (step_canonical_alike found machine).andThen (ih rest)

/-- An image of whole words of known operations is executed like its canonical image. -/
theorem Machine.execute_canonical_alike {image : Image} (whole : image.length % 4 = 0)
    (known
      : ∀ word ∈ image.words,
          ∃ operation, Operation.ofCode? (Fields.ofWord word).opcode = some operation)
    (machine : Machine)
    : (machine.execute image).Alike (machine.execute image.canonical) := by
  have whole : reportTruncation image = Outcome.idle := by
    funext machine
    rw [reportTruncation, Image.truncation?, (Image.truncationFrom?_eq_none_iff 0 image).mpr whole]
  have words : ∀ word ∈ (image.words.filterMap Instruction.ofWord?).map fun instruction =>
      instruction.canonical.word, IsWord word := by
    intro word member
    obtain ⟨instruction, found, rfl⟩ := List.mem_map.mp member
    obtain ⟨original, _, found⟩ := List.mem_filterMap.mp found
    exact (Instruction.fit_canonical (Instruction.fit_of_ofWord? found)).isWord_toWord
  rw [execute, whole, Outcome.andThen_idle, Image.canonical, execute_ofWords words]
  refine steps_canonical_alike (fun word member => ?_) machine
  obtain ⟨operation, found⟩ := known word member
  rw [Instruction.ofWord?, found]
  rfl

end RegisterMachine
