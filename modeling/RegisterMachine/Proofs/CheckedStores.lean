import RegisterMachine.Proofs.WordConduct

/-! Stores that check their index again change nothing.
An effect names only registers that exist, and no store changes how many there are. So an
instruction that checks the index of each register when it stores a value there cannot fail any
more.
-/

namespace RegisterMachine

namespace Registers

/-- Stores values with a check in front of each store. -/
def setAll (registers : Registers) (stores : List (Int × Int)) : Except IndexOutOfRange Registers :=
  stores.foldlM (fun registers (index, value) => registers.set index value) registers

theorem set_of_contains {registers : Registers} {index : Int}
    (destination : registers.Contains index) (value : Int)
    : registers.set index value = .ok (registers.store index value) :=
  if_pos destination

/-- Registers that exist are still there after a store, by induction on the stores. -/
theorem setAll_eq_storeAll {registers : Registers} {stores : List (Int × Int)}
    (reachable : ∀ store ∈ stores, registers.Contains store.1)
    : registers.setAll stores = .ok (registers.storeAll stores) := by
  induction stores generalizing registers with
  | nil => rfl
  | cons store stores ih =>
      obtain ⟨index, value⟩ := store
      obtain ⟨here, later⟩ := List.forall_mem_cons.mp reachable
      have kept : ∀ other ∈ stores, (registers.store index value).Contains other.1 := by
        simpa only [Contains, size_store] using later
      have first : registers.set index value = .ok (registers.store index value) :=
        set_of_contains here value
      simp only [setAll, List.foldlM_cons, first]
      exact ih kept

end Registers

namespace Machine

/-- Takes an answer to a question, and checks the register again before a value is stored. -/
def acceptChecked (machine : Machine) (question : Question) (answer : Answer)
    : Except IndexOutOfRange Outcome :=
  match answer with
  | .entered text =>
      match readNumeral text question.base with
      | .ok value =>
          (machine.registers.set question.register value).map fun registers =>
            .idle (machine.withRegisters registers)
      | .error _ => .ok (machine.accept question answer)
  | _ => .ok (machine.accept question answer)

/-- Carries out an effect, with a check in front of each store. -/
def carryOutChecked (machine : Machine) : Effect → Except IndexOutOfRange Outcome
  | .write stores =>
      (machine.registers.setAll stores).map fun registers =>
        .idle (machine.withRegisters registers)
  | .report lines => .ok (.writing machine lines)
  | .ask question =>
      match machine.prompt with
      | none => .ok (machine.ask question)
      | some answers =>
          let (answer, rest) := nextAnswer answers
          (acceptChecked { machine with prompt := some rest } question answer).map
            (.after (.asked question))

theorem acceptChecked_eq_accept {machine : Machine} {question : Question}
    (destination : machine.registers.Contains question.register) (answer : Answer)
    : machine.acceptChecked question answer = .ok (machine.accept question answer) := by
  cases answer with
  | cancelled => rfl
  | failed failure => rfl
  | entered text =>
      rw [acceptChecked, accept]
      cases readNumeral text question.base with
      | error error => rfl
      | ok value => simp only [Registers.set_of_contains destination, Except.map]

/-- The effect of an operation is carried out as if its stores were checked again, and no check
fails. The register of a question may be stored to long after it was looked at.
-/
theorem carryOutChecked_eq_carryOut {machine : Machine} {action : Action} {operands : Operands}
    {effect : Effect} (given : action.effect machine.registers operands = .ok effect)
    : machine.carryOutChecked effect = .ok (machine.carryOut effect) := by
  have rule := Action.effect_eq_ok_iff.mp given
  cases effect with
  | write stores =>
      rw [carryOutChecked, Registers.setAll_eq_storeAll (write_reachable rule).2]
      rfl
  | report lines => rfl
  | ask question =>
      cases rule with
      | ask destination base =>
          obtain ⟨registers, prompt⟩ := machine
          cases prompt with
          | none => rfl
          | some answers =>
              have accepted
                  : acceptChecked ⟨registers, some (nextAnswer answers).2⟩ _ (nextAnswer answers).1
                    = .ok (accept ⟨registers, some (nextAnswer answers).2⟩
                        ⟨operands.first, operands.second⟩ (nextAnswer answers).1) :=
                acceptChecked_eq_accept destination _
              simp only [carryOutChecked, carryOut, ask, accepted, Except.map]

end Machine

end RegisterMachine
