import RegisterMachine.Proofs.BitPatterns
import RegisterMachine.Proofs.EffectRules

/-! The checks that an instruction makes of its operands, one after the other.
The first check that does not pass decides the fault; where all of them pass there is none, because
functions are applied only where they are defined.
-/

namespace RegisterMachine

-----------------------------------------------------------------------------------------
-- Defined functions
-----------------------------------------------------------------------------------------

/-- The function of an action, if it may fail, has a result wherever it is applied. -/
def Action.Defined : Action → Prop
  | .binary function => ∀ a b, ∃ result, function a b = .ok result
  | .divide function => ∀ a b, b ≠ 0 → ∃ result, function a b = .ok result
  | _ => True

/-- Counts are reduced before they are used, and divisors are tested. -/
theorem Operation.action_defined (operation : Operation)
    : operation.action.Defined := by
  have reduced (count : Int) : ¬ Bitwise.and count 31 < 0 := by
    rw [Bitwise.and_31]
    omega
  cases operation with
  | disjunction | conjunction | xor | implication | coimplication | equivalence | pierceArrow
  | shefferStroke | addition | subtraction | multiplication => exact fun a b => ⟨_, rfl⟩
  | division =>
      intro a b nonzero
      exact ⟨_, Arithmetic.quotient_eq_ok a nonzero⟩
  | modulo =>
      intro a b nonzero
      exact ⟨_, Arithmetic.remainder_eq_ok a nonzero⟩
  | shiftLeft | shiftRight => exact fun a b => ⟨_, if_neg (reduced b)⟩
  | rotateLeft => exact fun a b => ⟨_, Arithmetic.rotateLeft_eq _ a (by omega) (by omega)⟩
  | rotateRight => exact fun a b => ⟨_, Arithmetic.rotateRight_eq _ a (by omega) (by omega)⟩
  | _ => trivial

-----------------------------------------------------------------------------------------
-- Checks in order
-----------------------------------------------------------------------------------------

/-- What an instruction makes sure of before it has an effect: that an operand names a register, or
that it is a base.
-/
inductive Check where
  | register (slot : Slot)
  | base (slot : Slot)

section Checks

variable (registers : Registers) (operands : Operands)

def Check.Passes : Check → Prop
  | .register slot => registers.Contains (operands.get slot)
  | .base slot => IsBase (operands.get slot)

instance : DecidablePred (Check.Passes registers operands)
  | .register slot => inferInstanceAs (Decidable (registers.Contains (operands.get slot)))
  | .base slot => inferInstanceAs (Decidable (IsBase (operands.get slot)))

def Check.fault : Check → Fault
  | .register slot => .index ⟨operands.get slot, registers.size⟩
  | .base slot => .base ⟨operands.get slot⟩

/-- The fault of the first check that does not pass. -/
def firstFault? (checks : List Check) : Option Fault :=
  (checks.find? fun check => ¬ check.Passes registers operands).map
    (Check.fault registers operands)

/-- A computation makes checks in some order, and fails at the first one that does not pass. -/
def Checked {α : Type} (checks : List Check) (result : Except Fault α) : Prop :=
  ∀ fault, result = .error fault ↔ firstFault? registers operands checks = some fault

theorem firstFault?_cons (check : Check) (checks : List Check)
    : firstFault? registers operands (check :: checks)
      = if check.Passes registers operands then
          firstFault? registers operands checks
        else
          some (check.fault registers operands) := by
  rw [firstFault?, List.find?_cons]
  by_cases passes : check.Passes registers operands
  · simp only [passes, not_true, decide_false, if_true, firstFault?]
  · simp only [passes, not_false_eq_true, decide_true, if_false, Option.map_some]

end Checks

namespace Checked

variable {α β : Type} {registers : Registers} {operands : Operands} {checks : List Check}

theorem ok (a : α)
    : Checked registers operands [] (.ok a) :=
  fun _ => ⟨nofun, nofun⟩

/-- One check after the other, by whether the first one passes. -/
theorem bind {check : Check} {first : Except Fault α} {next : α → Except Fault β}
    (fails
      : ∀ fault,
          first = .error fault
          ↔ ¬ check.Passes registers operands ∧ fault = check.fault registers operands)
    (later : ∀ a, first = .ok a → Checked registers operands checks (next a))
    : Checked registers operands (check :: checks) (first >>= next) := by
  intro fault
  rw [firstFault?_cons]
  by_cases passes : check.Passes registers operands
  · rw [if_pos passes]
    cases result : first with
    | error fault => exact (((fails fault).mp result).1 passes).elim
    | ok a => exact later a result fault
  · rw [if_neg passes, (fails _).mpr ⟨passes, rfl⟩]
    change Except.error _ = Except.error fault ↔ _
    rw [Except.error.injEq, Option.some.injEq]

theorem fetch {slot : Slot} {next : Int → Except Fault β}
    (later
      : ∀ value,
          registers.Contains (operands.get slot) ∧ registers.value (operands.get slot) = value
          → Checked registers operands checks (next value))
    : Checked registers operands (.register slot :: checks)
        (registers.fetch (operands.get slot) >>= next) :=
  bind (fun _ => Registers.fetch_eq_error_iff)
    fun value read => later value (Registers.fetch_eq_ok_iff.mp read)

theorem reach {slot : Slot} {next : Unit → Except Fault β}
    (later : Checked registers operands checks (next ()))
    : Checked registers operands (.register slot :: checks)
        (registers.reach (operands.get slot) >>= next) :=
  bind (fun _ => Registers.reach_eq_error_iff) fun _ _ => later

theorem checkBase {slot : Slot} {next : Unit → Except Fault β}
    (later : Checked registers operands checks (next ()))
    : Checked registers operands (.base slot :: checks)
        (RegisterMachine.checkBase (operands.get slot) >>= next) :=
  bind (fun _ => checkBase_eq_error_iff) fun _ _ => later

/-- A function with a result makes no check. -/
theorem applied {result : Except ArithmeticError α} {next : α → Except Fault β}
    (defined : ∃ a, result = .ok a) (later : ∀ a, Checked registers operands checks (next a))
    : Checked registers operands checks (result.mapError .arithmetic >>= next) := by
  obtain ⟨a, rfl⟩ := defined
  exact later a

end Checked

/-- The checks of each action in order. A divisor of zero is reported before the destination is
looked at.
-/
def Action.checks (registers : Registers) (operands : Operands) : Action → List Check
  | .printAll => [.base .first]
  | .printOne | .ask => [.register .first, .base .second]
  | .unary _ => [.register .first, .register .third]
  | .binary _ | .setByte => [.register .first, .register .second, .register .third]
  | .divide _ =>
      if registers.Contains operands.second ∧ registers.value operands.second = 0 then
        [.register .first, .register .second]
      else
        [.register .first, .register .second, .register .third]
  | .swap => [.register .first, .register .second]
  | .copy => [.register .second, .register .first]

/-- An action whose function is defined fails at the first of its checks that does not pass, by the
shapes of actions.
-/
theorem Action.checked_effect {action : Action} (defined : action.Defined) (registers : Registers)
    (operands : Operands)
    : Checked registers operands (action.checks registers operands)
        (action.effect registers operands) := by
  cases action with
  | printAll => exact .checkBase (.ok _)
  | printOne => exact .fetch fun _ _ => .checkBase (.ok _)
  | ask => exact .reach (.checkBase (.ok _))
  | unary function => exact .fetch fun _ _ => .reach (.ok _)
  | binary function =>
      exact .fetch fun a _ => .fetch fun b _ => .applied (defined a b) fun _ => .reach (.ok _)
  | divide function =>
      rw [checks]
      split
      · next zero =>
          refine .fetch fun a _ => .fetch fun b read => ?_
          rw [if_pos (read.2.symm.trans zero.2)]
          exact .ok _
      · next sound =>
          refine .fetch fun a _ => .fetch fun b read => ?_
          have nonzero : b ≠ 0 := fun zero => sound ⟨read.1, read.2.trans zero⟩
          rw [if_neg nonzero]
          exact .applied (defined a b nonzero) fun _ => .reach (.ok _)
  | swap => exact .fetch fun _ _ => .fetch fun _ _ => .ok _
  | copy => exact .fetch fun _ _ => .reach (.ok _)
  | setByte =>
      refine .fetch fun _ _ => .fetch fun _ _ => .fetch fun _ _ => ?_
      split
      · exact .ok _
      · split <;> exact .ok _

end RegisterMachine
