import RegisterMachine.Proofs.BitPatterns
import RegisterMachine.Proofs.Observation
import RegisterMachine.Proofs.Results
import RegisterMachine.Proofs.RunInvariants

/-! Wrapping at every store loses nothing for the operations that depend on the low 32 bits only.
A machine that keeps exact integers is compared with the machine that keeps their signed views.
-/

namespace RegisterMachine

-----------------------------------------------------------------------------------------
-- Machines that differ in what they keep
-----------------------------------------------------------------------------------------

/-- Stores what is kept of values, in this order. -/
def Registers.storeAllBy (keep : Int → Int) (registers : Registers) (stores : List (Int × Int))
    : Registers :=
  stores.foldl (fun registers (index, value) => registers.put index (keep value)) registers

namespace Machine

variable (keep : Int → Int)

/-- Takes an answer to a question and stores what is kept of its value. -/
def acceptBy (machine : Machine) (question : Question) (answer : Answer) : Outcome :=
  match answer with
  | .cancelled => .writing machine [.inputCancelled]
  | .failed failure =>
      if failure.kind.isFault then
        .writing machine [.fault (.prompt failure.message)]
      else
        ⟨machine, [], [], some failure⟩
  | .entered text =>
      match readNumeral text question.base with
      | .ok value =>
          .idle (machine.withRegisters (machine.registers.put question.register (keep value)))
      | .error error =>
          .after (.logged (.rejected text error)) (.writing machine [.invalidInput])

def askBy (machine : Machine) (question : Question) : Outcome :=
  match machine.prompt with
  | none => .writing machine [.inputCancelled]
  | some answers =>
      let (answer, rest) := nextAnswer answers
      .after (.asked question) (acceptBy keep { machine with prompt := some rest } question answer)

def carryOutBy (machine : Machine) : Effect → Outcome
  | .write stores => .idle (machine.withRegisters (machine.registers.storeAllBy keep stores))
  | .report lines => .writing machine lines
  | .ask question => machine.askBy keep question

def performBy (machine : Machine) (operation : Operation) (operands : Operands) : Outcome :=
  match operation.action.effect machine.registers operands with
  | .ok effect => machine.carryOutBy keep effect
  | .error fault => .writing machine [.fault fault]

/-- Executes a word on a machine that keeps a part of each value. -/
def stepBy (machine : Machine) (word : Int) : Outcome :=
  let fields := Fields.ofWord word
  match Operation.ofCode? fields.opcode with
  | some operation =>
      .after (.logged (.executing operation fields.operands))
        (machine.performBy keep operation fields.operands)
  | none => .writing machine [.unknownOpcode fields.opcode]

def stepsBy (machine : Machine) : List Int → Outcome
  | [] => .idle machine
  | word :: words => (machine.stepBy keep word).andThen fun machine => stepsBy machine words

/-- A machine that keeps signed views is the machine as it is, by induction on the words. -/
theorem stepsBy_toSigned (machine : Machine) (words : List Int)
    : machine.stepsBy toSigned words = machine.steps words := by
  induction words generalizing machine with
  | nil => rfl
  | cons word words ih =>
      have same : machine.stepBy toSigned word = machine.step word := rfl
      simp only [stepsBy, steps, same, ih]

/-- A machine that keeps all of each value. -/
def exactSteps (machine : Machine) (words : List Int) : Outcome :=
  machine.stepsBy id words

end Machine

-----------------------------------------------------------------------------------------
-- Operations on the low 32 bits
-----------------------------------------------------------------------------------------

/-- The operations whose results depend on the low 32 bits of the registers only, up to the low 32
bits.
-/
def Operation.modular : List Operation := [
    .bitwiseInversion, .disjunction, .conjunction, .xor, .implication, .coimplication,
    .equivalence, .pierceArrow, .shefferStroke, .addition, .subtraction, .multiplication,
    .shiftLeft, .rotateLeft, .rotateRight, .swap, .copy ]

/-- What an action stores depends, up to the low 32 bits, on the low 32 bits only, and nothing else
comes of it.
-/
def Action.Modular : Action → Prop
  | .unary function => ∀ a a', SameView a a' → SameView (function a) (function a')
  | .binary function =>
      ∀ a a' b b',
        SameView a a' → SameView b b' → Agree SameView (function a b) (function a' b')
  | .swap | .copy => True
  | _ => False

theorem Action.modular_total {function : Int → Int → Int}
    (h
      : ∀ a a' b b',
          SameView a a' → SameView b b' → SameView (function a b) (function a' b'))
    : (Action.total function).Modular :=
  fun a a' b b' ha hb => .ok (h a a' b b' ha hb)

/-- A count taken modulo the width is decided by the low 32 bits. -/
theorem Action.modular_counted {function : BinaryFunction}
    (h
      : ∀ a a' count,
          SameView a a' → Agree SameView (function a count) (function a' count))
    : (Action.binary fun a b => function a (b % 32)).Modular := by
  intro a a' b b' ha hb
  dsimp only
  rw [hb.emod_width_eq]
  exact h a a' (b' % 32) ha

open Bitwise in
/-- Each of the operations depends on the low 32 bits only, because having the same view is the same
as being congruent, and rotations start from the unsigned view.
-/
theorem Operation.action_modular {operation : Operation} (h : operation ∈ modular)
    : operation.action.Modular := by
  cases operation with
  | bitwiseInversion => exact fun a a' => sameView_complement
  | disjunction => exact Action.modular_total fun _ _ _ _ => sameView_or
  | conjunction => exact Action.modular_total fun _ _ _ _ => sameView_and
  | xor => exact Action.modular_total fun _ _ _ _ => sameView_combine _
  | implication => exact Action.modular_total fun _ _ _ _ ha => sameView_or (sameView_complement ha)
  | coimplication =>
      exact Action.modular_total fun _ _ _ _ ha hb => sameView_or ha (sameView_complement hb)
  | equivalence =>
      refine Action.modular_total fun _ _ _ _ ha hb => ?_
      exact sameView_or (sameView_and (sameView_complement ha) (sameView_complement hb))
        (sameView_and ha hb)
  | pierceArrow =>
      exact Action.modular_total fun _ _ _ _ ha hb => sameView_complement (sameView_or ha hb)
  | shefferStroke =>
      exact Action.modular_total fun _ _ _ _ ha hb => sameView_complement (sameView_and ha hb)
  | addition => exact Action.modular_total fun a a' b b' => Int.ModEq.add
  | subtraction => exact Action.modular_total fun a a' b b' => Int.ModEq.sub
  | multiplication => exact Action.modular_total fun a a' b b' => Int.ModEq.mul
  | shiftLeft =>
      simp only [action, and_31]
      refine Action.modular_counted fun a a' count ha => ?_
      rw [Arithmetic.shiftLeft, Arithmetic.shiftLeft]
      split
      · exact .error _
      · exact .ok (Int.ModEq.mul_right _ ha)
  | rotateLeft =>
      refine Action.modular_counted fun a a' count ha => ?_
      rw [Arithmetic.rotateLeft, Arithmetic.rotateLeft, ha]
      exact .refl SameView.refl _
  | rotateRight =>
      refine Action.modular_counted fun a a' count ha => ?_
      rw [Arithmetic.rotateRight, Arithmetic.rotateRight, ha]
      exact .refl SameView.refl _
  | swap | copy => trivial
  | _ => exact absurd h (by decide)

-----------------------------------------------------------------------------------------
-- Wrapping
-----------------------------------------------------------------------------------------

/-- The registers with the signed view of each value. -/
def Registers.wrap (registers : Registers) : Registers :=
  ⟨registers.cells.map toSigned⟩

def Machine.wrap (machine : Machine) : Machine :=
  machine.withRegisters machine.registers.wrap

/-- The same run with the signed view of each register at its end. -/
def Outcome.wrap (outcome : Outcome) : Outcome :=
  { outcome with machine := outcome.machine.wrap }

namespace Registers

@[simp]
theorem size_wrap (registers : Registers)
    : registers.wrap.size = registers.size := by
  simp [wrap, size]

@[simp]
theorem value_wrap (registers : Registers) (index : Int)
    : registers.wrap.value index = toSigned (registers.value index) := by
  simp only [wrap, value, List.getD_eq_getElem?_getD, List.getElem?_map]
  cases registers.cells[index.toNat]? <;> rfl

theorem wrap_put (registers : Registers) (index value : Int)
    : (registers.put index value).wrap = registers.wrap.store index value := by
  simp only [wrap, put, store, List.map_set]

/-- Registers that hold signed values only are wrapped already. -/
theorem wrap_eq_self {registers : Registers} (signed : ∀ value ∈ registers.cells, IsSigned value)
    : registers.wrap = registers := by
  obtain ⟨cells⟩ := registers
  simp only [wrap, Registers.mk.injEq]
  exact (List.map_congr_left fun value member => toSigned_eq_self (signed value member)).trans
    (List.map_id' cells)

theorem fetch_wrap (registers : Registers) (index : Int)
    : Agree SameView (registers.wrap.fetch index) (registers.fetch index) := by
  simp only [fetch, get, Contains, size_wrap, value_wrap]
  split
  · exact .ok (toUnsigned_toSigned _)
  · exact .error _

theorem reach_wrap (registers : Registers) (index : Int)
    : registers.wrap.reach index = registers.reach index := by
  simp only [reach, check, Contains, size_wrap]

end Registers

/-- Stores into the same registers, of values with the same low 32 bits. -/
def SameStores (first second : List (Int × Int)) : Prop :=
  List.Forall₂ (fun store store' => store.1 = store'.1 ∧ SameView store.2 store'.2) first second

/-- Both effects only store, and store the same low 32 bits. -/
def SameWrites (first second : Effect) : Prop :=
  ∃ stores stores', first = .write stores ∧ second = .write stores' ∧ SameStores stores stores'

theorem SameWrites.single {index a a' : Int} (h : SameView a a')
    : SameWrites (.write [(index, a)]) (.write [(index, a')]) :=
  ⟨_, _, rfl, rfl, .cons ⟨rfl, h⟩ .nil⟩

/-- A store after a check is the same from wrapped registers. -/
theorem Registers.reach_write_wrap (registers : Registers) (destination : Int)
    {index a a' : Int} (h : SameView a a')
    : Agree SameWrites
        (do registers.wrap.reach destination; pure (Effect.write [(index, a)]))
        (do registers.reach destination; pure (Effect.write [(index, a')])) := by
  rw [reach_wrap]
  cases registers.reach destination with
  | error fault => exact .error fault
  | ok done => exact .ok (.single h)

/-- Wrapped registers lead to the same stores up to the low 32 bits, and to the same faults,
by the shapes of actions.
-/
theorem Action.effect_wrap {action : Action} (modular : action.Modular) (registers : Registers)
    (operands : Operands)
    : Agree SameWrites (action.effect registers.wrap operands)
        (action.effect registers operands) := by
  cases action with
  | unary function =>
      exact .bind (Registers.fetch_wrap _ _) fun a a' ha =>
        registers.reach_write_wrap _ (modular a a' ha)
  | binary function =>
      refine .bind (Registers.fetch_wrap _ _) fun a a' ha =>
        .bind (Registers.fetch_wrap _ _) fun b b' hb => ?_
      exact .bind ((modular a a' b b' ha hb).mapError _) fun _ _ same =>
        registers.reach_write_wrap _ same
  | swap =>
      refine .bind (Registers.fetch_wrap _ _) fun a a' ha =>
        .bind (Registers.fetch_wrap _ _) fun b b' hb => ?_
      exact .ok ⟨_, _, rfl, rfl, .cons ⟨rfl, hb⟩ (.cons ⟨rfl, ha⟩ .nil)⟩
  | copy =>
      exact .bind (Registers.fetch_wrap _ _) fun b b' hb => registers.reach_write_wrap _ hb
  | printAll | printOne | ask | divide | setByte => exact modular.elim

/-- Wrapping once at the end is wrapping at every store, by induction on the stores. -/
theorem Registers.wrap_storeAllBy {stores stores' : List (Int × Int)}
    (h : SameStores stores stores') (registers : Registers)
    : (registers.storeAllBy id stores').wrap = registers.wrap.storeAll stores := by
  induction h generalizing registers with
  | nil => rfl
  | @cons store store' stores stores' same _ ih =>
      obtain ⟨index, value⟩ := store
      obtain ⟨index', value'⟩ := store'
      obtain ⟨rfl, view⟩ := same
      have first : (registers.put index value').wrap = registers.wrap.store index value := by
        rw [wrap_put, store, store, toSigned_eq_toSigned_iff.mpr view]
      exact (ih (registers.put index value')).trans (congrArg (storeAll · stores) first)

-----------------------------------------------------------------------------------------
-- Runs
-----------------------------------------------------------------------------------------

/-- A word of one of the operations on the low 32 bits. -/
def IsModularWord (word : Int) : Prop :=
  ∃ operation ∈ Operation.modular,
    Operation.ofCode? (Fields.ofWord word).opcode = some operation

/-- A run that goes on from a wrapped state is the wrapped run, if what follows is. -/
theorem Outcome.wrap_andThen {first : Outcome} {next next' : Machine → Outcome}
    (h : next first.machine.wrap = (next' first.machine).wrap)
    : first.wrap.andThen next = (first.andThen next').wrap := by
  obtain ⟨machine, lines, events, escaped⟩ := first
  cases escaped with
  | some failure => rfl
  | none =>
      simp only [andThen, wrap] at h ⊢
      rw [h]

namespace Machine

/-- The operations on the low 32 bits store or fail, and wrapping may be left until after. -/
theorem perform_wrap {operation : Operation} (modular : operation ∈ Operation.modular)
    (machine : Machine) (operands : Operands)
    : machine.wrap.perform operation operands
        = (machine.performBy id operation operands).wrap
      ∧ (machine.performBy id operation operands).escaped = none := by
  have agree := Action.effect_wrap (Operation.action_modular modular) machine.registers operands
  have registers : machine.wrap.registers = machine.registers.wrap := rfl
  rw [perform, performBy, registers]
  -- What the two effects are does not matter, as long as they agree.
  revert agree
  generalize operation.action.effect machine.registers.wrap operands = first
  generalize operation.action.effect machine.registers operands = second
  intro agree
  cases agree with
  | error fault => exact ⟨rfl, rfl⟩
  | ok same =>
      obtain ⟨stores, stores', rfl, rfl, same⟩ := same
      refine ⟨?_, rfl⟩
      have stored := Registers.wrap_storeAllBy same machine.registers
      simp only [carryOut, carryOutBy, registers, ← stored]
      rfl

theorem step_wrap {word : Int} (modular : IsModularWord word) (machine : Machine)
    : machine.wrap.step word = (machine.stepBy id word).wrap
      ∧ (machine.stepBy id word).escaped = none := by
  obtain ⟨operation, modular, known⟩ := modular
  obtain ⟨wrapped, whole⟩ := perform_wrap modular machine (Fields.ofWord word).operands
  simp only [step, stepBy, known, wrapped]
  exact ⟨rfl, whole⟩

/-- Wrapping may be left until after a whole run, by induction on the words. -/
theorem steps_wrap {words : List Int} (modular : ∀ word ∈ words, IsModularWord word)
    (machine : Machine)
    : machine.wrap.steps words = (machine.exactSteps words).wrap
      ∧ (machine.exactSteps words).escaped = none := by
  induction words generalizing machine with
  | nil => exact ⟨rfl, rfl⟩
  | cons word words ih =>
      obtain ⟨here, rest⟩ := List.forall_mem_cons.mp modular
      obtain ⟨wrapped, whole⟩ := step_wrap here machine
      obtain ⟨later, done⟩ := ih rest (machine.stepBy id word).machine
      rw [steps, wrapped, exactSteps, stepsBy]
      exact ⟨Outcome.wrap_andThen later, Outcome.escaped_andThen_eq_none_iff.mpr ⟨whole, done⟩⟩

/-- Wrapping at every store loses nothing.
For words of the operations on the low 32 bits, registers of any number that hold signed values at
first, and any prefix of the words, the registers hold the signed views of what they would hold if
all values were kept exactly, and the lines are the same.
-/
theorem steps_eq_wrap_exactSteps {words : List Int}
    (modular : ∀ word ∈ words, IsModularWord word) {machine : Machine}
    (signed : ∀ value ∈ machine.registers.cells, IsSigned value) {first : List Int}
    (begins : first <+: words)
    : (machine.steps first).machine.registers.cells
        = (machine.exactSteps first).machine.registers.cells.map toSigned
      ∧ (machine.steps first).lines = (machine.exactSteps first).lines
      ∧ (machine.steps first).escaped = none
      ∧ (machine.exactSteps first).escaped = none := by
  have wrapped : machine.wrap = machine := by
    rw [wrap, Registers.wrap_eq_self signed]
    rfl
  obtain ⟨same, whole⟩ :=
    steps_wrap (fun word member => modular word (begins.subset member)) machine
  rw [wrapped] at same
  rw [same]
  exact ⟨rfl, rfl, whole, whole⟩

/-- Two products before a rotation leave the signed range, and the register wraps around. -/
theorem steps_eq_wrap_exactSteps_product
    : (∀ word ∈ [16396, 16396, 16406], IsModularWord word)
      ∧ (∀ value ∈ [2147483647, 3], IsSigned value)
      ∧ [16396, 16396] <+: ([16396, 16396, 16406] : List Int)
      ∧ (exactSteps ⟨⟨[2147483647, 3]⟩, none⟩ [16396, 16396]).machine.registers.cells
        = [19327352823, 3]
      ∧ (steps ⟨⟨[2147483647, 3]⟩, none⟩ [16396, 16396]).machine.registers.cells
        = [19327352823, 3].map toSigned := by
  have modular : ∀ word ∈ [16396, 16396, 16406], IsModularWord word := by
    simp only [List.forall_mem_cons]
    exact ⟨⟨.multiplication, by decide, rfl⟩, ⟨.multiplication, by decide, rfl⟩,
      ⟨.rotateLeft, by decide, rfl⟩, List.forall_mem_nil _⟩
  have signed : ∀ value ∈ [2147483647, 3], IsSigned value := by decide
  have begins : [16396, 16396] <+: ([16396, 16396, 16406] : List Int) := ⟨[16406], rfl⟩
  exact ⟨modular, signed, begins, rfl,
    (@steps_eq_wrap_exactSteps _ modular ⟨⟨[2147483647, 3]⟩, none⟩ signed _ begins).1⟩

end Machine

end RegisterMachine
