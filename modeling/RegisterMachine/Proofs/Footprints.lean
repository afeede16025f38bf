import RegisterMachine.Proofs.WordEffects

/-! Every word has a footprint: the registers at which it may look, and the registers that it may
change. Nothing else decides what it does, and nothing else is changed by it.
-/

namespace RegisterMachine

-----------------------------------------------------------------------------------------
-- Registers through their values
-----------------------------------------------------------------------------------------

namespace Registers

variable {registers first second : Registers}

theorem get_eq_of_contains {index : Int} (contained : registers.Contains index)
    : registers.get index = .ok (registers.value index) :=
  if_pos contained

theorem get_eq_ok_iff {index value : Int}
    : registers.get index = .ok value
      ↔ registers.Contains index ∧ registers.value index = value := by
  by_cases contained : registers.Contains index
  · rw [get_eq_of_contains contained, Except.ok.injEq]
    exact ⟨fun same => ⟨contained, same⟩, And.right⟩
  · rw [get, if_neg contained]
    simp only [reduceCtorEq, contained, false_and]

theorem isSigned_value (signed : ∀ value ∈ registers.cells, IsSigned value) {index : Int}
    (contained : registers.Contains index)
    : IsSigned (registers.value index) := by
  obtain ⟨low, high⟩ := contained
  have inside : index.toNat < registers.cells.length := by
    rw [size] at high
    omega
  rw [value, List.getD_eq_getElem _ _ inside]
  exact signed _ (List.getElem_mem inside)

/-- Register files of one size with the same value at every index are the same. -/
theorem ext_get (size : first.size = second.size)
    (h : ∀ index, first.get index = second.get index)
    : first = second := by
  obtain ⟨cells⟩ := first
  obtain ⟨cells'⟩ := second
  refine congrArg Registers.mk (List.ext_getElem size fun index inside inside' => ?_)
  have same := h index
  have contained : Contains ⟨cells⟩ index := ⟨by omega, by simpa [Registers.size] using inside⟩
  have contained' : Contains ⟨cells'⟩ index := ⟨by omega, by simpa [Registers.size] using inside'⟩
  rw [get, get, if_pos contained, if_pos contained'] at same
  simpa [value, inside, inside'] using same

theorem get_store {index : Int} (contained : registers.Contains index) (value other : Int)
    : (registers.store index value).get other
      = if other = index then .ok (toSigned value) else registers.get other := by
  simp only [get, Contains, size_store]
  by_cases inside : registers.Contains other
  · rw [if_pos inside, if_pos inside, store, value_put contained _ inside.1]
    split <;> rfl
  · have different : other ≠ index := fun same => inside (same ▸ contained)
    rw [if_neg inside, if_neg inside, if_neg different]

/-- The same stores leave the same value wherever they store, and wherever the values were the same
before; by induction on the stores.
-/
theorem get_storeAll_congr {stores : List (Int × Int)} (size : first.size = second.size)
    (reachable : ∀ store ∈ stores, first.Contains store.1) {index : Int}
    (h : index ∈ stores.map Prod.fst ∨ first.get index = second.get index)
    : (first.storeAll stores).get index = (second.storeAll stores).get index := by
  induction stores generalizing first second with
  | nil => exact h.resolve_left (by simp)
  | cons store stores ih =>
      obtain ⟨here, rest⟩ := List.forall_mem_cons.mp reachable
      have here' : second.Contains store.1 := by simpa only [Contains, ← size] using here
      refine ih ?_ ?_ ?_
      · rw [size_store, size_store, size]
      · intro later member
        simpa only [Contains, size_store] using rest later member
      · rw [get_store here, get_store here']
        by_cases same : index = store.1
        · exact Or.inr (by rw [if_pos same, if_pos same])
        · rw [if_neg same, if_neg same]
          refine h.imp_left fun member => ?_
          exact (List.mem_cons.mp member).resolve_left same

/-- Stores leave every other register alone, by induction on the stores. -/
theorem get_storeAll_of_not_mem {stores : List (Int × Int)}
    (reachable : ∀ store ∈ stores, registers.Contains store.1) {index : Int}
    (h : index ∉ stores.map Prod.fst)
    : (registers.storeAll stores).get index = registers.get index := by
  induction stores generalizing registers with
  | nil => rfl
  | cons store stores ih =>
      obtain ⟨here, rest⟩ := List.forall_mem_cons.mp reachable
      obtain ⟨different, later⟩ : index ≠ store.1 ∧ index ∉ stores.map Prod.fst :=
        not_or.mp fun member => h (List.mem_cons.mpr member)
      have inside : ∀ other ∈ stores, (registers.store store.1 store.2).Contains other.1 := by
        intro other member
        simpa only [Contains, size_store] using rest other member
      exact (ih inside later).trans (by rw [get_store here, if_neg different])

theorem fetch_congr {index : Int} (h : first.get index = second.get index)
    : first.fetch index = second.fetch index := by
  rw [fetch, fetch, h]

theorem reach_congr (size : first.size = second.size) (index : Int)
    : first.reach index = second.reach index := by
  simp only [reach, check, Contains, size]

end Registers

-----------------------------------------------------------------------------------------
-- Footprints
-----------------------------------------------------------------------------------------

/-- The registers whose values an instruction may look at, and the registers that it may change. -/
structure Footprint where
  sources : List Int
  destinations : List Int
  deriving DecidableEq, Repr

/-- The footprint of each operation on a register file of some size. Operations with two sources
put their result into the register of the third operand.
-/
def Operation.footprint (operation : Operation) (size : Nat) (operands : Operands) : Footprint :=
  match operation with
  | .printRegisters => ⟨(List.range size).map Int.ofNat, []⟩
  | .printOperand => ⟨[operands.first], []⟩
  | .inputOperand => ⟨[], [operands.first]⟩
  | .bitwiseInversion | .maxPowerOfTwo => ⟨[operands.first], [operands.third]⟩
  | .copy => ⟨[operands.second], [operands.first]⟩
  | .swap => ⟨[operands.first, operands.second], [operands.first, operands.second]⟩
  | .setByte => ⟨[operands.first, operands.second, operands.third], [operands.first]⟩
  | _ => ⟨[operands.first, operands.second], [operands.third]⟩

/-- The footprint of a word; a word of no known operation has none. -/
def Footprint.ofWord (size : Nat) (word : Int) : Footprint :=
  match Operation.ofCode? (Fields.ofWord word).opcode with
  | some operation => operation.footprint size (Fields.ofWord word).operands
  | none => ⟨[], []⟩

/-- The effect of an operation is decided by the registers at which it may look and by the number of
registers, by cases on the operation.
-/
theorem Operation.effect_congr {first second : Registers} (size : first.size = second.size)
    (operation : Operation) (operands : Operands)
    (agree
      : ∀ index ∈ (operation.footprint first.size operands).sources,
          first.get index = second.get index)
    : operation.action.effect first operands = operation.action.effect second operands := by
  have reach := Registers.reach_congr size
  cases operation with
  | printRegisters =>
      have same : first = second := by
        refine Registers.ext_get size fun index => ?_
        by_cases contained : first.Contains index
        · refine agree index (List.mem_map.mpr ⟨index.toNat, List.mem_range.mpr ?_, ?_⟩)
          · omega
          · exact Int.toNat_of_nonneg contained.1
        · have missing : ¬ second.Contains index := by rwa [Registers.Contains, ← size]
          rw [Registers.get, Registers.get, if_neg contained, if_neg missing, size]
      rw [same]
  | inputOperand => simp only [action, Action.effect, reach]
  | printOperand =>
      simp only [footprint, List.forall_mem_singleton] at agree
      simp only [action, Action.effect, Registers.fetch_congr agree]
  | bitwiseInversion | maxPowerOfTwo =>
      simp only [footprint, List.forall_mem_singleton] at agree
      simp only [action, Action.effect, Registers.fetch_congr agree, reach]
  | copy =>
      simp only [footprint, List.forall_mem_singleton] at agree
      simp only [action, Action.effect, Registers.fetch_congr agree, reach]
  | setByte =>
      simp only [footprint, List.forall_mem_cons] at agree
      obtain ⟨value, index, byte, _⟩ := agree
      simp only [action, Action.effect, Registers.fetch_congr value, Registers.fetch_congr index,
        Registers.fetch_congr byte]
  | _ =>
      simp only [footprint, List.forall_mem_cons] at agree
      obtain ⟨a, b, _⟩ := agree
      simp only [action, Action.total, Action.effect, Registers.fetch_congr a,
        Registers.fetch_congr b, reach]

/-- Carrying out an operation stores in exactly the registers that it may change. -/
theorem Operation.write_destinations {operation : Operation} {registers : Registers}
    {operands : Operands} {stores : List (Int × Int)}
    (h : Yields registers operands operation.action (.write stores)) (size : Nat)
    : stores.map Prod.fst = (operation.footprint size operands).destinations := by
  cases operation <;> cases h <;> rfl

-----------------------------------------------------------------------------------------
-- Words
-----------------------------------------------------------------------------------------

theorem question?_eq_some {size : Nat} {word : Int} {question : Question}
    (h : question? size word = some question)
    : (Footprint.ofWord size word).destinations = [question.register]
      ∧ 0 ≤ question.register
      ∧ question.register < size := by
  simp only [question?, Option.ite_none_right_eq_some, Option.some.injEq] at h
  obtain ⟨⟨known, inside, _⟩, rfl⟩ := h
  refine ⟨?_, (((Fields.fit_iff _).mp (Fields.fit_ofWord word)).2 .first).1, inside⟩
  simp only [Footprint.ofWord, show Operation.ofCode? _ = _ from known, Operation.footprint]

/-- An answer is stored in the register that was asked for, or not at all. -/
theorem Question.stores_cases (question : Question) (answer : Answer)
    : question.stores answer = []
      ∨ (question.stores answer).map Prod.fst = [question.register] := by
  cases answer with
  | cancelled | failed failure => exact Or.inl rfl
  | entered text =>
      rw [stores]
      cases readNumeral text question.base with
      | error error => exact Or.inl rfl
      | ok value => exact Or.inr rfl

namespace Machine

/-- A word stores in all registers that it may change, or in none. -/
theorem stores_destinations (machine : Machine) (word : Int)
    : machine.stores word = []
      ∨ (machine.stores word).map Prod.fst
        = (Footprint.ofWord machine.registers.size word).destinations := by
  rw [stores]
  cases effect : machine.registers.wordEffect word with
  | report lines => exact Or.inl rfl
  | write stores =>
      rcases machine.registers.wordEffect_cases word with ⟨operation, known, rule⟩ | ⟨line, single⟩
      · rw [effect] at rule
        simp only [Footprint.ofWord, known]
        exact Or.inr (Operation.write_destinations rule _)
      · cases effect.symm.trans single
  | ask question =>
      rw [(question?_eq_some (Registers.wordEffect_eq_ask_iff.mp effect)).1]
      cases machine.prompt with
      | none => exact Or.inl rfl
      | some answers => exact question.stores_cases _

theorem stores_reachable (machine : Machine) (word : Int)
    : ∀ store ∈ machine.stores word, machine.registers.Contains store.1 := by
  intro store member
  cases effect : machine.registers.wordEffect word with
  | report lines => simp [stores, effect, Effect.stores] at member
  | write written =>
      rw [stores, effect] at member
      exact (Registers.wordEffect_write_reachable effect).2 store member
  | ask question =>
      obtain ⟨destination, inside⟩ :=
        question?_eq_some (Registers.wordEffect_eq_ask_iff.mp effect)
      rcases machine.stores_destinations word with none | all
      · simp [none] at member
      · have index := List.mem_map_of_mem (f := Prod.fst) member
        rw [all, destination] at index
        rw [List.mem_singleton.mp index]
        exact inside

/-- No register changes outside the destinations of a word. -/
theorem get_step_of_not_mem (machine : Machine) {word index : Int}
    (h : index ∉ (Footprint.ofWord machine.registers.size word).destinations)
    : (machine.step word).machine.registers.get index = machine.registers.get index := by
  rw [registers_step]
  refine Registers.get_storeAll_of_not_mem (machine.stores_reachable word) fun member => ?_
  rcases machine.stores_destinations word with none | all
  · simp [none] at member
  · exact h (all ▸ member)

end Machine

/-- Two machines with as many registers and the same answers to come, whose registers have the same
values at all sources of a word.
-/
structure Machine.AgreeFor (word : Int) (first second : Machine) : Prop where
  size : first.registers.size = second.registers.size
  prompt : first.prompt = second.prompt
  sources
    : ∀ index ∈ (Footprint.ofWord first.registers.size word).sources,
        first.registers.get index = second.registers.get index

namespace Machine.AgreeFor

variable {first second : Machine} {word : Int}

/-- The sources of a word decide its effect. -/
theorem wordEffect_eq (h : AgreeFor word first second)
    : first.registers.wordEffect word = second.registers.wordEffect word := by
  rw [Registers.wordEffect, Registers.wordEffect]
  cases known : Operation.ofCode? (Fields.ofWord word).opcode with
  | none => rfl
  | some operation =>
      have sources := h.sources
      simp only [Footprint.ofWord, known] at sources
      simp only [operation.effect_congr h.size (Fields.ofWord word).operands sources]

theorem stores_eq (h : AgreeFor word first second)
    : first.stores word = second.stores word := by
  rw [stores, stores, h.wordEffect_eq, h.prompt]

theorem step_sameDialogue (h : AgreeFor word first second)
    : (first.step word).SameDialogue (second.step word) :=
  Machine.step_sameDialogue h.prompt h.wordEffect_eq

/-- After the word the registers have the same value where it stored, and where they had the same
value before.
-/
theorem get_step_eq (h : AgreeFor word first second) {index : Int}
    (same
      : index ∈ (first.stores word).map Prod.fst
        ∨ first.registers.get index = second.registers.get index)
    : (first.step word).machine.registers.get index
      = (second.step word).machine.registers.get index := by
  rw [registers_step, registers_step, ← h.stores_eq]
  exact Registers.get_storeAll_congr h.size (first.stores_reachable word) same

end Machine.AgreeFor

/-- What a word does on a single machine, as far as registers go. It changes them by its stores
only; it stores in all its destinations, writing no line, or in none; and every other register
keeps its value.
-/
structure Machine.StaysWithin (machine : Machine) (word : Int) : Prop where
  stored : (machine.step word).machine.registers = machine.registers.storeAll (machine.stores word)
  destinations
    : machine.stores word = []
      ∨ (machine.stores word).map Prod.fst
        = (Footprint.ofWord machine.registers.size word).destinations
  silent
    : machine.stores word ≠ []
      ↔ (machine.step word).lines = [] ∧ (machine.step word).escaped = none
  frame
    : ∀ index,
        index ∉ (Footprint.ofWord machine.registers.size word).destinations
        → (machine.step word).machine.registers.get index = machine.registers.get index

/-- What a word does alike on two machines. It says and asks the same, it stores on both or on
neither, and once it has stored, its destinations have the same values.
-/
structure Machine.ActsAlike (first second : Machine) (word : Int) : Prop where
  dialogue : (first.step word).SameDialogue (second.step word)
  stores : first.stores word ≠ [] ↔ second.stores word ≠ []
  values
    : first.stores word ≠ []
      → ∀ index ∈ (Footprint.ofWord first.registers.size word).destinations,
          (first.step word).machine.registers.get index
            = (second.step word).machine.registers.get index

/-- A word keeps to its footprint.
On every machine it changes no register but its destinations, and on two machines that agree for it
it acts alike, whatever their other registers hold.
-/
theorem Machine.step_footprint (word : Int)
    : (∀ machine : Machine, machine.StaysWithin word)
      ∧ ∀ first second : Machine, AgreeFor word first second → first.ActsAlike second word := by
  constructor
  · intro machine
    exact ⟨machine.registers_step word, machine.stores_destinations word,
      machine.stores_ne_nil_iff word, fun _ outside => machine.get_step_of_not_mem outside⟩
  · intro first second agree
    refine ⟨agree.step_sameDialogue, by rw [agree.stores_eq], fun some index member => ?_⟩
    have all := (first.stores_destinations word).resolve_left some
    exact agree.get_step_eq (Or.inl (all ▸ member))

/-- A difference of two registers replaces the third, whatever it held, and looks at no other. -/
theorem Machine.step_footprint_subtraction
    : AgreeFor 25182219 ⟨⟨[5, 8, 1, 9]⟩, none⟩ ⟨⟨[5, 8, 2, 4]⟩, none⟩
      ∧ stores ⟨⟨[5, 8, 1, 9]⟩, none⟩ 25182219 = [(3, -3)]
      ∧ ActsAlike ⟨⟨[5, 8, 1, 9]⟩, none⟩ ⟨⟨[5, 8, 2, 4]⟩, none⟩ 25182219 := by
  have agree : AgreeFor 25182219 ⟨⟨[5, 8, 1, 9]⟩, none⟩ ⟨⟨[5, 8, 2, 4]⟩, none⟩ := by
    refine ⟨rfl, rfl, fun index member => ?_⟩
    have source : index ∈ ([0, 1] : List Int) := member
    fin_cases source <;> rfl
  exact ⟨agree, rfl, (step_footprint 25182219).2 _ _ agree⟩

end RegisterMachine
