import RegisterMachine.Proofs.Assignments
import RegisterMachine.Proofs.ExactStores

/-! Registers as vectors of 32 bits in two's complement.
The logical operations apply their truth tables bit by bit, and the shifts move the bits of a vector
by a count below 32.
-/

namespace RegisterMachine

-----------------------------------------------------------------------------------------
-- Vectors
-----------------------------------------------------------------------------------------

/-- The low 32 bits of an integer as a vector; on the integers that a register can hold, their two's
complement.
-/
def vector (value : Int) : BitVec 32 :=
  BitVec.ofInt 32 value

theorem toNat_vector (value : Int)
    : ((vector value).toNat : Int) = toUnsigned value := by
  rw [vector, BitVec.toNat_ofInt]
  exact Int.toNat_of_nonneg (toUnsigned_nonneg value)

theorem toInt_vector (value : Int)
    : (vector value).toInt = toSigned value := by
  have view := toNat_vector value
  rw [BitVec.toInt_eq_toNat_cond, view, toSigned]
  simp only [signedMax, patternCount]
  split <;> split <;> omega

/-- Vectors agree exactly when unsigned views do. -/
theorem vector_eq_iff {a b : Int}
    : vector a = vector b ↔ SameView a b := by
  rw [SameView, ← toNat_vector, ← toNat_vector, Nat.cast_inj, BitVec.toNat_inj]

theorem vector_toSigned (value : Int)
    : vector (toSigned value) = vector value :=
  vector_eq_iff.mpr (toUnsigned_toSigned value)

/-- The vector of a register decides what it holds. -/
theorem eq_of_vector_eq {a b : Int} (ha : IsSigned a) (hb : IsSigned b)
    (h : vector a = vector b)
    : a = b :=
  eq_of_toUnsigned_eq ha hb (vector_eq_iff.mp h)

theorem getLsbD_vector (value : Int) (i : Nat)
    : (vector value).getLsbD i = (decide (i < 32) && value.testBit i) := by
  rw [← testBit_toUnsigned, ← toNat_vector]
  rfl

-----------------------------------------------------------------------------------------
-- Shifts of vectors
-----------------------------------------------------------------------------------------

theorem vector_mul_two_pow (a : Int) (count : Nat)
    : vector (a * 2 ^ count) = vector a <<< count := by
  have power : BitVec.ofInt 32 (2 ^ count) = BitVec.twoPow 32 count := by
    rw [← BitVec.toNat_inj, BitVec.toNat_twoPow]
    norm_cast
  rw [vector, BitVec.ofInt_mul, power, BitVec.shiftLeft_eq_mul_twoPow]
  rfl

theorem isSigned_ediv_two_pow {a : Int} (signed : IsSigned a) (count : Nat)
    : IsSigned (a / 2 ^ count) := by
  have positive : (0 : Int) < 2 ^ count := by positivity
  simp only [IsSigned, signedMin, signedMax] at signed ⊢
  constructor
  · rw [Int.le_ediv_iff_mul_le positive]
    nlinarith
  · rw [← Int.lt_add_one_iff, Int.ediv_lt_iff_lt_mul positive]
    nlinarith

/-- Rounding a quotient down keeps the sign bit in the places that become free. -/
theorem vector_ediv_two_pow {a : Int} (signed : IsSigned a) (count : Nat)
    : vector (a / 2 ^ count) = (vector a).sshiftRight count := by
  apply BitVec.eq_of_toInt_eq
  rw [BitVec.toInt_sshiftRight, toInt_vector, toInt_vector, toSigned_eq_self signed,
    toSigned_eq_self (isSigned_ediv_two_pow signed count), Int.shiftRight_eq_div_pow]
  norm_cast

-----------------------------------------------------------------------------------------
-- Truth tables
-----------------------------------------------------------------------------------------

namespace Bitwise

theorem magnitudeBits_lt {a : Int} (signed : IsSigned a)
    : magnitudeBits a < 2 ^ 31 := by
  simp only [IsSigned, signedMin, signedMax] at signed
  rw [magnitudeBits]
  split <;> omega

/-- A truth table on the bits of registers has a result that a register can hold. -/
theorem isSigned_combine (table : Bool → Bool → Bool) {a b : Int} (ha : IsSigned a)
    (hb : IsSigned b)
    : IsSigned (combine table a b) := by
  have below (bits : Bool → Bool → Bool)
      : Nat.bitwise bits (magnitudeBits a) (magnitudeBits b) < 2 ^ 31 :=
    Nat.bitwise_lt_two_pow (magnitudeBits_lt ha) (magnitudeBits_lt hb)
  simp only [combine, IsSigned, signedMin, signedMax]
  have small := below fun x y =>
    (table (x ^^ decide (a < 0)) (y ^^ decide (b < 0))) ^^ table (decide (a < 0)) (decide (b < 0))
  split <;> omega

theorem isSigned_complement {a : Int} (signed : IsSigned a)
    : IsSigned (complement a) := by
  simp only [IsSigned, signedMin, signedMax, complement] at signed ⊢
  omega

/-- What a register holds is the result of a truth table if its bits are. -/
theorem eq_combine {table : Bool → Bool → Bool} {a b value : Int} (ha : IsSigned a)
    (hb : IsSigned b) (signed : IsSigned value)
    (bits : ∀ i, value.testBit i = table (a.testBit i) (b.testBit i))
    : value = combine table a b := by
  apply eq_of_toUnsigned_eq signed (isSigned_combine table ha hb)
  refine sameView_iff_testBit.mpr fun i _ => ?_
  rw [bits, testBit_combine]

end Bitwise

-----------------------------------------------------------------------------------------
-- Logical operations
-----------------------------------------------------------------------------------------

namespace Operation

/-- The truth table of each logical operation. -/
def truthTable? : Operation → Option (Bool → Bool → Bool)
  | .disjunction => some fun x y => x ∨ y
  | .conjunction => some fun x y => x ∧ y
  | .xor => some fun x y => x ≠ y
  | .implication => some fun x y => x → y
  | .coimplication => some fun x y => y → x
  | .equivalence => some fun x y => x = y
  | .pierceArrow => some fun x y => ¬ (x ∨ y)
  | .shefferStroke => some fun x y => ¬ (x ∧ y)
  | _ => none

variable {operation inverse : Operation} {table opposite : Bool → Bool → Bool} {a b : Int}

/-- The expression of a logical operation is its truth table on every bit. -/
theorem action_of_truthTable? (h : operation.truthTable? = some table)
    : operation.action = .total (Bitwise.combine table) := by
  cases operation <;> cases h <;>
    refine congrArg Action.total (funext₂ fun a b => eq_of_testBit_eq fun i => ?_) <;>
    simp only [Bitwise.testBit_complement, Bitwise.testBit_or, Bitwise.testBit_and,
      Bitwise.testBit_xor, Bitwise.testBit_combine] <;>
    cases a.testBit i <;> cases b.testBit i <;> rfl

theorem produces_combine (h : operation.truthTable? = some table) (ha : IsSigned a)
    (hb : IsSigned b)
    : operation.Produces a b (Bitwise.combine table a b) := by
  have produced := operation.produces_of_binary (action_of_truthTable? h) (a := a) (b := b) rfl
  rwa [toSigned_eq_self (Bitwise.isSigned_combine table ha hb)] at produced

theorem produces_complement (ha : IsSigned a) (b : Int)
    : bitwiseInversion.Produces a b (Bitwise.complement a) := by
  have produced := bitwiseInversion.produces_of_unary rfl a b
  rwa [toSigned_eq_self (Bitwise.isSigned_complement ha)] at produced

/-- An operation with the opposite truth table has the inverted result. -/
theorem exists_produces_inverted (h : operation.truthTable? = some table)
    (h' : inverse.truthTable? = some opposite) (negated : ∀ x y, opposite x y = !table x y)
    (ha : IsSigned a) (hb : IsSigned b)
    : ∃ result inverted,
        operation.Produces a b result
        ∧ inverse.Produces a b inverted
        ∧ ∀ c, bitwiseInversion.Produces result c inverted := by
  have fits := Bitwise.isSigned_combine table ha hb
  have same : Bitwise.complement (Bitwise.combine table a b) = Bitwise.combine opposite a b := by
    apply Bitwise.eq_combine ha hb (Bitwise.isSigned_complement fits)
    intro i
    rw [Bitwise.testBit_complement, Bitwise.testBit_combine, negated]
  refine ⟨_, _, produces_combine h ha hb, produces_combine h' ha hb, fun c => ?_⟩
  rw [← same]
  exact produces_complement fits c

/-- Exchanging the sources exchanges the two implications. -/
theorem exists_produces_exchanged (ha : IsSigned a) (hb : IsSigned b)
    : ∃ result, coimplication.Produces a b result ∧ implication.Produces b a result := by
  have same
      : Bitwise.combine (fun x y => x → y) b a = Bitwise.combine (fun x y => y → x) a b := by
    apply Bitwise.eq_combine ha hb (Bitwise.isSigned_combine _ hb ha)
    exact Bitwise.testBit_combine _ b a
  refine ⟨_, produces_combine rfl ha hb, ?_⟩
  rw [← same]
  exact produces_combine rfl hb ha

-----------------------------------------------------------------------------------------
-- Shifts
-----------------------------------------------------------------------------------------

theorem produces_shiftLeft (a count : Int)
    : shiftLeft.Produces a count (toSigned (a * 2 ^ (count % 32).toNat)) := by
  have reduced : ¬ count % 32 < 0 := by omega
  apply shiftLeft.produces_of_binary rfl
  rw [Bitwise.and_31, Arithmetic.shiftLeft, if_neg reduced, powerOfTwo_eq]

theorem produces_shiftRight (ha : IsSigned a) (count : Int)
    : shiftRight.Produces a count (a / 2 ^ (count % 32).toNat) := by
  have reduced : ¬ count % 32 < 0 := by omega
  rw [← toSigned_eq_self (isSigned_ediv_two_pow ha _)]
  apply shiftRight.produces_of_binary rfl
  rw [Bitwise.and_31, Arithmetic.shiftRight, if_neg reduced, powerOfTwo_eq]

end Operation

-----------------------------------------------------------------------------------------
-- Stores without wrapping
-----------------------------------------------------------------------------------------

/-- An action that stores only what registers can hold, if the registers that it looks at do. -/
def Action.KeepsSigned : Action → Prop
  | .unary function => ∀ a, IsSigned a → IsSigned (function a)
  | .binary function =>
      ∀ a b result,
        IsSigned a → IsSigned b → function a b = .ok result → IsSigned result
  | _ => False

namespace Machine

theorem carryOutBy_id {value : Int} (signed : IsSigned value) (machine : Machine) (index : Int)
    : machine.carryOutBy id (.write [(index, value)])
      = machine.carryOut (.write [(index, value)]) := by
  have exact : machine.registers.store index value = machine.registers.put index value := by
    rw [Registers.store, toSigned_eq_self signed]
  simp only [carryOutBy, carryOut, Registers.storeAllBy, Registers.storeAll, List.foldl_cons,
    List.foldl_nil, id_eq, exact]

/-- Where all stored values fit, a machine that keeps exact integers does the same, by the rules for
the two shapes of actions that store a function of registers.
-/
theorem stepBy_id_eq_step {machine : Machine}
    (signed : ∀ value ∈ machine.registers.cells, IsSigned value) {word : Int}
    {operation : Operation}
    (known : Operation.ofCode? (Fields.ofWord word).opcode = some operation)
    (keeps : operation.action.KeepsSigned)
    : machine.stepBy id word = machine.step word := by
  have performed
      : machine.performBy id operation (Fields.ofWord word).operands
        = machine.perform operation (Fields.ofWord word).operands := by
    rw [performBy, perform]
    cases result : operation.action.effect machine.registers (Fields.ofWord word).operands with
    | error fault => rfl
    | ok effect =>
        have rule := Action.effect_eq_ok_iff.mp result
        generalize operation.action = action at keeps rule
        cases rule with
        | unary source _ =>
            exact carryOutBy_id (keeps _ (Registers.isSigned_value signed source)) machine _
        | binary source source' defined _ =>
            have fits := keeps _ _ _ (Registers.isSigned_value signed source)
              (Registers.isSigned_value signed source') defined
            exact carryOutBy_id fits machine _
        | _ => exact keeps.elim
  simp only [stepBy, step, known, performed]

end Machine

-----------------------------------------------------------------------------------------
-- Vector semantics
-----------------------------------------------------------------------------------------

namespace Operation

/-- The logical operations and the shifts are operations on vectors of 32 bits.
On a full machine, whatever the operands are, each bit of a logical result is given by the truth
table of the operation for the bits of the sources, and nothing is lost when the result is stored:
a machine that keeps exact integers does the same. Shifts move the vector of the first source by the
floored remainder of the second by 32; to the left, zeros enter and the product with a power of two
wraps around, and to the right the sign bit enters and the quotient by a power of two is rounded
down. So three logical operations are the inversions of three others, and the two implications are
the same but for the order of their sources.
-/
theorem vector_semantics
    : (∀ (operation : Operation) (table : Bool → Bool → Bool) (a b : Int),
        operation.truthTable? = some table → IsSigned a → IsSigned b
        → ∃ result,
            operation.Produces a b result
            ∧ IsSigned result
            ∧ ∀ i < 32,
                (vector result).getLsbD i
                = table ((vector a).getLsbD i) ((vector b).getLsbD i))
      ∧ (∀ a b : Int,
          IsSigned a
          → ∃ result,
              bitwiseInversion.Produces a b result
              ∧ IsSigned result
              ∧ ∀ i < 32, (vector result).getLsbD i = !(vector a).getLsbD i)
      ∧ (∀ (machine : Machine) (word : Int) (operation : Operation),
          (∀ value ∈ machine.registers.cells, IsSigned value)
          → ofCode? (Fields.ofWord word).opcode = some operation
          → operation = .bitwiseInversion ∨ operation.truthTable?.isSome
          → machine.stepBy id word = machine.step word)
      ∧ (∀ a count : Int,
          shiftLeft.Produces a count (toSigned (a * 2 ^ (count % 32).toNat))
          ∧ vector (toSigned (a * 2 ^ (count % 32).toNat)) = vector a <<< (count % 32).toNat)
      ∧ (∀ a count : Int,
          IsSigned a
          → shiftRight.Produces a count ⌊(a : ℚ) / 2 ^ (count % 32).toNat⌋
            ∧ vector ⌊(a : ℚ) / 2 ^ (count % 32).toNat⌋
              = (vector a).sshiftRight (count % 32).toNat)
      ∧ (∀ pair ∈ [(disjunction, pierceArrow), (conjunction, shefferStroke), (xor, equivalence)],
          ∀ a b : Int,
            IsSigned a → IsSigned b
            → ∃ result inverted,
                pair.1.Produces a b result
                ∧ pair.2.Produces a b inverted
                ∧ ∀ c, bitwiseInversion.Produces result c inverted)
      ∧ ∀ a b : Int,
          IsSigned a → IsSigned b
          → ∃ result, coimplication.Produces a b result ∧ implication.Produces b a result := by
  refine ⟨fun operation table a b h ha hb => ?_, fun a b ha => ?_,
    fun machine word operation signed known logical => ?_, fun a count => ?_,
    fun a count ha => ?_, ?_, fun a b => exists_produces_exchanged⟩
  · refine ⟨_, produces_combine h ha hb, Bitwise.isSigned_combine table ha hb, fun i below => ?_⟩
    simp only [getLsbD_vector, below, decide_true, Bool.true_and, Bitwise.testBit_combine]
  · refine ⟨_, produces_complement ha b, Bitwise.isSigned_complement ha, fun i below => ?_⟩
    simp only [getLsbD_vector, below, decide_true, Bool.true_and, Bitwise.testBit_complement]
  · apply Machine.stepBy_id_eq_step signed known
    rcases logical with rfl | logical
    · exact fun a => Bitwise.isSigned_complement
    · obtain ⟨table, h⟩ := Option.isSome_iff_exists.mp logical
      rw [action_of_truthTable? h]
      rintro a b _ ha hb ⟨⟩
      exact Bitwise.isSigned_combine table ha hb
  · exact ⟨produces_shiftLeft a count, by rw [vector_toSigned, vector_mul_two_pow]⟩
  · have floor (k : Nat) : ⌊(a : ℚ) / 2 ^ k⌋ = a / 2 ^ k := by
      exact_mod_cast Rat.floor_intCast_div_natCast a (2 ^ k)
    rw [floor]
    exact ⟨produces_shiftRight ha count, vector_ediv_two_pow ha _⟩
  · simp only [List.forall_mem_cons, List.not_mem_nil, false_imp_iff, implies_true, and_true]
    refine ⟨fun a b => ?_, fun a b => ?_, fun a b => ?_⟩ <;>
      exact exists_produces_inverted rfl rfl (by decide)

/-- A shift to the right by minus 28 moves the bits by four places. -/
theorem vector_semantics_reduced_count
    : IsSigned (-200)
      ∧ shiftRight.Produces (-200) (-28) (-13)
      ∧ (Machine.step ⟨(Registers.full.store 0 (-200)).store 1 (-28), none⟩ 8405013).Assigns
          ⟨(Registers.full.store 0 (-200)).store 1 (-28), none⟩ 1 (-13) := by
  have signed : IsSigned (-200) := by decide
  have produced := (vector_semantics.2.2.2.2.1 (-200) (-28) signed).1
  have shifted : ⌊((-200 : Int) : ℚ) / 2 ^ ((-28 : Int) % 32).toNat⌋ = -13 := by decide +kernel
  rw [shifted] at produced
  refine ⟨signed, produced, produced _ 8405013 (by decide +kernel) (by decide +kernel) ?_ ?_⟩
  · exact Registers.get_eq_ok_iff.mpr (by decide +kernel)
  · exact Registers.get_eq_ok_iff.mpr (by decide +kernel)

end Operation

end RegisterMachine
