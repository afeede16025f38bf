import RegisterMachine.Proofs.Assignments

/-! Division rounds toward zero, and remainders have the sign of the dividend.
This is so for all integers. A register keeps the signed view of a result, which is the result
itself but for one pair of a dividend and a divisor.
-/

namespace RegisterMachine

-----------------------------------------------------------------------------------------
-- All integers
-----------------------------------------------------------------------------------------

namespace Arithmetic

/-- The integer next to a rational number on the side of zero. -/
def towardZero (x : ℚ) : Int :=
  if 0 ≤ x then ⌊x⌋ else ⌈x⌉

/-- The quotient and the remainder of a division that rounds toward zero. -/
structure IsTruncated (a b quotient remainder : Int) : Prop where
  rounded : quotient = towardZero (a / b)
  whole : a = b * quotient + remainder
  small : |remainder| < |b|
  sign : remainder = 0 ∨ remainder.sign = a.sign

/-- For a positive divisor the sign of the dividend decides between rounding down and up. -/
theorem tdiv_natCast_eq_towardZero (a : Int) {b : Nat} (positive : 0 < b)
    : a.tdiv b = towardZero (a / b) := by
  have divisor : (0 : ℚ) < b := Nat.cast_pos.mpr positive
  rcases le_or_gt 0 a with nonneg | negative
  · have low : (0 : ℚ) ≤ a / b := div_nonneg (Int.cast_nonneg nonneg) divisor.le
    rw [towardZero, if_pos low, Rat.floor_intCast_div_natCast, Int.tdiv_eq_ediv_of_nonneg nonneg]
  · have high : (a : ℚ) / b < 0 := div_neg_of_neg_of_pos (Int.cast_lt_zero.mpr negative) divisor
    have flipped : 0 ≤ -a := Int.neg_nonneg_of_nonpos negative.le
    rw [towardZero, if_neg high.not_ge, Rat.ceil_intCast_div_natCast,
      ← Int.tdiv_eq_ediv_of_nonneg flipped, Int.neg_tdiv, Int.neg_neg]

/-- Both signs may be changed without changing the quotient, so that the divisor may be taken as
positive.
-/
theorem tdiv_eq_towardZero (a : Int) {b : Int} (nonzero : b ≠ 0)
    : a.tdiv b = towardZero (a / b) := by
  rcases lt_or_gt_of_ne nonzero with negative | positive
  · obtain ⟨n, same⟩ := Int.eq_ofNat_of_zero_le (Int.neg_nonneg_of_nonpos negative.le)
    have flipped := tdiv_natCast_eq_towardZero (-a) (b := n) (by omega)
    have view : (n : ℚ) = -b := by exact_mod_cast same.symm
    rw [← same, Int.neg_tdiv_neg, view, Int.cast_neg, neg_div_neg_eq] at flipped
    exact flipped
  · obtain ⟨n, rfl⟩ := Int.eq_ofNat_of_zero_le positive.le
    have direct := tdiv_natCast_eq_towardZero a (b := n) (by omega)
    exact_mod_cast direct

theorem isTruncated (a : Int) {b : Int} (nonzero : b ≠ 0)
    : IsTruncated a b (a.tdiv b) (a.tmod b) := by
  refine ⟨tdiv_eq_towardZero a nonzero, (Int.mul_tdiv_add_tmod a b).symm, ?_, ?_⟩
  · rw [Int.abs_eq_natAbs, Int.abs_eq_natAbs, Int.natAbs_tmod, Nat.cast_lt]
    exact Nat.mod_lt _ (Int.natAbs_pos.mpr nonzero)
  · rcases em (b ∣ a) with divides | rest
    · exact Or.inl (Int.tmod_eq_zero_of_dvd divides)
    · exact Or.inr (by rw [Int.sign_tmod, if_neg rest])

/-- There is only one quotient and one remainder. -/
theorem IsTruncated.eq {a b q r : Int} (h : IsTruncated a b q r) (nonzero : b ≠ 0)
    : q = a.tdiv b ∧ r = a.tmod b := by
  have quotient : q = a.tdiv b := h.rounded.trans (tdiv_eq_towardZero a nonzero).symm
  refine ⟨quotient, ?_⟩
  have whole := h.whole
  rw [quotient] at whole
  rw [Int.tmod_def]
  omega

-----------------------------------------------------------------------------------------
-- Registers
-----------------------------------------------------------------------------------------

/-- A remainder is nearer to zero than a divisor that a register can hold. -/
theorem isSigned_tmod (a : Int) {b : Int} (signed : IsSigned b) (nonzero : b ≠ 0)
    : IsSigned (a.tmod b) := by
  have size := Int.natAbs_tmod a b
  have small : a.natAbs % b.natAbs < b.natAbs := Nat.mod_lt _ (Int.natAbs_pos.mpr nonzero)
  simp only [IsSigned, signedMin, signedMax] at signed ⊢
  omega

/-- The only quotient that does not fit is that of the least value by minus one. A divisor further
from zero at least halves the dividend.
-/
theorem isSigned_tdiv_iff {a b : Int} (signed : IsSigned a) (nonzero : b ≠ 0)
    : IsSigned (a.tdiv b) ↔ ¬ (a = signedMin ∧ b = -1) := by
  simp only [IsSigned, signedMin, signedMax] at signed ⊢
  constructor
  · rintro fits ⟨rfl, rfl⟩
    exact absurd fits (by decide)
  · intro other
    have size := Int.natAbs_tdiv a b
    rcases (by omega : b = 1 ∨ b = -1 ∨ 2 ≤ b.natAbs) with rfl | rfl | far
    · rw [Int.tdiv_one]
      exact signed
    · rw [Int.tdiv_neg, Int.tdiv_one]
      omega
    · have halved : a.natAbs / b.natAbs ≤ a.natAbs / 2 := Nat.div_le_div_left far two_pos
      change _ = a.natAbs / b.natAbs at size
      omega

end Arithmetic

namespace Machine

/-- A word that divides by a register that holds zero says so and changes nothing. -/
theorem step_zeroDivisor {machine : Machine} (full : machine.registers.size = registerCount)
    {word : Int} {operation : Operation} (divides : operation = .division ∨ operation = .modulo)
    (known : Operation.ofCode? (Fields.ofWord word).opcode = some operation)
    (zero : machine.registers.get (Fields.ofWord word).operands.second = .ok 0)
    : (machine.step word).Complains machine "Error: Division by zero." := by
  obtain ⟨second, held⟩ := Registers.get_eq_ok_iff.mp zero
  have first := Registers.contains_operand full word .first
  have rule
      : Yields machine.registers (Fields.ofWord word).operands operation.action
          (.report [.divisionByZero]) := by
    rcases divides with rfl | rfl <;> exact .zeroDivisor first second held
  exact step_complains (Registers.wordEffect_of_yields known rule)

end Machine

namespace Arithmetic

/-- Division truncates, on all integers and in the registers of a full machine.
Unless the divisor is zero, a division has a quotient and a remainder: the quotient is rounded
toward zero, the remainder completes it, is nearer to zero than the divisor and has the sign of the
dividend. Both fail exactly with a divisor of zero. Words of the two operations report a divisor of
zero and change nothing; otherwise they store the signed views of quotient and remainder. These are
exact but for the quotient of the least value by minus one, which wraps around to the least value.
-/
theorem division_truncates
    : (∀ a b : Int,
        b ≠ 0
        → ∃ q r, quotient a b = .ok q ∧ remainder a b = .ok r ∧ IsTruncated a b q r)
      ∧ (∀ a b : Int,
          (quotient a b = .error .divisionByZero ↔ b = 0)
          ∧ (remainder a b = .error .divisionByZero ↔ b = 0))
      ∧ (∀ (machine : Machine) (word : Int) (operation : Operation),
          machine.registers.size = registerCount
          → operation = .division ∨ operation = .modulo
          → Operation.ofCode? (Fields.ofWord word).opcode = some operation
          → machine.registers.get (Fields.ofWord word).operands.second = .ok 0
          → (machine.step word).Complains machine "Error: Division by zero.")
      ∧ ∀ a b q r : Int,
          IsSigned a → IsSigned b → b ≠ 0 → IsTruncated a b q r
          → Operation.division.Produces a b (toSigned q)
            ∧ Operation.modulo.Produces a b (toSigned r)
            ∧ toSigned r = r
            ∧ (toSigned q = q ↔ ¬ (a = signedMin ∧ b = -1))
            ∧ (a = signedMin ∧ b = -1 → toSigned q = signedMin ∧ r = 0) := by
  refine ⟨fun a b nonzero => ?_, fun a b => ?_,
    fun machine word operation full divides known zero => ?_,
    fun a b q r dividend divisor nonzero truncated => ?_⟩
  · exact ⟨_, _, quotient_eq_ok a nonzero, remainder_eq_ok a nonzero, isTruncated a nonzero⟩
  · rcases eq_or_ne b 0 with rfl | nonzero
    · exact ⟨⟨fun _ => rfl, fun _ => rfl⟩, ⟨fun _ => rfl, fun _ => rfl⟩⟩
    · rw [quotient_eq_ok a nonzero, remainder_eq_ok a nonzero]
      exact ⟨⟨nofun, fun zero => (nonzero zero).elim⟩, ⟨nofun, fun zero => (nonzero zero).elim⟩⟩
  · exact Machine.step_zeroDivisor full divides known zero
  · obtain ⟨rfl, rfl⟩ := truncated.eq nonzero
    refine ⟨?_, ?_, toSigned_eq_self (isSigned_tmod a divisor nonzero), ?_, ?_⟩
    · exact Operation.division.produces_of_divide rfl nonzero (quotient_eq_ok a nonzero)
    · exact Operation.modulo.produces_of_divide rfl nonzero (remainder_eq_ok a nonzero)
    · exact toSigned_eq_self_iff.trans (isSigned_tdiv_iff dividend nonzero)
    · rintro ⟨rfl, rfl⟩
      exact ⟨rfl, rfl⟩

/-- The destination of a division may be its dividend. -/
theorem division_truncates_in_place
    : IsTruncated (-7) 2 (-3) (-1)
      ∧ Operation.division.Produces (-7) 2 (-3)
      ∧ (Machine.step ⟨(Registers.full.store 0 (-7)).store 1 2, none⟩ 16397).Assigns
          ⟨(Registers.full.store 0 (-7)).store 1 2, none⟩ 0 (-3) := by
  have truncated : IsTruncated (-7) 2 (-3) (-1) := isTruncated (-7) (by decide)
  have produced :=
    (division_truncates.2.2.2 (-7) 2 (-3) (-1) (by decide) (by decide) (by decide) truncated).1
  refine ⟨truncated, produced, produced _ 16397 (by decide +kernel) (by decide +kernel) ?_ ?_⟩
  · exact Registers.get_eq_ok_iff.mpr (by decide +kernel)
  · exact Registers.get_eq_ok_iff.mpr (by decide +kernel)

end Arithmetic

end RegisterMachine
