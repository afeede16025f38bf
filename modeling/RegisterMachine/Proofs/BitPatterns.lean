import Mathlib
import RegisterMachine.Arithmetic

/-! Integer operations by the bits and the signs of their operands.
Integers with the same unsigned view are congruent, and agree in their low 32 bits; some operations
depend on these only. Where shifted patterns are joined by their bits they do not overlap, so that
the result is a sum. A quotient of magnitudes with a sign is a quotient rounded toward zero.
-/

namespace RegisterMachine

@[simp]
theorem powerOfTwo_eq (exponent : Nat)
    : powerOfTwo exponent = 2 ^ exponent := by
  rw [powerOfTwo, Nat.pow_eq, Nat.cast_pow, Nat.cast_ofNat]

/-- Two integers have the same low 32 bits: they are congruent. -/
abbrev SameView (a b : Int) : Prop :=
  toUnsigned a = toUnsigned b

theorem SameView.refl (a : Int)
    : SameView a a :=
  rfl

theorem sameView_iff_modEq {a b : Int}
    : SameView a b ↔ a ≡ b [ZMOD patternCount] :=
  Iff.rfl

/-- The width of a register divides the number of patterns, so that a pattern decides a count. -/
theorem SameView.emod_width_eq {a b : Int} (h : SameView a b)
    : a % 32 = b % 32 :=
  Int.ModEq.of_dvd (by decide) (sameView_iff_modEq.mp h)

-----------------------------------------------------------------------------------------
-- Bits
-----------------------------------------------------------------------------------------

/-- Integers with the same bits are the same. A bit beyond both magnitudes tells the signs, and the
other bits the magnitudes.
-/
theorem eq_of_testBit_eq {a b : Int} (h : ∀ i, a.testBit i = b.testBit i)
    : a = b := by
  have high (m n : Nat) : m.testBit (m + n) = false ∧ n.testBit (m + n) = false :=
    ⟨Nat.testBit_eq_false_of_lt (Nat.lt_of_le_of_lt (by omega) Nat.lt_two_pow_self),
      Nat.testBit_eq_false_of_lt (Nat.lt_of_le_of_lt (by omega) Nat.lt_two_pow_self)⟩
  cases a with
  | ofNat m =>
      cases b with
      | ofNat n => exact congrArg Int.ofNat (Nat.eq_of_testBit_eq h)
      | negSucc n =>
          have beyond : m.testBit (m + n) = !n.testBit (m + n) := h (m + n)
          simp [high m n] at beyond
  | negSucc m =>
      cases b with
      | ofNat n =>
          have beyond : (!m.testBit (m + n)) = n.testBit (m + n) := h (m + n)
          simp [high m n] at beyond
      | negSucc n =>
          refine congrArg Int.negSucc (Nat.eq_of_testBit_eq fun i => ?_)
          have inverted : (!m.testBit i) = !n.testBit i := h i
          simpa using inverted

/-- A remainder of division by a power of two has the low bits, and no others. -/
theorem testBit_emod_two_pow (a : Int) (width i : Nat)
    : (a % 2 ^ width).testBit i = (decide (i < width) && a.testBit i) := by
  have positive : (0 : Int) < 2 ^ width := by positivity
  cases a with
  | ofNat n =>
      have remainder : (Int.ofNat n) % 2 ^ width = ((n % 2 ^ width : Nat) : Int) := by simp
      rw [remainder]
      exact Nat.testBit_mod_two_pow n width i
  | negSucc n =>
      have below : n % 2 ^ width < 2 ^ width := Nat.mod_lt n (by positivity)
      have remainder
          : Int.negSucc n % 2 ^ width = ((2 ^ width - (n % 2 ^ width + 1) : Nat) : Int) := by
        rw [Int.negSucc_emod n positive, Nat.cast_sub below]
        push_cast
        omega
      have bits := Nat.testBit_two_pow_sub_succ below i
      rw [Nat.testBit_mod_two_pow] at bits
      rw [remainder]
      change Nat.testBit _ i = (decide (i < width) && !n.testBit i)
      rw [bits]
      cases decide (i < width) <;> simp

/-- The low 32 bits survive in the unsigned view, and there are no others. -/
theorem testBit_toUnsigned (a : Int) (i : Nat)
    : (toUnsigned a).testBit i = (decide (i < 32) && a.testBit i) :=
  testBit_emod_two_pow a 32 i

/-- Unsigned views agree exactly when the low 32 bits do. -/
theorem sameView_iff_testBit {a b : Int}
    : SameView a b ↔ ∀ i < 32, a.testBit i = b.testBit i := by
  constructor
  · intro h i below
    have bits := congrArg (fun value => Int.testBit value i) h
    simpa [testBit_toUnsigned, below] using bits
  · intro h
    obtain ⟨m, hm⟩ := Int.eq_ofNat_of_zero_le (toUnsigned_nonneg a)
    obtain ⟨n, hn⟩ := Int.eq_ofNat_of_zero_le (toUnsigned_nonneg b)
    rw [SameView, hm, hn, Nat.cast_inj]
    refine Nat.eq_of_testBit_eq fun i => ?_
    have first : m.testBit i = (decide (i < 32) && a.testBit i) := by
      rw [← testBit_toUnsigned, hm]
      rfl
    have second : n.testBit i = (decide (i < 32) && b.testBit i) := by
      rw [← testBit_toUnsigned, hn]
      rfl
    rw [first, second]
    by_cases below : i < 32
    · rw [h i below]
    · simp [below]

namespace Bitwise

theorem testBit_magnitudeBits (a : Int) (i : Nat)
    : (magnitudeBits a).testBit i = (a.testBit i ^^ decide (a < 0)) := by
  cases a with
  | ofNat n =>
      have nonneg : ¬ (n : Int) < 0 := by omega
      simp [magnitudeBits, Int.testBit, nonneg]
  | negSucc n =>
      have bits : magnitudeBits (Int.negSucc n) = n := by
        rw [magnitudeBits, if_pos (Int.negSucc_lt_zero n)]
        omega
      simp [bits, Int.testBit, Int.negSucc_lt_zero]

/-- Inverting a natural number inverts its bits. -/
theorem testBit_inverted (sign : Bool) (bits i : Nat)
    : (if sign then -(bits : Int) - 1 else bits).testBit i = (bits.testBit i ^^ sign) := by
  cases sign with
  | false => simp [Int.testBit]
  | true =>
      have inverted : -(bits : Int) - 1 = Int.negSucc bits := by omega
      simp [inverted, Int.testBit]

/-- A truth table is applied to each bit, signs included. -/
theorem testBit_combine (table : Bool → Bool → Bool) (a b : Int) (i : Nat)
    : (combine table a b).testBit i = table (a.testBit i) (b.testBit i) := by
  have aligned : ((table (false ^^ decide (a < 0)) (false ^^ decide (b < 0)))
      ^^ table (decide (a < 0)) (decide (b < 0))) = false := by simp
  rw [combine, testBit_inverted, Nat.testBit_bitwise aligned, testBit_magnitudeBits,
    testBit_magnitudeBits]
  simp

/-- The complement of an integer inverts each of its bits, by cases on the sign. -/
theorem testBit_complement (a : Int) (i : Nat)
    : (complement a).testBit i = !a.testBit i := by
  have inverted : complement a = a.lnot := by
    cases a <;> simp only [complement, Int.lnot, Int.negSucc_eq, Int.ofNat_eq_natCast] <;> omega
  rw [inverted, Int.testBit_lnot]

theorem testBit_or (a b : Int) (i : Nat)
    : (Bitwise.or a b).testBit i = (a.testBit i || b.testBit i) :=
  testBit_combine _ a b i

theorem testBit_and (a b : Int) (i : Nat)
    : (Bitwise.and a b).testBit i = (a.testBit i && b.testBit i) :=
  testBit_combine _ a b i

theorem testBit_xor (a b : Int) (i : Nat)
    : (Bitwise.xor a b).testBit i = (a.testBit i ^^ b.testBit i) :=
  testBit_combine _ a b i

theorem or_comm (a b : Int)
    : Bitwise.or a b = Bitwise.or b a := by
  refine eq_of_testBit_eq fun i => ?_
  rw [testBit_or, testBit_or, Bool.or_comm]

/-- Only the last bits of a mask of ones count. -/
theorem and_mask (a : Int) (width : Nat)
    : Bitwise.and a (2 ^ width - 1) = a % 2 ^ width := by
  refine eq_of_testBit_eq fun i => ?_
  have ones : (2 ^ width - 1 : Int) = ((2 ^ width - 1 : Nat) : Int) := by
    rw [Nat.cast_sub Nat.one_le_two_pow]
    simp
  have mask : (2 ^ width - 1 : Int).testBit i = decide (i < width) := by
    rw [ones]
    exact Nat.testBit_two_pow_sub_one width i
  rw [testBit_and, testBit_emod_two_pow, mask, Bool.and_comm]

theorem and_unsignedMax (a : Int)
    : Bitwise.and a unsignedMax = toUnsigned a :=
  and_mask a 32

theorem and_31 (a : Int)
    : Bitwise.and a 31 = a % 32 :=
  and_mask a 5

theorem testBit_natCast (n i : Nat)
    : ((n : Nat) : Int).testBit i = n.testBit i :=
  rfl

/-- A multiple of a power of two and a number below that power have no bit in common. -/
theorem or_eq_add {a b : Int} {width : Nat} (ha : 0 ≤ a) (hb : 0 ≤ b) (below : b < 2 ^ width)
    : Bitwise.or (a * 2 ^ width) b = a * 2 ^ width + b := by
  obtain ⟨m, rfl⟩ := Int.eq_ofNat_of_zero_le ha
  obtain ⟨n, rfl⟩ := Int.eq_ofNat_of_zero_le hb
  have small : n < 2 ^ width := by exact_mod_cast below
  refine eq_of_testBit_eq fun i => ?_
  have moved : ((m : Int) * 2 ^ width) = ((2 ^ width * m : Nat) : Int) := by push_cast; ring
  rw [testBit_or, moved, ← Nat.cast_add, testBit_natCast, testBit_natCast, testBit_natCast,
    ← Nat.testBit_or, Nat.two_pow_add_eq_or_of_lt small]

/-- Truth tables depend on the low 32 bits only. -/
theorem sameView_combine (table : Bool → Bool → Bool) {a a' b b' : Int} (ha : SameView a a')
    (hb : SameView b b')
    : SameView (combine table a b) (combine table a' b') := by
  rw [sameView_iff_testBit] at ha hb ⊢
  intro i below
  rw [testBit_combine, testBit_combine, ha i below, hb i below]

theorem sameView_complement {a a' : Int} (h : SameView a a')
    : SameView (complement a) (complement a') := by
  rw [sameView_iff_testBit] at h ⊢
  intro i below
  rw [testBit_complement, testBit_complement, h i below]

theorem sameView_or {a a' b b' : Int} (ha : SameView a a') (hb : SameView b b')
    : SameView (Bitwise.or a b) (Bitwise.or a' b') :=
  sameView_combine _ ha hb

theorem sameView_and {a a' b b' : Int} (ha : SameView a a') (hb : SameView b b')
    : SameView (Bitwise.and a b) (Bitwise.and a' b') :=
  sameView_combine _ ha hb

end Bitwise

-----------------------------------------------------------------------------------------
-- Quotients
-----------------------------------------------------------------------------------------

namespace Arithmetic

/-- The quotient of the magnitudes, negated if the signs differ, is rounded toward zero. -/
theorem quotient_eq_ok (a : Int) {b : Int} (nonzero : b ≠ 0)
    : quotient a b = .ok (a.tdiv b) := by
  have magnitude : (b.natAbs : Int) ≠ 0 := by omega
  have whole : (a.natAbs : Int).fdiv b.natAbs = (a.natAbs : Int).tdiv b.natAbs := by
    rw [Int.fdiv_eq_ediv_of_nonneg _ (Int.natCast_nonneg _),
      Int.tdiv_eq_ediv_of_nonneg (Int.natCast_nonneg _)]
  rw [quotient, floorQuotient, if_neg magnitude, whole, Except.map]
  refine congrArg Except.ok ?_
  obtain ha | ha := lt_or_ge a 0 <;> obtain hb | hb := lt_or_ge b 0
  · rw [Int.ofNat_natAbs_of_nonpos ha.le, Int.ofNat_natAbs_of_nonpos hb.le, Int.tdiv_neg,
      Int.neg_tdiv, neg_neg]
    simp [ha, hb]
  · rw [Int.ofNat_natAbs_of_nonpos ha.le, Int.natAbs_of_nonneg hb, Int.neg_tdiv, neg_neg]
    simp [ha, not_lt.mpr hb]
  · rw [Int.natAbs_of_nonneg ha, Int.ofNat_natAbs_of_nonpos hb.le, Int.tdiv_neg, neg_neg]
    simp [not_lt.mpr ha, hb]
  · rw [Int.natAbs_of_nonneg ha, Int.natAbs_of_nonneg hb]
    simp [not_lt.mpr ha, not_lt.mpr hb]

theorem remainder_eq_ok (a : Int) {b : Int} (nonzero : b ≠ 0)
    : remainder a b = .ok (a.tmod b) := by
  rw [remainder, quotient_eq_ok a nonzero, Int.tmod_def]
  rfl

end Arithmetic

-----------------------------------------------------------------------------------------
-- Rotations and bytes
-----------------------------------------------------------------------------------------

namespace Arithmetic

variable {platform : Platform} {a count : Int}

/-- A pattern can be shifted by its width on every platform. -/
theorem shiftLeftOn_toUnsigned (low : 0 ≤ count) (high : count ≤ 32)
    : shiftLeftOn platform (toUnsigned a) count
      = .ok (toUnsigned a * powerOfTwo count.toNat) := by
  have bounded : toUnsigned a ≤ unsignedMax := by
    have := toUnsigned_lt a
    simp only [patternCount, unsignedMax] at this ⊢
    omega
  have held : platform.holds (toUnsigned a) count.toNat = true :=
    platform.pattern _ _ (toUnsigned_nonneg a) bounded (by omega)
  simp [shiftLeftOn, held, shiftLeft, not_lt.mpr low]

/-- The part of a pattern that leaves it on the left is small. -/
theorem toUnsigned_ediv_lt (a : Int) {count : Nat} (high : count ≤ 32)
    : toUnsigned a / 2 ^ (32 - count) < 2 ^ count := by
  rw [Int.ediv_lt_iff_lt_mul (by positivity), ← pow_add, Nat.add_sub_cancel' high]
  exact toUnsigned_lt a

/-- The two parts of a rotation do not overlap, so that their sum joins them. -/
theorem rotateLeft_eq (platform : Platform) (a : Int) (low : 0 ≤ count) (high : count ≤ 32)
    : rotateLeft platform a count
      = .ok (toUnsigned
          (toUnsigned a * powerOfTwo count.toNat
            + toUnsigned a / powerOfTwo (32 - count).toNat)) := by
  have back : (32 - count).toNat = 32 - count.toNat := by omega
  have joined
      : Bitwise.or (toUnsigned a * 2 ^ count.toNat) (toUnsigned a / 2 ^ (32 - count.toNat))
        = toUnsigned a * 2 ^ count.toNat + toUnsigned a / 2 ^ (32 - count.toNat) :=
    Bitwise.or_eq_add (toUnsigned_nonneg a)
      (Int.ediv_nonneg (toUnsigned_nonneg a) (by positivity))
      (toUnsigned_ediv_lt a (by omega))
  have both
      : rotateLeft platform a count
        = .ok (Bitwise.and
            (Bitwise.or (toUnsigned a * powerOfTwo count.toNat)
              (toUnsigned a / powerOfTwo (32 - count).toNat))
            unsignedMax) := by
    rw [rotateLeft, shiftLeftOn_toUnsigned low high, shiftRight, if_neg (by omega)]
    rfl
  rw [both, Bitwise.and_unsignedMax, powerOfTwo_eq, powerOfTwo_eq, back, joined]

theorem rotateRight_eq (platform : Platform) (a : Int) (low : 0 ≤ count) (high : count ≤ 32)
    : rotateRight platform a count
      = .ok (toUnsigned
          (toUnsigned a / powerOfTwo count.toNat
            + toUnsigned a * powerOfTwo (32 - count).toNat)) := by
  have back : (32 - count).toNat = 32 - count.toNat := by omega
  have forth : 32 - (32 - count.toNat) = count.toNat := by omega
  have joined
      : Bitwise.or (toUnsigned a * 2 ^ (32 - count.toNat)) (toUnsigned a / 2 ^ count.toNat)
        = toUnsigned a * 2 ^ (32 - count.toNat) + toUnsigned a / 2 ^ count.toNat := by
    refine Bitwise.or_eq_add (toUnsigned_nonneg a)
      (Int.ediv_nonneg (toUnsigned_nonneg a) (by positivity)) ?_
    have part := toUnsigned_ediv_lt a (show 32 - count.toNat ≤ 32 by omega)
    rwa [forth] at part
  have both
      : rotateRight platform a count
        = .ok (Bitwise.and
            (Bitwise.or (toUnsigned a / powerOfTwo count.toNat)
              (toUnsigned a * powerOfTwo (32 - count).toNat))
            unsignedMax) := by
    rw [rotateRight, shiftLeftOn_toUnsigned (by omega) (by omega), shiftRight,
      if_neg (not_lt.mpr low)]
    rfl
  rw [both, Bitwise.and_unsignedMax, powerOfTwo_eq, powerOfTwo_eq, back, Bitwise.or_comm, joined,
    Int.add_comm]

/-- A byte that is masked out is subtracted, and the new one is added in its place. -/
theorem replaceByte_eq (a index : Int) {byte : Int} (low : 0 ≤ byte) (high : byte < 256)
    : replaceByte a index byte
      = toUnsigned a - toUnsigned a / powerOfTwo (8 * index.toNat) % 256
            * powerOfTwo (8 * index.toNat)
          + byte * powerOfTwo (8 * index.toNat) := by
  obtain ⟨pattern, hpattern⟩ := Int.eq_ofNat_of_zero_le (toUnsigned_nonneg a)
  obtain ⟨new, rfl⟩ := Int.eq_ofNat_of_zero_le low
  have small : new < 2 ^ 8 := by omega
  simp only [replaceByte, hpattern, powerOfTwo_eq]
  generalize 8 * index.toNat = place
  -- The pattern is taken apart: what is above the byte, the byte, and what is below it.
  set above := pattern / 2 ^ place / 2 ^ 8
  set old := pattern / 2 ^ place % 2 ^ 8
  set below := pattern % 2 ^ place
  have belowSmall : below < 2 ^ place := Nat.mod_lt _ (by positivity)
  have parts : pattern = 2 ^ place * (2 ^ 8 * above + old) + below := by
    rw [Nat.div_add_mod, Nat.div_add_mod]
  have result
      : (pattern : Int) - pattern / 2 ^ place % 256 * 2 ^ place + new * 2 ^ place
        = ((2 ^ place * (2 ^ 8 * above + new) + below : Nat) : Int) := by
    have quotient : ((pattern : Int) / 2 ^ place % 256) = (old : Int) := by
      simp [old]
    rw [quotient]
    nth_rewrite 1 [parts]
    push_cast
    ring
  have mask : (255 : Int) * 2 ^ place = (((2 ^ 8 - 1) * 2 ^ place : Nat) : Int) := by norm_num
  have moved : (new : Int) * 2 ^ place = ((new * 2 ^ place : Nat) : Int) := by norm_num
  rw [result, mask, moved]
  refine eq_of_testBit_eq fun i => ?_
  rw [Bitwise.testBit_or, Bitwise.testBit_and, Bitwise.testBit_complement]
  simp only [Bitwise.testBit_natCast]
  have oldSmall : old < 2 ^ 8 := Nat.mod_lt _ (by norm_num)
  rw [parts, Nat.testBit_two_pow_mul_add _ belowSmall, Nat.testBit_two_pow_mul_add _ belowSmall,
    Nat.testBit_two_pow_mul_add _ oldSmall, Nat.testBit_two_pow_mul_add _ small,
    Nat.testBit_mul_two_pow, Nat.testBit_mul_two_pow, Nat.testBit_two_pow_sub_one]
  by_cases inside : i < place
  · simp [inside, not_le.mpr inside]
  · by_cases masked : i - place < 8
    · simp [inside, masked, not_lt.mp inside]
    · have beyond : new.testBit (i - place) = false :=
        Nat.testBit_eq_false_of_lt
          (small.trans_le (Nat.pow_le_pow_right (by norm_num) (not_lt.mp masked)))
      simp [inside, masked, beyond]

end Arithmetic

end RegisterMachine
