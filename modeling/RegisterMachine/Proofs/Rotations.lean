import RegisterMachine.Proofs.BitVectors

/-! Rotations turn the 32 bits of a register like a wheel.
Turns add up and can be undone, and only the remainder of a count by 32 matters; what the words of
the two operations do follows from that.
-/

namespace RegisterMachine

-----------------------------------------------------------------------------------------
-- Turns
-----------------------------------------------------------------------------------------

/-- One integer is another one turned to the left: each of its 32 bits is the one that stood lower
by the count, where the places are counted around. A negative count turns to the right.
-/
def IsTurned (count value result : Int) : Prop :=
  ∀ i : Nat,
    i < 32 → (vector result).getLsbD i = (vector value).getLsbD ((i - count) % 32).toNat

namespace IsTurned

variable {count count' a b c : Int}

theorem congr (h : IsTurned count a b) (same : count' % 32 = count % 32)
    : IsTurned count' a b := by
  intro i below
  have place : ((i : Int) - count') % 32 = (i - count) % 32 := by omega
  rw [place]
  exact h i below

theorem trans (h : IsTurned count a b) (h' : IsTurned count' b c)
    : IsTurned (count + count') a c := by
  intro i below
  have between : (((i : Int) - count') % 32).toNat < 32 := by omega
  have place
      : (((((i : Int) - count') % 32).toNat : Int) - count) % 32 = (i - (count + count')) % 32 := by
    omega
  rw [h' i below, h _ between, place]

theorem symm (h : IsTurned count a b)
    : IsTurned (-count) b a := by
  intro i below
  have between : (((i : Int) - -count) % 32).toNat < 32 := by omega
  have place : (((((i : Int) - -count) % 32).toNat : Int) - count) % 32 = i := by omega
  rw [h _ between, place, Int.toNat_natCast]

/-- There is one way to turn the bits of a register. -/
theorem eq (h : IsTurned count a b) (h' : IsTurned count a c) (hb : IsSigned b)
    (hc : IsSigned c)
    : b = c := by
  apply eq_of_vector_eq hb hc
  apply BitVec.eq_of_getLsbD_eq
  intro i below
  rw [h i below, h' i below]

theorem toSigned (h : IsTurned count a b)
    : IsTurned count a (toSigned b) := by
  intro i below
  rw [vector_toSigned]
  exact h i below

end IsTurned

-----------------------------------------------------------------------------------------
-- Rotations of integers
-----------------------------------------------------------------------------------------

/-- The bits that leave a pattern of 32 bits on the left fill the places that become free. -/
theorem testBit_joined {n : Nat} (pattern : n < 2 ^ 32) {count : Nat} (high : count ≤ 32)
    (i : Nat)
    : (n * 2 ^ count + n / 2 ^ (32 - count)).testBit i
      = n.testBit (if i < count then i + (32 - count) else i - count) := by
  have carried : n / 2 ^ (32 - count) < 2 ^ count := by
    apply Nat.div_lt_of_lt_mul
    rwa [← Nat.pow_add, Nat.sub_add_cancel high]
  rw [Nat.mul_comm, Nat.testBit_two_pow_mul_add n carried]
  split
  · rw [Nat.testBit_div_two_pow]
  · rfl

/-- The two parts of the pattern of an integer, moved apart by 32 places, make up its turn. -/
theorem isTurned_joined (value : Int) {count : Nat} (high : count ≤ 32)
    : IsTurned count value
        (toUnsigned value * 2 ^ count + toUnsigned value / 2 ^ (32 - count)) := by
  obtain ⟨n, view⟩ := Int.eq_ofNat_of_zero_le (toUnsigned_nonneg value)
  have pattern : n < 2 ^ 32 := by
    have upper := toUnsigned_lt value
    simp only [patternCount] at upper
    omega
  have bits (i : Nat) : (vector value).getLsbD i = n.testBit i := by
    have same : (vector value).toNat = n := by
      have natural := toNat_vector value
      omega
    rw [BitVec.getLsbD, same]
  intro i below
  have joined
      : toUnsigned value * 2 ^ count + toUnsigned value / 2 ^ (32 - count)
        = ((n * 2 ^ count + n / 2 ^ (32 - count) : Nat) : Int) := by
    rw [view]
    norm_cast
  rw [bits, joined, getLsbD_vector, decide_eq_true below, Bool.true_and]
  change Nat.testBit _ i = _
  rw [testBit_joined pattern high]
  congr 1
  split <;> omega

namespace Arithmetic

theorem rotateLeft_turns {count : Int} (low : 0 ≤ count) (high : count ≤ 32) (value : Int)
    : ∃ result,
        (∀ platform, rotateLeft platform value count = .ok result)
        ∧ IsWord result
        ∧ IsTurned count value result := by
  obtain ⟨s, rfl⟩ := Int.eq_ofNat_of_zero_le low
  have rest : (32 - (s : Int)).toNat = 32 - s := by omega
  have turned := isTurned_joined value (show s ≤ 32 by omega)
  generalize joined
    : toUnsigned value * 2 ^ s + toUnsigned value / 2 ^ (32 - s) = sum at turned
  refine ⟨toUnsigned sum, fun platform => ?_, isWord_toUnsigned sum, fun i below => ?_⟩
  · rw [rotateLeft_eq platform value low high, Int.toNat_natCast, rest, powerOfTwo_eq,
      powerOfTwo_eq, joined]
  · rw [vector_eq_iff.mpr (toUnsigned_toUnsigned sum)]
    exact turned i below

/-- Turning to the right is turning to the left by what is missing to a whole turn. -/
theorem rotateRight_eq_rotateLeft (platform : Platform) (value : Int) {count : Int}
    (low : 0 ≤ count) (high : count ≤ 32)
    : rotateRight platform value count = rotateLeft platform value (32 - count) := by
  rw [rotateRight_eq platform value low high,
    rotateLeft_eq platform value (by omega) (by omega), sub_sub_cancel, Int.add_comm]

theorem rotateRight_turns {count : Int} (low : 0 ≤ count) (high : count ≤ 32) (value : Int)
    : ∃ result,
        (∀ platform, rotateRight platform value count = .ok result)
        ∧ IsWord result
        ∧ IsTurned (-count) value result := by
  have low' : 0 ≤ 32 - count := by omega
  have high' : 32 - count ≤ 32 := by omega
  obtain ⟨result, defined, word, turned⟩ := rotateLeft_turns low' high' value
  refine ⟨result, fun platform => ?_, word, turned.congr (by omega)⟩
  rw [rotateRight_eq_rotateLeft platform value low high, defined]

/-- A count that is reduced turns by what it was. -/
theorem rotateLeft_reduced (value count : Int)
    : ∃ result,
        (∀ platform, rotateLeft platform value (count % 32) = .ok result)
        ∧ IsTurned count value result := by
  have low : 0 ≤ count % 32 := by omega
  have high : count % 32 ≤ 32 := by omega
  obtain ⟨result, defined, _, turned⟩ := rotateLeft_turns low high value
  exact ⟨result, defined, turned.congr (by omega)⟩

theorem rotateRight_reduced (value count : Int)
    : ∃ result,
        (∀ platform, rotateRight platform value (count % 32) = .ok result)
        ∧ IsTurned (-count) value result := by
  have low : 0 ≤ count % 32 := by omega
  have high : count % 32 ≤ 32 := by omega
  obtain ⟨result, defined, _, turned⟩ := rotateRight_turns low high value
  exact ⟨result, defined, turned.congr (by omega)⟩

/-- How rotations by other counts fail. By a negative count the first shift fails. By a count above
the width the second shift does, unless the first one has already failed for its result.
-/
inductive Unturned (platform : Platform) (value count : Int)
    : (left right : ArithmeticError) → Prop
  | negative (outside : count < 0)
    : Unturned platform value count .negativeShift .negativeShift
  | held (outside : 32 < count) (room : platform.holds (toUnsigned value) count.toNat = true)
    : Unturned platform value count .negativeShift .negativeShift
  | long (outside : 32 < count) (room : platform.holds (toUnsigned value) count.toNat = false)
    : Unturned platform value count .tooManyDigits .negativeShift

theorem rotate_eq_error (platform : Platform) (value : Int) {count : Int}
    (outside : count < 0 ∨ 32 < count)
    : ∃ left right,
        rotateLeft platform value count = .error left
        ∧ rotateRight platform value count = .error right
        ∧ Unturned platform value count left right := by
  rcases outside with below | above
  · refine ⟨_, _, ?_, ?_, .negative below⟩
    · have first : shiftLeftOn platform (toUnsigned value) count = .error .negativeShift := by
        rw [shiftLeftOn, if_neg (by omega), shiftLeft, if_pos below]
      rw [rotateLeft, first]
      rfl
    · rw [rotateRight, shiftRight, if_pos below]
      rfl
  · have back : 32 - count < 0 := by omega
    have right : rotateRight platform value count = .error .negativeShift := by
      have second
          : shiftLeftOn platform (toUnsigned value) (32 - count) = .error .negativeShift := by
        rw [shiftLeftOn, if_neg (by omega), shiftLeft, if_pos back]
      rw [rotateRight, shiftRight, if_neg (by omega), second]
      rfl
    cases room : platform.holds (toUnsigned value) count.toNat with
    | true =>
        refine ⟨_, _, ?_, right, .held above room⟩
        rw [rotateLeft, shiftLeftOn, if_neg (by simp [room]), shiftLeft, if_neg (by omega),
          shiftRight, if_pos back]
        rfl
    | false =>
        refine ⟨_, _, ?_, right, .long above room⟩
        rw [rotateLeft, shiftLeftOn, if_pos ⟨by omega, room⟩]
        rfl

end Arithmetic

-----------------------------------------------------------------------------------------
-- Rotations of registers
-----------------------------------------------------------------------------------------

namespace Operation

variable {a count result : Int}

theorem produces_rotateLeft (signed : IsSigned result) (turned : IsTurned count a result)
    : rotateLeft.Produces a count result := by
  obtain ⟨pattern, defined, turned'⟩ := Arithmetic.rotateLeft_reduced a count
  have same : toSigned pattern = result :=
    turned'.toSigned.eq turned (isSigned_toSigned pattern) signed
  rw [← same]
  exact rotateLeft.produces_of_binary rfl (defined _)

theorem produces_rotateRight (signed : IsSigned result) (turned : IsTurned (-count) a result)
    : rotateRight.Produces a count result := by
  obtain ⟨pattern, defined, turned'⟩ := Arithmetic.rotateRight_reduced a count
  have same : toSigned pattern = result :=
    turned'.toSigned.eq turned (isSigned_toSigned pattern) signed
  rw [← same]
  exact rotateRight.produces_of_binary rfl (defined _)

/-- The pattern that a reduced count leads to is stored as its signed view. -/
theorem exists_rotated (a c : Int)
    : ∃ left right,
        (∀ platform,
          (Arithmetic.rotateLeft platform a (c % 32)).map toSigned = .ok left
          ∧ (Arithmetic.rotateRight platform a (c % 32)).map toSigned = .ok right)
        ∧ (IsSigned left ∧ IsTurned c a left)
        ∧ IsSigned right
        ∧ IsTurned (-c) a right := by
  obtain ⟨left, defined, turned⟩ := Arithmetic.rotateLeft_reduced a c
  obtain ⟨right, defined', turned'⟩ := Arithmetic.rotateRight_reduced a c
  refine ⟨toSigned left, toSigned right, fun platform => ⟨?_, ?_⟩, ?_, ?_⟩
  · rw [defined]
    rfl
  · rw [defined']
    rfl
  · exact ⟨isSigned_toSigned left, turned.toSigned⟩
  · exact ⟨isSigned_toSigned right, turned'.toSigned⟩

/-- The laws of rotation.
By a count from 0 to 32 the bits of an integer are turned to the left or to the right. By other
counts there is no rotation: the first of the two shifts that fails says why, and that is a negative
shift unless the left shift comes first and its result cannot be held. Words of the two operations
never fail: on a full machine, whatever the operands are, they turn their first source by the
floored remainder of the second by 32, or, what is the same, by the second itself. So a turn is
undone by a turn to the other side, turning to the left is turning to the right by the wrapped
negation of the count, counts with the same remainder lead to the same result, and two turns after
each other are one turn by the wrapped sum of their counts. What a platform can hold matters nowhere
but for a count above 32.
-/
theorem rotation_laws
    : (∀ value count : Int,
        0 ≤ count → count ≤ 32
        → ∃ left right,
            (∀ platform,
              Arithmetic.rotateLeft platform value count = .ok left
              ∧ Arithmetic.rotateRight platform value count = .ok right)
            ∧ (IsWord left ∧ IsWord right)
            ∧ ∀ i : Nat,
                i < 32
                → (vector left).getLsbD i = (vector value).getLsbD ((i - count) % 32).toNat
                  ∧ (vector right).getLsbD i = (vector value).getLsbD ((i + count) % 32).toNat)
      ∧ (∀ (platform : Platform) (value count : Int),
          count < 0 ∨ 32 < count
          → ∃ left right,
              Arithmetic.rotateLeft platform value count = .error left
              ∧ Arithmetic.rotateRight platform value count = .error right
              ∧ Arithmetic.Unturned platform value count left right)
      ∧ ∀ a c : Int,
          IsSigned a
          → ∃ left right,
              (∀ platform,
                (Arithmetic.rotateLeft platform a (c % 32)).map toSigned = .ok left
                ∧ (Arithmetic.rotateRight platform a (c % 32)).map toSigned = .ok right)
              ∧ (rotateLeft.Produces a c left ∧ rotateRight.Produces a c right)
              ∧ (rotateRight.Produces left c a ∧ rotateLeft.Produces right c a)
              ∧ rotateRight.Produces a (toSigned (-c)) left
              ∧ (∀ c' : Int,
                  c' % 32 = c % 32
                  → rotateLeft.Produces a c' left ∧ rotateRight.Produces a c' right)
              ∧ ∀ d : Int,
                  ∃ sum,
                    rotateLeft.Produces left d sum
                    ∧ rotateLeft.Produces a (toSigned (c + d)) sum := by
  refine ⟨fun value count low high => ?_,
    fun platform value count outside => Arithmetic.rotate_eq_error platform value outside,
    fun a c signed => ?_⟩
  · obtain ⟨left, defined, word, turned⟩ := Arithmetic.rotateLeft_turns low high value
    obtain ⟨right, defined', word', turned'⟩ := Arithmetic.rotateRight_turns low high value
    refine ⟨left, right, fun platform => ⟨defined platform, defined' platform⟩, ⟨word, word'⟩,
      fun i below => ⟨turned i below, ?_⟩⟩
    rw [turned' i below, sub_neg_eq_add]
  · obtain ⟨left, right, rotated, ⟨fits, turned⟩, fits', turned'⟩ := exists_rotated a c
    refine ⟨left, right, rotated, ⟨produces_rotateLeft fits turned,
      produces_rotateRight fits' turned'⟩, ⟨?_, ?_⟩, ?_, fun c' same => ⟨?_, ?_⟩, fun d => ?_⟩
    · exact produces_rotateRight signed turned.symm
    · exact produces_rotateLeft signed (turned'.symm.congr (by omega))
    · have wrapped : toSigned (-c) % 32 = -c % 32 :=
        SameView.emod_width_eq (toUnsigned_toSigned (-c))
      exact produces_rotateRight fits (turned.congr (by omega))
    · exact produces_rotateLeft fits (turned.congr same)
    · exact produces_rotateRight fits' (turned'.congr (by omega))
    · obtain ⟨sum, _, _, ⟨fits'', turned''⟩, _⟩ := exists_rotated left d
      have wrapped : toSigned (c + d) % 32 = (c + d) % 32 :=
        SameView.emod_width_eq (toUnsigned_toSigned (c + d))
      exact ⟨sum, produces_rotateLeft fits'' turned'',
        produces_rotateLeft fits'' ((turned.trans turned'').congr wrapped)⟩

/-- A turn to the left by minus 24 moves the highest byte of a register to its low end, whereas an
integer cannot be turned by minus 24; a turn by 32 brings every bit back to its place.
-/
theorem rotation_laws_negative_count
    : (∃ left,
        Arithmetic.rotateLeft .unbounded 305419896 32 = .ok left
        ∧ ∀ i : Nat, i < 32 → (vector left).getLsbD i = (vector 305419896).getLsbD i)
      ∧ Arithmetic.rotateLeft .unbounded 305419896 (-24) = .error .negativeShift
      ∧ IsSigned 305419896
      ∧ rotateLeft.Produces 305419896 (-24) 878082066
      ∧ rotateRight.Produces 878082066 (-24) 305419896
      ∧ (Machine.step ⟨(Registers.full.store 0 305419896).store 1 (-24), none⟩ 16406).Assigns
          ⟨(Registers.full.store 0 305419896).store 1 (-24), none⟩ 0 878082066 := by
  obtain ⟨whole, _, defined, _, bits⟩ := rotation_laws.1 305419896 32 (by decide) (by decide)
  obtain ⟨cause, _, refused, _, reason⟩ :=
    rotation_laws.2.1 .unbounded 305419896 (-24) (by decide)
  obtain rfl : cause = .negativeShift := by cases reason <;> first | rfl | contradiction
  have signed : IsSigned 305419896 := by decide
  obtain ⟨left, _, rotated, ⟨turned, _⟩, ⟨undone, _⟩, _⟩ :=
    rotation_laws.2.2 305419896 (-24) signed
  have pattern
      : (Arithmetic.rotateLeft .unbounded 305419896 (-24 % 32)).map toSigned = .ok 878082066 := by
    rw [Arithmetic.rotateLeft_eq .unbounded _ (by decide) (by decide)]
    rfl
  obtain rfl := Except.ok.inj (pattern.symm.trans (rotated .unbounded).1)
  refine ⟨⟨whole, (defined _).1, fun i below => ?_⟩, refused, signed, turned, undone,
    turned _ 16406 (by decide +kernel) (by decide +kernel) ?_ ?_⟩
  · have place : ((i : Int) - 32) % 32 = i := by omega
    rw [(bits i below).1, place, Int.toNat_natCast]
  · exact Registers.get_eq_ok_iff.mpr (by decide +kernel)
  · exact Registers.get_eq_ok_iff.mpr (by decide +kernel)

/-- A platform with 64-bit addresses has no room for integers of 2^67 bits. -/
def addressed : Platform where
  holds value count := value = 0 ∨ count < 2 ^ 67
  zero _ := by simp
  pattern _ count _ _ high := by
    have room : count < 2 ^ 67 := by omega
    exact decide_eq_true (.inr room)

/-- By a count that is too large, turning to the left does not fail for a negative shift. -/
theorem rotateLeft_too_many_digits
    : (32 : Int) < 2 ^ 70
      ∧ Arithmetic.rotateLeft addressed 1 (2 ^ 70) = .error .tooManyDigits
      ∧ Arithmetic.rotateLeft addressed 1 (2 ^ 70) ≠ .error .negativeShift
      ∧ Arithmetic.rotateRight addressed 1 (2 ^ 70) = .error .negativeShift := by
  have outside : (32 : Int) < 2 ^ 70 := by norm_num
  have full : addressed.holds (toUnsigned 1) (Int.toNat (2 ^ 70)) = false := by decide +kernel
  obtain ⟨left, right, failed, failed', cause⟩ :=
    Arithmetic.rotate_eq_error addressed 1 (.inr outside)
  cases cause with
  | negative below => omega
  | held _ room => rw [full] at room; cases room
  | long => exact ⟨outside, failed, by rw [failed]; simp, failed'⟩

end Operation

end RegisterMachine
