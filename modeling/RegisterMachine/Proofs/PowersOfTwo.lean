import RegisterMachine.Proofs.Assignments

/-! The greatest power of two that is not above a register.
All that is said about it follows from what it is, and not from how it is computed: taking it twice
is taking it once, and it grows with the register.
-/

namespace RegisterMachine

-----------------------------------------------------------------------------------------
-- Powers of two below an integer
-----------------------------------------------------------------------------------------

/-- The greatest power of two that is not above an integer. There is one for positive integers only,
and zero stands for it otherwise.
-/
inductive IsGreatestPower (a : Int) : Int → Prop
  | power {exponent : Nat} (positive : 0 < a) (below : 2 ^ exponent ≤ a)
    (above : a < 2 * 2 ^ exponent)
    (greatest : ∀ other : Nat, (2 : Int) ^ other ≤ a → (2 : Int) ^ other ≤ 2 ^ exponent)
    : IsGreatestPower a (2 ^ exponent)
  | none (nonpositive : a ≤ 0) : IsGreatestPower a 0

/-- The power whose exponent is the place of the highest bit is the greatest one. -/
theorem isGreatestPower_greatestPowerOfTwo (a : Int)
    : IsGreatestPower a (Arithmetic.greatestPowerOfTwo a) := by
  rw [Arithmetic.greatestPowerOfTwo]
  split
  · next positive =>
      obtain ⟨n, rfl⟩ := Int.eq_ofNat_of_zero_le positive.le
      have nonzero : n ≠ 0 := by omega
      have below : 2 ^ n.log2 ≤ n := Nat.log2_self_le nonzero
      have above : n < 2 ^ (n.log2 + 1) := Nat.lt_log2_self
      rw [powerOfTwo_eq, Int.toNat_natCast]
      refine .power positive (by exact_mod_cast below) ?_ fun other reached => ?_
      · rw [← pow_succ']
        exact_mod_cast above
      · have reached : 2 ^ other ≤ n := by exact_mod_cast reached
        exact pow_le_pow_right₀ one_le_two ((Nat.le_log2 nonzero).mpr reached)
  · next nonpositive => exact .none (not_lt.mp nonpositive)

namespace IsGreatestPower

variable {a b p q : Int}

theorem nonneg (h : IsGreatestPower a p)
    : 0 ≤ p := by
  cases h with
  | power => positivity
  | none => exact le_rfl

/-- The greatest power of two not above an integer grows with the integer. -/
theorem mono (h : IsGreatestPower a p) (h' : IsGreatestPower b q) (le : a ≤ b)
    : p ≤ q := by
  cases h with
  | none => exact h'.nonneg
  | power positive below =>
      cases h' with
      | power _ _ _ greatest => exact greatest _ (below.trans le)
      | none nonpositive => exact absurd (positive.trans_le le) nonpositive.not_gt

theorem eq (h : IsGreatestPower a p) (h' : IsGreatestPower a q)
    : p = q :=
  le_antisymm (h.mono h' le_rfl) (h'.mono h le_rfl)

/-- A power of two is the greatest one not above itself. -/
theorem self (h : IsGreatestPower a p)
    : IsGreatestPower p p := by
  cases h with
  | none => exact .none le_rfl
  | @power exponent =>
      have positive : (0 : Int) < 2 ^ exponent := by positivity
      exact .power positive le_rfl (by omega) fun other reached => reached

/-- A power of two that is not above a register fits into a register. -/
theorem isSigned (h : IsGreatestPower a p) (signed : IsSigned a)
    : IsSigned p := by
  have nonneg := h.nonneg
  cases h with
  | none => decide
  | power _ below =>
      simp only [IsSigned, signedMin, signedMax] at signed ⊢
      omega

end IsGreatestPower

-----------------------------------------------------------------------------------------
-- Words
-----------------------------------------------------------------------------------------

/-- A word that takes the greatest power of two not above one register and puts it into another one,
or into the same.
-/
structure IsPowerWord (source destination word : Int) : Prop where
  known : Operation.ofCode? (Fields.ofWord word).opcode = some .maxPowerOfTwo
  first : (Fields.ofWord word).operands.first = source
  third : (Fields.ofWord word).operands.third = destination

/-- Nothing is lost when the power is stored, since it fits into a register. -/
theorem IsPowerWord.step_assigns {source destination word a : Int} {machine : Machine}
    (h : IsPowerWord source destination word) (held : machine.registers.get source = .ok a)
    (contained : machine.registers.Contains destination) (signed : IsSigned a)
    : ∃ p,
        IsSigned p
        ∧ IsGreatestPower a p
        ∧ (machine.step word).Assigns machine destination p := by
  obtain ⟨known, rfl, rfl⟩ := h
  obtain ⟨reached, rfl⟩ := Registers.get_eq_ok_iff.mp held
  have power :=
    isGreatestPower_greatestPowerOfTwo
      (machine.registers.value (Fields.ofWord word).operands.first)
  have fits := power.isSigned signed
  have effect := Registers.wordEffect_of_yields known (.unary reached contained)
  have assigned := Machine.step_assigns effect
  rw [toSigned_eq_self fits] at assigned
  exact ⟨_, fits, power, assigned⟩

/-- The greatest power of two not above a register is what another register is given, or the same.
Nothing else happens to the machine. Taking the power of the register with the power gives that
power again, wherever it is put, and the power of a register that holds no less is no less.
-/
theorem IsPowerWord.stores_greatest_power {source destination word a : Int} {machine : Machine}
    (h : IsPowerWord source destination word) (held : machine.registers.get source = .ok a)
    (contained : machine.registers.Contains destination) (signed : IsSigned a)
    : ∃ p,
        IsSigned p
        ∧ IsGreatestPower a p
        ∧ (machine.step word).Assigns machine destination p
        ∧ (∀ destination' word' : Int,
            IsPowerWord destination destination' word'
            → machine.registers.Contains destination'
            → ((machine.step word).machine.step word').Assigns (machine.step word).machine
                destination' p)
        ∧ (∀ (other : Machine) (source' destination' word' b q : Int),
            IsPowerWord source' destination' word'
            → other.registers.get source' = .ok b
            → IsSigned b
            → a ≤ b
            → (other.step word').machine.registers.get destination' = .ok q
            → p ≤ q) := by
  obtain ⟨p, fits, power, assigned⟩ := h.step_assigns held contained signed
  refine ⟨p, fits, power, assigned, ?_, ?_⟩
  · intro destination' word' again contained'
    have kept : (machine.step word).machine.registers.Contains destination' := by
      rwa [Registers.Contains, assigned.size]
    obtain ⟨p', _, power', assigned'⟩ := again.step_assigns assigned.held kept fits
    rwa [power.self.eq power']
  · intro other source' destination' word' b q greater held' signed' le result
    have kept : other.registers.Contains destination' := by
      have reached := (Registers.get_eq_ok_iff.mp result).1
      rwa [Registers.Contains, other.size_step] at reached
    obtain ⟨q', _, power', assigned'⟩ := greater.step_assigns held' kept signed'
    rw [assigned'.held] at result
    obtain rfl := Except.ok.inj result
    exact power.mono power' le

/-- The greatest integer that a register can hold is one less than a power of two. The power below
it may take its place in the register, and stays there when the word is executed again.
-/
theorem IsPowerWord.stores_greatest_power_in_place
    : IsPowerWord 0 0 19
      ∧ (Machine.step ⟨⟨[2147483647]⟩, none⟩ 19).Assigns ⟨⟨[2147483647]⟩, none⟩ 0 1073741824
      ∧ ((Machine.step ⟨⟨[2147483647]⟩, none⟩ 19).machine.step 19).Assigns
          (Machine.step ⟨⟨[2147483647]⟩, none⟩ 19).machine 0 1073741824 := by
  have word : IsPowerWord 0 0 19 := ⟨by decide +kernel, by decide +kernel, by decide +kernel⟩
  have held : (⟨⟨[2147483647]⟩, none⟩ : Machine).registers.get 0 = .ok 2147483647 := rfl
  have contained : Registers.Contains ⟨[2147483647]⟩ 0 := by decide
  obtain ⟨p, _, power, assigned, again, _⟩ :=
    word.stores_greatest_power held contained (by decide)
  have value : Arithmetic.greatestPowerOfTwo 2147483647 = 1073741824 := by decide +kernel
  obtain rfl := (power.eq (isGreatestPower_greatestPowerOfTwo 2147483647)).trans value
  exact ⟨word, assigned, again 0 19 word contained⟩

end RegisterMachine
