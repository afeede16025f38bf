import RegisterMachine.Numeral
import RegisterMachine.Proofs.DecimalIntegers
import RegisterMachine.Proofs.SourceLines

/-! Numerals of any base as a grammar: a row of digits, perhaps a sign in front of it, and blanks
around both. Reading accepts exactly these texts whose value fits.
-/

namespace RegisterMachine

-----------------------------------------------------------------------------------------
-- Rows of digits
-----------------------------------------------------------------------------------------

namespace Digits

/-- A digit of a base: a decimal digit or a letter in either case. -/
def IsDigit (base : Nat) (c : Char) : Prop :=
  ∃ digit < base, value? c = some digit

def digitValue (c : Char) : Nat :=
  (value? c).getD 0

/-- Digits of a base, of which there is at least one. -/
def IsRow (base : Nat) (row : List Char) : Prop :=
  row ≠ [] ∧ ∀ c ∈ row, IsDigit base c

/-- The number that a row of digits stands for. -/
def rowValue (base : Nat) (row : List Char) : Nat :=
  Nat.ofDigits base (row.map digitValue).reverse

theorem filter_value?_eq_some_iff {base : Nat} {c : Char} {digit : Nat}
    : (value? c).filter (· < base) = some digit ↔ IsDigit base c ∧ digitValue c = digit := by
  simp only [Option.filter_eq_some_iff, decide_eq_true_eq, IsDigit, digitValue]
  constructor
  · intro h
    obtain ⟨found, below⟩ := h
    exact ⟨⟨digit, below, found⟩, by rw [found, Option.getD_some]⟩
  · intro h
    obtain ⟨⟨value, below, found⟩, same⟩ := h
    rw [found, Option.getD_some] at same
    exact ⟨same ▸ found, same ▸ below⟩

/-- Reading takes rows of digits and nothing else, by induction on the text. -/
theorem toNat?_eq_some_iff {base n : Nat} {text : List Char}
    : toNat? base text = some n
      ↔ (∀ c ∈ text, IsDigit base c) ∧ rowValue base text = n := by
  have hdigits (digits : List Nat)
      : (text.mapM fun c => (value? c).filter (· < base)) = some digits
        ↔ (∀ c ∈ text, IsDigit base c) ∧ text.map digitValue = digits := by
    induction text generalizing digits with
    | nil => simp
    | cons c text ih =>
        simp only [List.mapM_cons, Option.bind_eq_bind, Option.bind_eq_some_iff,
          filter_value?_eq_some_iff, ih, Option.pure_def, Option.some.injEq,
          List.forall_mem_cons, List.map_cons]
        constructor
        · intro h
          obtain ⟨_, ⟨here, rfl⟩, _, ⟨later, rfl⟩, rfl⟩ := h
          exact ⟨⟨here, later⟩, rfl⟩
        · intro h
          obtain ⟨⟨here, later⟩, rfl⟩ := h
          exact ⟨_, ⟨here, rfl⟩, _, ⟨later, rfl⟩, rfl⟩
  simp only [toNat?, Option.map_eq_some_iff, hdigits, combine_eq_ofDigits, rowValue]
  constructor
  · intro h
    obtain ⟨_, ⟨row, rfl⟩, value⟩ := h
    exact ⟨row, value⟩
  · intro h
    exact ⟨_, ⟨h.1, rfl⟩, h.2⟩

/-- The notation of a number is a row of digits with this value. -/
theorem isRow_ofNat {base : Nat} (hlow : 2 ≤ base) (hhigh : base ≤ 36) (n : Nat)
    : IsRow base (ofNat base n) ∧ rowValue base (ofNat base n) = n := by
  obtain ⟨digits, value⟩ := toNat?_eq_some_iff.mp (toNat?_ofNat hlow hhigh n)
  exact ⟨⟨ofNat_ne_nil base n, digits⟩, value⟩

end Digits

open Digits

-----------------------------------------------------------------------------------------
-- Letter case
-----------------------------------------------------------------------------------------

namespace Text

theorem toNat_lt_of_value? {c : Char} {digit : Nat} (h : value? c = some digit)
    : c.toNat < 123 := by
  simp only [value?, Bool.and_eq_true, decide_eq_true_eq] at h
  grind

/-- The lower-case form of a digit is the character that is written for its value. -/
theorem lowerChar_of_value? {c : Char} {digit : Nat} (h : value? c = some digit)
    : lowerChar c = char digit := by
  have table
      : ∀ n < 123, ∀ digit ∈ value? (Char.ofNat n),
          lowerChar (Char.ofNat n) = char digit := by decide +kernel
  have row := table c.toNat (toNat_lt_of_value? h) digit
  rw [Char.ofNat_toNat] at row
  exact row h

/-- Digits have lower-case forms of their own wherever they stand, by induction on the text. -/
theorem lowerAfter_of_digits {text : List Char} (digits : ∀ c ∈ text, (value? c).isSome)
    (before : List Char)
    : lowerAfter before text = text.map fun c => char (digitValue c) := by
  induction text generalizing before with
  | nil => rfl
  | cons c text ih =>
      obtain ⟨here, later⟩ := List.forall_mem_cons.mp digits
      obtain ⟨digit, value⟩ := Option.isSome_iff_exists.mp here
      have low := toNat_lt_of_value? value
      have sigma : c ≠ '\u03a3' := by
        rintro rfl
        exact absurd low (by decide)
      have dotted : c ≠ '\u0130' := by
        rintro rfl
        exact absurd low (by decide)
      rw [lowerAfter, lowerBetween, if_neg sigma, if_neg dotted, ih later,
        lowerChar_of_value? value, List.map_cons, digitValue, value]
      rfl

theorem lowercase_of_digits {base : Nat} {row : List Char} (digits : ∀ c ∈ row, IsDigit base c)
    : lowercase row = row.map fun c => char (digitValue c) := by
  refine lowerAfter_of_digits (fun c member => ?_) []
  obtain ⟨digit, _, value⟩ := digits c member
  rw [value]
  rfl

end Text

theorem digitValue_lt {base : Nat} {c : Char} (h : IsDigit base c)
    : digitValue c < base := by
  obtain ⟨digit, below, value⟩ := h
  rwa [digitValue, value]

/-- The check in lower case refuses no digit, so that a row of digits is read or too long. -/
theorem readDigits_of_isDigit {base : Nat} {row : List Char} (digits : ∀ c ∈ row, IsDigit base c)
    : readDigits base row
      = if Overlong base row then
          .error (.unconverted (.reading row.length))
        else
          .ok (rowValue base row) := by
  have accepted : (Text.lowercase row).find? (fun c => !isLowerDigit base c) = none := by
    rw [List.find?_eq_none, Text.lowercase_of_digits digits]
    intro c member
    obtain ⟨digit, inside, rfl⟩ := List.mem_map.mp member
    have listed : char (digitValue digit) ∈ (List.range base).map char :=
      List.mem_map_of_mem (List.mem_range.mpr (digitValue_lt (digits digit inside)))
    simp [isLowerDigit, listed]
  simp only [readDigits, accepted, toNat?_eq_some_iff.mpr ⟨digits, rfl⟩]

theorem readDigits_eq_ok_iff {base n : Nat} {text : List Char}
    : readDigits base text = .ok n
      ↔ (∀ c ∈ text, IsDigit base c) ∧ ¬ Overlong base text ∧ rowValue base text = n := by
  constructor
  · intro h
    have digits : ∀ c ∈ text, IsDigit base c := by
      cases read : toNat? base text with
      | some n => exact (toNat?_eq_some_iff.mp read).1
      | none =>
          rw [readDigits, read] at h
          split at h <;> cases h
    rw [readDigits_of_isDigit digits] at h
    split at h
    · cases h
    · next short => exact ⟨digits, short, Except.ok.inj h⟩
  · intro h
    obtain ⟨digits, short, rfl⟩ := h
    rw [readDigits_of_isDigit digits, if_neg short]

-----------------------------------------------------------------------------------------
-- Signs
-----------------------------------------------------------------------------------------

/-- A row of digits, with a sign or without: whether it is negative, and the row itself. -/
inductive IsSignedRow (base : Nat) : (text : List Char) → Bool → (row : List Char) → Prop
  | bare {row} (digits : IsRow base row) : IsSignedRow base row false row
  | plus {row} (digits : IsRow base row) : IsSignedRow base ('+' :: row) false row
  | minus {row} (digits : IsRow base row) : IsSignedRow base ('-' :: row) true row

theorem IsSignedRow.digits {base : Nat} {text row : List Char} {negative : Bool}
    (h : IsSignedRow base text negative row)
    : IsRow base row := by
  cases h <;> assumption

/-- No sign is a digit. -/
theorem not_isDigit_sign {base : Nat} {c : Char} (h : c = '-' ∨ c = '+')
    : ¬ IsDigit base c := by
  rintro ⟨digit, _, value⟩
  rcases h with rfl | rfl <;> cases value

/-- A text is split into its sign and its digits exactly if it consists of them. -/
theorem isSignedRow_iff {base : Nat} {text row : List Char} {negative : Bool}
    : IsSignedRow base text negative row
      ↔ splitSign text = (negative, row) ∧ IsRow base row := by
  constructor
  · intro h
    cases h with
    | plus digits | minus digits => exact ⟨rfl, digits⟩
    | bare digits =>
        refine ⟨?_, digits⟩
        unfold splitSign
        split
        · exact (not_isDigit_sign (Or.inl rfl) (digits.2 '-' List.mem_cons_self)).elim
        · exact (not_isDigit_sign (Or.inr rfl) (digits.2 '+' List.mem_cons_self)).elim
        · rfl
  · intro h
    obtain ⟨split, digits⟩ := h
    unfold splitSign at split
    split at split
    · obtain ⟨rfl, rfl⟩ := Prod.mk.inj split
      exact .minus digits
    · obtain ⟨rfl, rfl⟩ := Prod.mk.inj split
      exact .plus digits
    · obtain ⟨rfl, rfl⟩ := Prod.mk.inj split
      exact .bare digits

-----------------------------------------------------------------------------------------
-- Values
-----------------------------------------------------------------------------------------

/-- The value of a magnitude with a sign, where it has one. Decimal numerals are signed. In any
other base a magnitude without a minus sign is a pattern of 32 bits.
-/
inductive HasValue (base : Nat) : (negative : Bool) → (magnitude : Nat) → Int → Prop
  | decimal {negative : Bool} {magnitude : Nat} (ten : base = 10)
    (fits : IsSigned (if negative then -magnitude else magnitude))
    : HasValue base negative magnitude (if negative then -magnitude else magnitude)
  | pattern {magnitude : Nat} (other : base ≠ 10) (fits : (magnitude : Int) ≤ unsignedMax)
    : HasValue base false magnitude (toSigned magnitude)
  | negative {magnitude : Nat} (other : base ≠ 10) (fits : signedMin ≤ -(magnitude : Int))
    : HasValue base true magnitude (-magnitude)

theorem fitMagnitude_true (base magnitude : Nat)
    : fitMagnitude base true magnitude
      = if IsSigned (-(magnitude : Int)) then
          .ok (-magnitude)
        else
          .error (.outOfRange (-magnitude)) := by
  simp [fitMagnitude]

theorem fitMagnitude_false (base magnitude : Nat)
    : fitMagnitude base false magnitude
      = if base ≠ 10 ∧ (magnitude : Int) ≤ unsignedMax then
          .ok (toSigned magnitude)
        else if IsSigned (magnitude : Int) then
          .ok magnitude
        else
          .error (.outOfRange magnitude) := by
  simp [fitMagnitude]

/-- A magnitude fits exactly if it has a value, by cases on the sign. -/
theorem fitMagnitude_eq_ok_iff {base magnitude : Nat} {negative : Bool} {value : Int}
    : fitMagnitude base negative magnitude = .ok value
      ↔ HasValue base negative magnitude value := by
  constructor
  · intro h
    cases negative with
    | true =>
        rw [fitMagnitude_true] at h
        split at h
        · next fits =>
            obtain rfl := Except.ok.inj h
            by_cases ten : base = 10
            · exact .decimal ten fits
            · exact .negative ten fits.1
        · cases h
    | false =>
        rw [fitMagnitude_false] at h
        split at h
        · next pattern =>
            obtain rfl := Except.ok.inj h
            exact .pattern pattern.1 pattern.2
        · next noPattern =>
            split at h
            · next fits =>
                obtain rfl := Except.ok.inj h
                by_cases ten : base = 10
                · exact .decimal ten fits
                · -- A number that is too large for a pattern is no signed value either.
                  have small : (magnitude : Int) ≤ unsignedMax := Int.le_trans fits.2 (by decide)
                  exact (noPattern ⟨ten, small⟩).elim
            · cases h
  · intro h
    cases h with
    | @decimal negative magnitude ten fits =>
        cases negative with
        | true => exact (fitMagnitude_true base magnitude).trans (if_pos fits)
        | false =>
            rw [fitMagnitude_false, if_neg fun pattern => pattern.1 ten]
            exact if_pos fits
    | pattern other fits => rw [fitMagnitude_false, if_pos ⟨other, fits⟩]
    | negative other fits =>
        rw [fitMagnitude_true, if_pos ⟨fits, by simp only [signedMax]; omega⟩]

/-- The value that a numeral has is one that a register can hold. -/
theorem HasValue.isSigned {base magnitude : Nat} {negative : Bool} {value : Int}
    (h : HasValue base negative magnitude value)
    : IsSigned value := by
  cases h with
  | decimal _ fits => exact fits
  | pattern => exact isSigned_toSigned _
  | negative _ fits => exact ⟨fits, by simp only [signedMax]; omega⟩

/-- A text of the grammar is read from the digits of its row. -/
theorem readNumeral_of_isSignedRow {text : String} {base : Int} (valid : IsBase base)
    {core row : List Char} {negative : Bool} (found : Text.HasCore text.toList core)
    (signed : IsSignedRow base.toNat core negative row)
    : readNumeral text base
      = if Overlong base.toNat row then
          .error (.unconverted (.reading row.length))
        else
          fitMagnitude base.toNat negative (rowValue base.toNat row) := by
  obtain ⟨sign, nonempty, digits⟩ := isSignedRow_iff.mp signed
  have some : core ≠ [] := by
    rintro rfl
    exact nonempty (Prod.mk.inj sign).2.symm
  rw [readNumeral, if_pos valid, ← Text.hasCore_iff.mp found, readTrimmed, if_neg some, sign]
  simp only [if_neg nonempty, readDigits_of_isDigit digits]
  by_cases long : Overlong base.toNat row
  · simp only [if_pos long]
  · simp only [if_neg long]

/-- Reading accepts exactly the texts of the grammar that are not too long and whose value fits, and
gives this value.
-/
theorem readNumeral_eq_ok_iff {text : String} {base value : Int} (valid : IsBase base)
    : readNumeral text base = .ok value
      ↔ ∃ core negative row,
          Text.HasCore text.toList core
          ∧ IsSignedRow base.toNat core negative row
          ∧ ¬ Overlong base.toNat row
          ∧ HasValue base.toNat negative (rowValue base.toNat row) value := by
  constructor
  · intro h
    have read := h
    rw [readNumeral, if_pos valid, readTrimmed] at read
    generalize trimmed : Text.trim Text.isBlank text.toList = core at read
    have found : Text.HasCore text.toList core := Text.hasCore_iff.mpr trimmed.symm
    split at read
    · cases read
    · cases sign : splitSign core with
      | mk negative row =>
          simp only [sign] at read
          split at read
          · cases read
          · next nonempty =>
              cases number : readDigits base.toNat row with
              | error error =>
                  rw [number] at read
                  cases read
              | ok magnitude =>
                  obtain ⟨digits, short, rfl⟩ := readDigits_eq_ok_iff.mp number
                  rw [number] at read
                  exact ⟨core, negative, row, found, isSignedRow_iff.mpr ⟨sign, nonempty, digits⟩,
                    short, fitMagnitude_eq_ok_iff.mp read⟩
  · intro h
    obtain ⟨core, negative, row, found, signed, short, fits⟩ := h
    rw [readNumeral_of_isSignedRow valid found signed, if_neg short]
    exact fitMagnitude_eq_ok_iff.mpr fits

end RegisterMachine
