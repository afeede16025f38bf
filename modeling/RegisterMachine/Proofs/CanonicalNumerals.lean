import RegisterMachine.Proofs.BitPatterns
import RegisterMachine.Proofs.NumeralGrammar
import RegisterMachine.Proofs.OutputTexts

/-! Printing and reading numerals undo each other.
What is printed is read back as the same pattern, and what is read is printed in its canonical form:
digits in lower case without zeros in front.
-/

namespace RegisterMachine

open Digits

-----------------------------------------------------------------------------------------
-- Canonical rows
-----------------------------------------------------------------------------------------

/-- A row of digits without zeros in front; of zeros alone one is left. -/
def dropZeros (row : List Char) : List Char :=
  match row.dropWhile (· = '0') with
  | [] => ['0']
  | rest => rest

/-- The canonical form of a row of digits: in lower case, without zeros in front. -/
def canonicalRow (row : List Char) : List Char :=
  dropZeros (Text.lowercase row)

namespace Digits

theorem rowValue_concat (base : Nat) (row : List Char) (c : Char)
    : rowValue base (row ++ [c]) = rowValue base row * base + digitValue c := by
  rw [rowValue, List.map_append, List.map_singleton, List.reverse_append, List.reverse_singleton,
    List.singleton_append, Nat.ofDigits_cons, rowValue, Nat.mul_comm, Nat.add_comm]

theorem ofNat_digit {base digit : Nat} (below : digit < base)
    : ofNat base digit = [char digit] := by
  rw [ofNat, if_pos (Or.inl below)]

/-- One more digit behind a number that is not zero is written behind its notation. -/
theorem ofNat_concat {base n digit : Nat} (hlow : 2 ≤ base) (nonzero : n ≠ 0)
    (below : digit < base)
    : ofNat base (n * base + digit) = ofNat base n ++ [char digit] := by
  have large : base ≤ n * base := Nat.le_mul_of_pos_left base (Nat.pos_of_ne_zero nonzero)
  have quotient : (n * base + digit) / base = n := by
    rw [Nat.mul_comm, Nat.mul_add_div (by omega), Nat.div_eq_of_lt below, Nat.add_zero]
  have remainder : (n * base + digit) % base = digit := by
    rw [Nat.mul_comm, Nat.mul_add_mod, Nat.mod_eq_of_lt below]
  rw [ofNat, if_neg (by omega), quotient, remainder]

/-- A row of digits is written without zeros in front once it has been read, by induction from the
last digit. The row may be empty, which counts as zero.
-/
theorem ofNat_rowValue {base : Nat} (hlow : 2 ≤ base) (hhigh : base ≤ 36) {row : List Char}
    (digits : ∀ c ∈ row, IsDigit base c)
    : ofNat base (rowValue base row) = dropZeros (row.map fun c => char (digitValue c)) := by
  induction row using List.reverseRecOn with
  | nil =>
      show ofNat base 0 = ['0']
      exact ofNat_digit (by omega)
  | append_singleton row c ih =>
      have below : digitValue c < base := digitValue_lt (digits c (by simp))
      have ih := ih fun d member => digits d (List.mem_append_left _ member)
      rw [rowValue_concat, List.map_append, List.map_singleton, dropZeros, List.dropWhile_append]
      rw [dropZeros] at ih
      cases kept : (row.map fun c => char (digitValue c)).dropWhile (· = '0') with
      | nil =>
          -- All digits so far are zero, so that the last one is all there is.
          rw [kept] at ih
          have zero : rowValue base row = 0 := by
            have read := toNat?_ofNat hlow hhigh (rowValue base row)
            have zero := toNat?_ofNat hlow hhigh 0
            rw [ofNat_digit (by omega)] at zero
            rw [ih] at read
            exact Option.some.inj (read.symm.trans zero)
          rw [zero, Nat.zero_mul, Nat.zero_add, ofNat_digit below]
          by_cases last : char (digitValue c) = '0' <;> simp [last]
      | cons first rest =>
          rw [kept] at ih
          have leading : first ≠ '0' := by
            have head := List.head?_dropWhile_not (· = '0') (row.map fun c => char (digitValue c))
            simpa [kept] using head
          have nonzero : rowValue base row ≠ 0 := by
            intro zero
            rw [zero, ofNat_digit (by omega)] at ih
            exact leading (List.cons.inj ih).1.symm
          rw [ofNat_concat hlow nonzero below, ih]
          rfl

theorem ofNat_rowValue_eq_canonicalRow {base : Nat} (hlow : 2 ≤ base) (hhigh : base ≤ 36)
    {row : List Char} (digits : IsRow base row)
    : ofNat base (rowValue base row) = canonicalRow row := by
  rw [ofNat_rowValue hlow hhigh digits.2, canonicalRow, Text.lowercase_of_digits digits.2]

end Digits

-----------------------------------------------------------------------------------------
-- Numerals
-----------------------------------------------------------------------------------------

section
variable {base : Int}

theorem printNumeral_eq (valid : IsBase base) (value : Int)
    : printNumeral value base = .ok (numeral base.toNat value) := by
  rw [printNumeral, if_pos valid]

theorem IsBase.bounds (valid : IsBase base)
    : 2 ≤ base.toNat ∧ base.toNat ≤ 36 := by
  obtain ⟨low, high⟩ := valid
  simp only [minBase, maxBase] at low high
  omega

/-- A number of 32 bits has few digits in any base. -/
theorem not_overlong_ofNat {base n : Nat} (hlow : 2 ≤ base) (below : n < 2 ^ 32)
    : ¬ Overlong base (ofNat base n) := by
  rintro ⟨-, long⟩
  have bound : n < base ^ 32 := below.trans_le (Nat.pow_le_pow_left hlow 32)
  have short := length_ofNat_le (by decide : 0 < 32) bound
  simp only [limit] at long
  omega

/-- The decimal notation of an integer is a row of digits, with a minus sign if it is negative. -/
theorem exists_isSignedRow_decimal (value : Int)
    : ∃ negative,
        IsSignedRow 10 (decimal value).toList negative (ofNat 10 value.natAbs)
        ∧ (if negative then -(rowValue 10 (ofNat 10 value.natAbs) : Int)
            else rowValue 10 (ofNat 10 value.natAbs))
          = value := by
  obtain ⟨digits, magnitude⟩ := @isRow_ofNat 10 (by decide) (by decide) value.natAbs
  by_cases negative : value < 0
  · refine ⟨true, ?_, ?_⟩
    · rw [decimal, String.toList_ofList, if_pos negative]
      exact .minus digits
    · rw [if_pos rfl, magnitude]
      omega
  · refine ⟨false, ?_, ?_⟩
    · rw [decimal, String.toList_ofList, if_neg negative]
      exact .bare digits
    · rw [if_neg Bool.false_ne_true, magnitude]
      omega

/-- A numeral is a text of the grammar whose value is the signed view. -/
theorem exists_isSignedRow_numeral (valid : IsBase base) (value : Int)
    : ∃ negative row,
        IsSignedRow base.toNat (numeral base.toNat value).toList negative row
        ∧ ¬ Overlong base.toNat row
        ∧ HasValue base.toNat negative (rowValue base.toNat row) (toSigned value) := by
  obtain ⟨hlow, hhigh⟩ := valid.bounds
  by_cases ten : base.toNat = 10
  · have fits := isSigned_toSigned value
    obtain ⟨negative, signed, same⟩ := exists_isSignedRow_decimal (toSigned value)
    refine ⟨negative, ofNat 10 (toSigned value).natAbs, ?_, ?_, ?_⟩
    · rwa [numeral, if_pos ten, ten]
    · rw [ten]
      refine not_overlong_ofNat (by decide) ?_
      simp only [IsSigned, signedMin, signedMax] at fits
      omega
    · have fits := same ▸ @HasValue.decimal 10 negative _ rfl (same ▸ fits)
      rwa [ten]
  · obtain ⟨digits, magnitude⟩ := isRow_ofNat hlow hhigh (toUnsigned value).toNat
    have view : ((toUnsigned value).toNat : Int) = toUnsigned value :=
      Int.toNat_of_nonneg (toUnsigned_nonneg value)
    have fits := toUnsigned_lt value
    simp only [patternCount] at fits
    refine ⟨false, ofNat base.toNat (toUnsigned value).toNat, ?_, ?_, ?_⟩
    · rw [numeral, if_neg ten, String.toList_ofList]
      exact .bare digits
    · exact not_overlong_ofNat hlow (by omega)
    · have same : toSigned value = toSigned (toUnsigned value) := by
        simp [toSigned_eq_toSigned_iff, toUnsigned]
      rw [magnitude, same, ← view]
      refine .pattern ten ?_
      simp only [unsignedMax]
      omega

/-- A numeral holds no blanks. -/
theorem hasCore_numeral (valid : IsBase base) (value : Int)
    : Text.HasCore (numeral base.toNat value).toList (numeral base.toNat value).toList := by
  obtain ⟨hlow, hhigh⟩ := valid.bounds
  have visible : ∀ digit < 36, Digits.char digit ∉ Text.blanks := by decide
  have inside : ∀ c ∈ (numeral base.toNat value).toList, c ∉ Text.blanks := by
    intro c member
    rcases isNumeralChar_numeral hlow hhigh member with rfl | ⟨digit, below, rfl⟩
    · decide
    · exact visible digit below
  exact ⟨⟨[], [], by simp, List.forall_mem_nil _, List.forall_mem_nil _⟩,
    fun c first => inside c (List.mem_of_mem_head? first),
    fun c last => inside c (List.mem_of_mem_getLast? last)⟩

/-- What is printed for an integer is read as its signed view. -/
theorem readNumeral_numeral (valid : IsBase base) (value : Int)
    : readNumeral (numeral base.toNat value) base = .ok (toSigned value) := by
  obtain ⟨negative, row, signed, short, fits⟩ := exists_isSignedRow_numeral valid value
  exact (readNumeral_eq_ok_iff valid).mpr
    ⟨_, negative, row, hasCore_numeral valid value, signed, short, fits⟩

/-- Integers are printed alike exactly if they have the same low 32 bits. -/
theorem numeral_eq_numeral_iff (valid : IsBase base) {first second : Int}
    : numeral base.toNat first = numeral base.toNat second ↔ SameView first second := by
  constructor
  · intro same
    have read := readNumeral_numeral valid first
    rw [same, readNumeral_numeral valid second] at read
    exact (toSigned_eq_toSigned_iff.mp (Except.ok.inj read)).symm
  · intro same
    simp only [numeral, toSigned_eq_toSigned_iff.mpr same, show toUnsigned first = _ from same]

end

-----------------------------------------------------------------------------------------
-- Canonical forms
-----------------------------------------------------------------------------------------

/-- The digits of a text in a base: what is left without the blanks around them and a sign. -/
def HasRow (base : Nat) (text : String) (row : List Char) : Prop :=
  ∃ core negative, Text.HasCore text.toList core ∧ IsSignedRow base core negative row

theorem HasRow.unique {base : Nat} {text : String} {row row' : List Char}
    (h : HasRow base text row) (h' : HasRow base text row')
    : row = row' := by
  obtain ⟨core, negative, found, signed⟩ := h
  obtain ⟨core', negative', found', signed'⟩ := h'
  obtain rfl : core = core' := (Text.hasCore_iff.mp found).trans (Text.hasCore_iff.mp found').symm
  have same := (isSignedRow_iff.mp signed).1.symm.trans (isSignedRow_iff.mp signed').1
  exact (Prod.mk.inj same).2

/-- The canonical form of a text that is read as a value: its canonical row, behind a minus sign if
it is a negative decimal numeral.
-/
inductive CanonicalForm (base : Int) (text : String) (value : Int) : String → Prop
  | unsigned {row} (digits : HasRow base.toNat text row) (plain : '-' ∉ text.toList)
    : CanonicalForm base text value (String.ofList (canonicalRow row))
  | negative {row} (ten : base = 10) (digits : HasRow base.toNat text row)
    (minus : '-' ∈ text.toList) (nonzero : value ≠ 0)
    : CanonicalForm base text value (String.ofList ('-' :: canonicalRow row))
  | zero (ten : base = 10) (minus : '-' ∈ text.toList) (zero : value = 0)
    : CanonicalForm base text value "0"

/-- A minus sign stands in a numeral exactly if it is its sign, because neither blanks nor digits
are minus signs.
-/
theorem minus_mem_iff {base : Nat} {text core row : List Char} {negative : Bool}
    (found : Text.HasCore text core) (signed : IsSignedRow base core negative row)
    : '-' ∈ text ↔ negative = true := by
  obtain ⟨⟨before, after, rfl, blank, blank'⟩, _, _⟩ := found
  have outside : '-' ∉ before ∧ '-' ∉ after :=
    ⟨fun member => absurd (blank _ member) (by decide),
      fun member => absurd (blank' _ member) (by decide)⟩
  have inside : '-' ∉ row := fun member =>
    not_isDigit_sign (Or.inl rfl) (signed.digits.2 _ member)
  simp only [List.mem_append, outside.1, outside.2, false_or, or_false]
  cases signed <;> simp [inside]

/-- A value without a minus sign is printed as the notation of its magnitude. -/
theorem HasValue.numeral_eq_of_unsigned {base magnitude : Nat} {value : Int}
    (h : HasValue base false magnitude value)
    : numeral base value = String.ofList (ofNat base magnitude) := by
  cases h with
  | decimal ten fits =>
      subst ten
      rw [if_neg Bool.false_ne_true] at fits ⊢
      have nonneg : ¬ (magnitude : Int) < 0 := by omega
      rw [numeral, if_pos rfl, toSigned_eq_self fits, RegisterMachine.decimal, if_neg nonneg,
        Int.natAbs_natCast]
  | pattern other fits =>
      have view : toUnsigned (magnitude : Int) = magnitude := by
        simp only [toUnsigned, patternCount, unsignedMax] at fits ⊢
        omega
      rw [numeral, if_neg other, toUnsigned_toSigned, view, Int.toNat_natCast]

/-- A decimal value with a minus sign is printed as the notation of its magnitude with a minus sign,
unless it is zero.
-/
theorem HasValue.numeral_eq_of_negative {magnitude : Nat} {value : Int}
    (h : HasValue 10 true magnitude value)
    : numeral 10 value
      = if value = 0 then "0" else String.ofList ('-' :: ofNat 10 magnitude) := by
  have kept := toSigned_eq_self h.isSigned
  obtain rfl : value = -(magnitude : Int) := by cases h <;> rfl
  rw [numeral, if_pos rfl, kept, RegisterMachine.decimal]
  by_cases zero : magnitude = 0
  · subst zero
    rw [Nat.cast_zero, neg_zero, if_pos rfl, if_neg (by decide), Int.natAbs_zero,
      ofNat_digit (by decide)]
    rfl
  · rw [if_pos (by omega), if_neg (by omega), Int.natAbs_neg, Int.natAbs_natCast]

/-- A text that is read as a value is printed in its canonical form. -/
theorem exists_canonicalForm {base value : Int} (valid : IsBase base) {text : String}
    (read : readNumeral text base = .ok value) (covered : base = 10 ∨ '-' ∉ text.toList)
    : ∃ form, CanonicalForm base text value form ∧ numeral base.toNat value = form := by
  obtain ⟨hlow, hhigh⟩ := valid.bounds
  obtain ⟨core, negative, row, found, signed, -, fits⟩ := (readNumeral_eq_ok_iff valid).mp read
  have digits : HasRow base.toNat text row := ⟨core, negative, found, signed⟩
  have minus := minus_mem_iff found signed
  have canonical := ofNat_rowValue_eq_canonicalRow hlow hhigh signed.digits
  cases negative with
  | false =>
      have plain : '-' ∉ text.toList := by simp [minus]
      exact ⟨_, .unsigned digits plain, by rw [fits.numeral_eq_of_unsigned, canonical]⟩
  | true =>
      have minus : '-' ∈ text.toList := minus.mpr rfl
      obtain rfl := covered.resolve_right fun plain => plain minus
      have printed := fits.numeral_eq_of_negative
      by_cases zero : value = 0
      · exact ⟨_, .zero rfl minus zero, printed.trans (if_pos zero)⟩
      · refine ⟨_, .negative rfl digits minus zero, ?_⟩
        rw [← canonical]
        exact printed.trans (if_neg zero)

end RegisterMachine
