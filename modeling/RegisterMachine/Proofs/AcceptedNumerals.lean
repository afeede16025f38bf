import RegisterMachine.Proofs.EchoedAnswers

/-! The texts that are accepted as numerals, character by character.
A numeral is made of ASCII digits and letters with at most one sign in front and blanks around it.
Its value is one that a register holds as it is.
-/

namespace RegisterMachine

open Digits

-----------------------------------------------------------------------------------------
-- Characters of digits
-----------------------------------------------------------------------------------------

/-- The values of ASCII digits and letters; a letter has the same value in either case. -/
inductive HasDigitValue (c : Char) (n : Nat) : Prop
  | digit (row : c.isDigit = true) (value : c.toNat = '0'.toNat + n)
  | small (row : c.isLower = true) (value : c.toNat + 10 = 'a'.toNat + n)
  | capital (row : c.isUpper = true) (value : c.toNat + 10 = 'A'.toNat + n)

theorem HasDigitValue.isAlphanum {c : Char} {n : Nat} (h : HasDigitValue c n)
    : c.isAlphanum = true := by
  cases h with
  | digit row | small row | capital row => simp [Char.isAlphanum, Char.isAlpha, row]

theorem isDigit_iff (c : Char)
    : c.isDigit = true ↔ 48 ≤ c.toNat ∧ c.toNat ≤ 57 := by
  simp [Char.isDigit, UInt32.le_iff_toNat_le]

theorem isLower_iff (c : Char)
    : c.isLower = true ↔ 97 ≤ c.toNat ∧ c.toNat ≤ 122 := by
  simp [Char.isLower, UInt32.le_iff_toNat_le]

theorem isUpper_iff (c : Char)
    : c.isUpper = true ↔ 65 ≤ c.toNat ∧ c.toNat ≤ 90 := by
  simp [Char.isUpper, UInt32.le_iff_toNat_le]

/-- The values that are read for characters are these, by the rows of characters. -/
theorem value?_eq_some_iff {c : Char} {n : Nat}
    : value? c = some n ↔ HasDigitValue c n := by
  simp only [value?, Bool.and_eq_true, decide_eq_true_eq, ← isDigit_iff, ← isLower_iff,
    ← isUpper_iff]
  constructor
  · intro h
    split at h
    · next row =>
        obtain rfl := Option.some.inj h
        have bounds := (isDigit_iff c).mp row
        exact .digit row (Nat.add_sub_cancel' bounds.1).symm
    · split at h
      · next row =>
          obtain rfl := Option.some.inj h
          have bounds := (isLower_iff c).mp row
          exact .small row (by simp only [Char.reduceToNat]; omega)
      · split at h
        · next row =>
            obtain rfl := Option.some.inj h
            have bounds := (isUpper_iff c).mp row
            exact .capital row (by simp only [Char.reduceToNat]; omega)
        · cases h
  · intro h
    cases h with
    | digit row value =>
        rw [if_pos row, value]
        exact congrArg some (Nat.add_sub_cancel_left _ _)
    | small row value =>
        have bounds := (isLower_iff c).mp row
        have other : ¬ c.isDigit = true := by rw [isDigit_iff]; omega
        simp only [Char.reduceToNat] at value
        rw [if_neg other, if_pos row, Option.some.injEq]
        omega
    | capital row value =>
        have bounds := (isUpper_iff c).mp row
        have other : ¬ c.isDigit = true := by rw [isDigit_iff]; omega
        have other' : ¬ c.isLower = true := by rw [isLower_iff]; omega
        simp only [Char.reduceToNat] at value
        rw [if_neg other, if_neg other', if_pos row, Option.some.injEq]
        omega

-----------------------------------------------------------------------------------------
-- Numerals
-----------------------------------------------------------------------------------------

/-- A numeral of a base: blanks around a sign, if there is one, and digits, of which there is at
least one and all are below the base.
-/
structure IsNumeral (base : Nat) (text : String) (sign : List Char) (digits : List Nat) : Prop where
  signs : sign = [] ∨ sign = ['+'] ∨ sign = ['-']
  row : ∃ row, Text.HasCore text.toList (sign ++ row) ∧ List.Forall₂ HasDigitValue row digits
  nonempty : digits ≠ []
  below : ∀ digit ∈ digits, digit < base

theorem hasDigitValue_below_iff {base n : Nat} {c : Char}
    : HasDigitValue c n ∧ n < base ↔ IsDigit base c ∧ digitValue c = n := by
  rw [← filter_value?_eq_some_iff, Option.filter_eq_some_iff, value?_eq_some_iff,
    decide_eq_true_eq]

/-- A row with values below a base is a row of digits of the base, by induction on the row. -/
theorem forall₂_hasDigitValue_iff {base : Nat} {row : List Char} {digits : List Nat}
    : List.Forall₂ HasDigitValue row digits ∧ (∀ digit ∈ digits, digit < base)
      ↔ (∀ c ∈ row, IsDigit base c) ∧ row.map digitValue = digits := by
  induction row generalizing digits with
  | nil =>
      rw [List.forall₂_nil_left_iff]
      constructor
      · rintro ⟨rfl, _⟩
        exact ⟨List.forall_mem_nil _, rfl⟩
      · rintro ⟨_, rfl⟩
        exact ⟨rfl, List.forall_mem_nil _⟩
  | cons c row ih =>
      rw [List.forall_mem_cons, List.map_cons]
      constructor
      · rintro ⟨matched, below⟩
        cases matched with
        | cons here later =>
            obtain ⟨first, rest⟩ := List.forall_mem_cons.mp below
            obtain ⟨digit, rfl⟩ := hasDigitValue_below_iff.mp ⟨here, first⟩
            obtain ⟨digits, rfl⟩ := ih.mp ⟨later, rest⟩
            exact ⟨⟨digit, digits⟩, rfl⟩
      · rintro ⟨⟨digit, digits⟩, rfl⟩
        obtain ⟨here, first⟩ := hasDigitValue_below_iff.mpr ⟨digit, rfl⟩
        obtain ⟨later, rest⟩ := ih.mpr ⟨digits, rfl⟩
        exact ⟨.cons here later, List.forall_mem_cons.mpr ⟨first, rest⟩⟩

/-- In a base that is a power of two, rows of any length are read. In any other base they may have
up to 4300 digits, and zeros in front count.
-/
def HasRoom (base count : Nat) : Prop :=
  base.isPowerOfTwo ∨ count ≤ 4300

theorem not_overlong_iff {base : Nat} (positive : base ≠ 0) {row : List Char}
    : ¬ Overlong base row ↔ HasRoom base row.length := by
  rw [Overlong, HasRoom, not_and_or, not_not, Nat.not_lt,
    Nat.and_sub_one_eq_zero_iff_isPowerOfTwo positive]

/-- Reading accepts exactly the numerals that have a value, by the signs. -/
theorem readNumeral_eq_ok_iff_isNumeral {text : String} {base value : Int} (valid : IsBase base)
    : readNumeral text base = .ok value
      ↔ ∃ sign digits,
          IsNumeral base.toNat text sign digits
          ∧ HasRoom base.toNat digits.length
          ∧ HasValue base.toNat (sign = ['-']) (Nat.ofDigits base.toNat digits.reverse) value := by
  have positive : base.toNat ≠ 0 := by
    have bounds := valid.bounds
    omega
  rw [readNumeral_eq_ok_iff valid]
  constructor
  · intro h
    obtain ⟨core, negative, row, found, signed, short, fits⟩ := h
    obtain ⟨nonempty, digits⟩ := signed.digits
    obtain ⟨matched, below⟩ := forall₂_hasDigitValue_iff.mpr ⟨digits, rfl⟩
    have some : row.map digitValue ≠ [] := mt List.map_eq_nil_iff.mp nonempty
    have room : HasRoom base.toNat (row.map digitValue).length := by
      rw [List.length_map]
      exact (not_overlong_iff positive).mp short
    cases signed with
    | bare => exact ⟨[], _, ⟨.inl rfl, ⟨_, found, matched⟩, some, below⟩, room, fits⟩
    | plus => exact ⟨['+'], _, ⟨.inr (.inl rfl), ⟨_, found, matched⟩, some, below⟩, room, fits⟩
    | minus => exact ⟨['-'], _, ⟨.inr (.inr rfl), ⟨_, found, matched⟩, some, below⟩, room, fits⟩
  · intro h
    obtain ⟨sign, digits, ⟨signs, ⟨row, found, matched⟩, nonempty, below⟩, room, fits⟩ := h
    obtain ⟨isDigit, rfl⟩ := forall₂_hasDigitValue_iff.mp ⟨matched, below⟩
    have isRow : IsRow base.toNat row := ⟨mt List.map_eq_nil_iff.mpr nonempty, isDigit⟩
    have short : ¬ Overlong base.toNat row := by
      rw [not_overlong_iff positive]
      rwa [List.length_map] at room
    rcases signs with rfl | rfl | rfl
    · exact ⟨_, false, row, found, .bare isRow, short, fits⟩
    · exact ⟨_, false, row, found, .plus isRow, short, fits⟩
    · exact ⟨_, true, row, found, .minus isRow, short, fits⟩

-----------------------------------------------------------------------------------------
-- Characters of numerals
-----------------------------------------------------------------------------------------

/-- What a numeral looks like to someone who looks for signs of other notations in it: there is no
letter beyond ASCII, no digit of another script, no separator, no sign or blank between digits, and
an X only where it is a digit itself.
-/
structure IsPlain (base : Int) (text : String) : Prop where
  ascii
    : ∀ c ∈ text.toList,
        c.isAlphanum = true ∨ c = '+' ∨ c = '-' ∨ c ∈ Text.blanks
  inner : ∀ core, Text.HasCore text.toList core → ∀ c ∈ core.tail, c.isAlphanum = true
  kelvin : '\u212a' ∉ text.toList
  dotted : '\u0130' ∉ text.toList
  underscore : '_' ∉ text.toList
  letterX : 'x' ∈ text.toList ∨ 'X' ∈ text.toList → 33 < base

namespace IsNumeral

variable {base : Nat} {text : String} {sign : List Char} {digits : List Nat}

/-- A numeral is a sign and a row of digits below its base. -/
theorem exists_row (h : IsNumeral base text sign digits)
    : ∃ row,
        Text.HasCore text.toList (sign ++ row)
        ∧ ∀ c ∈ row, ∃ n < base, HasDigitValue c n := by
  obtain ⟨row, found, matched⟩ := h.row
  obtain ⟨isDigit, _⟩ := forall₂_hasDigitValue_iff.mp ⟨matched, h.below⟩
  refine ⟨row, found, fun c member => ?_⟩
  obtain ⟨n, below, value⟩ := isDigit c member
  exact ⟨n, below, value?_eq_some_iff.mp value⟩

/-- The characters of a numeral: blanks, a sign, and digits below its base. -/
theorem mem_text (h : IsNumeral base text sign digits) {c : Char} (member : c ∈ text.toList)
    : c ∈ Text.blanks ∨ c = '+' ∨ c = '-' ∨ ∃ n < base, HasDigitValue c n := by
  obtain ⟨row, ⟨⟨before, after, whole, blank, blank'⟩, _, _⟩, digit⟩ := h.exists_row
  simp only [whole, List.mem_append] at member
  rcases member with (inBefore | inSign | inRow) | inAfter
  · exact Or.inl (blank c inBefore)
  · rcases h.signs with rfl | rfl | rfl
    · cases inSign
    · exact Or.inr (Or.inl (List.mem_singleton.mp inSign))
    · exact Or.inr (Or.inr (Or.inl (List.mem_singleton.mp inSign)))
  · exact Or.inr (Or.inr (Or.inr (digit c inRow)))
  · exact Or.inl (blank' c inAfter)

/-- Behind the first character of a numeral there are digits only. -/
theorem isAlphanum_of_mem_tail (h : IsNumeral base text sign digits) {core : List Char}
    (found : Text.HasCore text.toList core) {c : Char} (member : c ∈ core.tail)
    : c.isAlphanum = true := by
  obtain ⟨row, found', digit⟩ := h.exists_row
  obtain rfl : core = sign ++ row :=
    (Text.hasCore_iff.mp found).trans (Text.hasCore_iff.mp found').symm
  have inRow : c ∈ row := by
    rcases h.signs with rfl | rfl | rfl
    · exact List.mem_of_mem_tail member
    · exact member
    · exact member
  obtain ⟨n, _, value⟩ := digit c inRow
  exact value.isAlphanum

theorem isPlain {base : Int} (h : IsNumeral base.toNat text sign digits)
    : IsPlain base text := by
  have ascii (c : Char) (member : c ∈ text.toList)
      : c.isAlphanum = true ∨ c = '+' ∨ c = '-' ∨ c ∈ Text.blanks := by
    rcases h.mem_text member with blank | plus | minus | ⟨n, _, value⟩
    · exact Or.inr (Or.inr (Or.inr blank))
    · exact Or.inr (Or.inl plus)
    · exact Or.inr (Or.inr (Or.inl minus))
    · exact Or.inl value.isAlphanum
  have large {c : Char} (read : value? c = some 33) (visible : c ∉ Text.blanks)
      (letter : c ≠ '+' ∧ c ≠ '-') (member : c ∈ text.toList)
      : 33 < base := by
    rcases h.mem_text member with blank | plus | minus | ⟨n, below, value⟩
    · exact (visible blank).elim
    · exact (letter.1 plus).elim
    · exact (letter.2 minus).elim
    · obtain rfl : 33 = n := Option.some.inj (read.symm.trans (value?_eq_some_iff.mpr value))
      omega
  exact
    { ascii := ascii
      inner := fun core found c member => h.isAlphanum_of_mem_tail found member
      kelvin := fun member => absurd (ascii _ member) (by decide)
      dotted := fun member => absurd (ascii _ member) (by decide)
      underscore := fun member => absurd (ascii _ member) (by decide)
      letterX := fun member =>
        member.elim (large rfl (by decide) (by decide)) (large rfl (by decide) (by decide)) }

end IsNumeral

-----------------------------------------------------------------------------------------
-- Reading
-----------------------------------------------------------------------------------------

theorem fitMagnitude_ne_invalidBase (base magnitude : Nat) (negative : Bool) (cause : InvalidBase)
    : fitMagnitude base negative magnitude ≠ .error (.invalidBase cause) := by
  cases negative with
  | true =>
      rw [fitMagnitude_true]
      split <;> simp
  | false =>
      rw [fitMagnitude_false]
      split
      · simp
      · split <;> simp

theorem readDigits_ne_invalidBase (base : Nat) (row : List Char) (cause : InvalidBase)
    : readDigits base row ≠ .error (.invalidBase cause) := by
  rw [readDigits]
  split
  · simp
  · split
    · split <;> simp
    · simp

/-- Once the base is accepted it is not what a text is refused for. -/
theorem readNumeral_ne_invalidBase {base : Int} (valid : IsBase base) (text : String)
    (cause : InvalidBase)
    : readNumeral text base ≠ .error (.invalidBase cause) := by
  rw [readNumeral, if_pos valid, readTrimmed]
  split
  · simp
  · dsimp only
    split
    · simp
    · split
      · exact fitMagnitude_ne_invalidBase _ _ _ cause
      · next error refused =>
          rintro ⟨⟩
          exact readDigits_ne_invalidBase _ _ cause refused

/-- An input word whose answer is a numeral stores the value as it is and writes nothing. -/
theorem IsNumeralWord.step_unchanged {machine : Machine} {register base word : Int}
    (h : IsNumeralWord .inputOperand register base word) (valid : IsBase base)
    (contained : machine.registers.Contains register) {text : String} {answers : List Answer}
    (prompt : machine.prompt = some (.entered text :: answers)) {value : Int}
    (read : readNumeral text base = .ok value) (signed : IsSigned value)
    : (machine.step word).machine = ⟨machine.registers.put register value, some answers⟩
      ∧ (machine.step word).lines = []
      ∧ (machine.step word).escaped = none := by
  obtain ⟨reached, lines, _, escaped⟩ := h.step_of_entered valid contained prompt read
  refine ⟨?_, lines, escaped⟩
  rw [reached, Registers.store, toSigned_eq_self signed]
  rfl

/-- Exactly the numerals of a base that are not too long are read, and each is read as its value.
In a base from 2 to 36 a text is read if between the blanks around it there are ASCII digits and
letters, all of values below the base, behind at most one sign, and if the value fits: a decimal one
has to be in the signed range; in any other base a magnitude without a minus sign is a pattern of 32
bits, and one with a minus sign is a negative value in the signed range. Unless the base is a power
of two there may be at most 4300 digits. All other texts are refused for what they are. A value that
is read is one that registers hold, so that an input word stores it as it is. Bases without numerals
are refused with every text.
-/
theorem reading_accepts_exactly_numerals (text : String) (base : Int)
    : (IsBase base
        → (∀ value,
            readNumeral text base = .ok value
            ↔ ∃ sign digits,
                IsNumeral base.toNat text sign digits
                ∧ HasRoom base.toNat digits.length
                ∧ HasValue base.toNat (sign = ['-']) (Nat.ofDigits base.toNat digits.reverse) value)
          ∧ ((∀ value, readNumeral text base ≠ .ok value)
            → ∃ error,
                readNumeral text base = .error error
                ∧ ∀ cause, error ≠ .invalidBase cause)
          ∧ (∀ value, readNumeral text base = .ok value → IsSigned value ∧ IsPlain base text)
          ∧ ∀ machine register word answers value,
              IsNumeralWord .inputOperand register base word
              → Registers.Contains (Machine.registers machine) register
              → machine.prompt = some (.entered text :: answers)
              → readNumeral text base = .ok value
              → (machine.step word).machine = ⟨machine.registers.put register value, some answers⟩
                ∧ (machine.step word).lines = []
                ∧ (machine.step word).escaped = none)
      ∧ (¬ IsBase base → readNumeral text base = .error (.invalidBase ⟨base⟩)) := by
  refine ⟨fun valid => ⟨fun value => readNumeral_eq_ok_iff_isNumeral valid, fun refused => ?_,
    fun value read => ?_, fun machine register word answers value asks contained prompt read => ?_⟩,
    fun invalid => if_neg invalid⟩
  · cases result : readNumeral text base with
    | ok value => exact (refused value result).elim
    | error error =>
        refine ⟨error, rfl, ?_⟩
        rintro cause rfl
        exact readNumeral_ne_invalidBase valid text cause result
  · obtain ⟨sign, digits, numeral, -, fits⟩ := (readNumeral_eq_ok_iff_isNumeral valid).mp read
    exact ⟨fits.isSigned, numeral.isPlain⟩
  · obtain ⟨sign, digits, numeral, -, fits⟩ := (readNumeral_eq_ok_iff_isNumeral valid).mp read
    exact asks.step_unchanged valid contained prompt read fits.isSigned

section
variable {count : Nat}

/-- A row of zeros, which is a numeral of zero in every base. -/
abbrev zeros (count : Nat) : List Char :=
  List.replicate count '0'

theorem hasCore_zeros : Text.HasCore (zeros count) (zeros count) := by
  have inside : ∀ c ∈ zeros count, c ∉ Text.blanks := by
    intro c member
    obtain rfl := List.eq_of_mem_replicate member
    decide
  exact ⟨⟨[], [], by simp, List.forall_mem_nil _, List.forall_mem_nil _⟩,
    fun c first => inside c (List.mem_of_mem_head? first),
    fun c last => inside c (List.mem_of_mem_getLast? last)⟩

theorem isRow_zeros {base : Nat} (positive : 0 < base) (some : count ≠ 0)
    : IsRow base (zeros count) := by
  refine ⟨mt (List.replicate_eq_nil_iff _).mp some, fun c member => ?_⟩
  obtain rfl := List.eq_of_mem_replicate member
  exact ⟨0, positive, rfl⟩

end

/-- A row of 4301 zeros is a numeral of zero in base ten, but it is not read. -/
theorem zeros_not_read
    : IsNumeral 10 (String.ofList (zeros 4301)) [] (List.replicate 4301 0)
      ∧ HasValue 10 false (Nat.ofDigits 10 (List.replicate 4301 0).reverse) 0
      ∧ readNumeral (String.ofList (zeros 4301)) 10 = .error (.unconverted (.reading 4301)) := by
  have some : 4301 ≠ 0 := by decide
  have found : Text.HasCore (String.ofList (zeros 4301)).toList (zeros 4301) := by
    rw [String.toList_ofList]
    exact hasCore_zeros
  have row := isRow_zeros (show 0 < 10 by decide) some
  have long : Overlong 10 (zeros 4301) := ⟨by decide, by rw [List.length_replicate]; decide⟩
  refine ⟨⟨.inl rfl, ⟨zeros 4301, found, ?_⟩, ?_, ?_⟩, ?_, ?_⟩
  · exact (forall₂_hasDigitValue_iff.mpr ⟨row.2, List.map_replicate⟩).1
  · exact mt (List.replicate_eq_nil_iff _).mp some
  · intro digit member
    obtain rfl := List.eq_of_mem_replicate member
    decide
  · rw [List.reverse_replicate, Nat.ofDigits_replicate_zero]
    exact .decimal rfl (by decide)
  · have valid : IsBase 10 := by decide
    rw [readNumeral_of_isSignedRow valid found (.bare row)]
    refine (if_pos long).trans ?_
    rw [List.length_replicate]

end RegisterMachine
