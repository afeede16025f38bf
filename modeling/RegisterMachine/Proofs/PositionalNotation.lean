import RegisterMachine.Proofs.CanonicalNumerals

/-! Every number has exactly one notation in a base, and it is what is printed.
Notations are described by the places of their characters in an alphabet. They are found by a loop
that splits off the last digit of a number until nothing is left of it.
-/

namespace RegisterMachine

namespace Digits

-----------------------------------------------------------------------------------------
-- Alphabets
-----------------------------------------------------------------------------------------

/-- The characters of digits in the order of their values. -/
def digitAlphabet : List Char :=
  "0123456789abcdefghijklmnopqrstuvwxyz".toList

/-- The number that a row of characters of an alphabet stands for. The base is the length of the
alphabet, and the value of a character is its place there.
-/
def positionalValue (alphabet row : List Char) : Nat :=
  Nat.ofDigits alphabet.length (row.map fun c => alphabet.idxOf c).reverse

/-- A row of characters of an alphabet is the notation of a number. It begins with a zero only if
there is nothing else.
-/
structure IsNotation (alphabet : List Char) (n : Nat) (row : List Char) : Prop where
  nonempty : row ≠ []
  listed : ∀ c ∈ row, c ∈ alphabet
  leading : row.head? = some '0' → row = ['0']
  value : positionalValue alphabet row = n

theorem char_inj {first second : Nat} (h : first < 36) (h' : second < 36)
    (same : char first = char second)
    : first = second := by
  have read := congrArg value? same
  rw [value?_char h, value?_char h'] at read
  exact Option.some.inj read

section
variable {base : Nat} {write : Nat → Char}

/-- If digits are written with different characters, their places are their values. -/
theorem idxOf_write (distinct : ((List.range base).map write).Nodup) {digit : Nat}
    (below : digit < base)
    : ((List.range base).map write).idxOf (write digit) = digit := by
  have inside : digit < ((List.range base).map write).length := by simpa using below
  have found := distinct.idxOf_getElem digit inside
  rwa [List.getElem_map, List.getElem_range] at found

theorem positionalValue_map (distinct : ((List.range base).map write).Nodup) {digits : List Nat}
    (below : ∀ digit ∈ digits, digit < base)
    : positionalValue ((List.range base).map write) (digits.map write)
      = Nat.ofDigits base digits.reverse := by
  have places
      : digits.map (fun digit => ((List.range base).map write).idxOf (write digit)) = digits :=
    (List.map_congr_left fun digit member => idxOf_write distinct (below digit member)).trans
      (List.map_id digits)
  rw [positionalValue, List.map_map, List.length_map, List.length_range]
  exact congrArg (fun digits => Nat.ofDigits base digits.reverse) places

/-- A row of characters of an alphabet is written from digits. -/
theorem exists_digits {row : List Char} (listed : ∀ c ∈ row, c ∈ (List.range base).map write)
    : ∃ digits : List Nat, (∀ digit ∈ digits, digit < base) ∧ digits.map write = row := by
  induction row with
  | nil => exact ⟨[], List.forall_mem_nil _, rfl⟩
  | cons c row ih =>
      obtain ⟨here, later⟩ := List.forall_mem_cons.mp listed
      obtain ⟨digit, below, rfl⟩ := List.mem_map.mp here
      obtain ⟨digits, below', rfl⟩ := ih later
      exact ⟨digit :: digits, List.forall_mem_cons.mpr ⟨List.mem_range.mp below, below'⟩, rfl⟩

end

-----------------------------------------------------------------------------------------
-- Shortest notations
-----------------------------------------------------------------------------------------

section
variable {base n : Nat}

theorem digitAlphabet_take (hhigh : base ≤ 36)
    : digitAlphabet.take base = (List.range base).map char := by
  have whole : digitAlphabet = (List.range 36).map char := by decide +kernel
  rw [whole, ← List.map_take, List.take_range, min_eq_left hhigh]

theorem nodup_digits (hhigh : base ≤ 36)
    : ((List.range base).map char).Nodup := by
  refine List.Nodup.map_on (fun first h second h' same => ?_) List.nodup_range
  rw [List.mem_range] at h h'
  exact char_inj (h.trans_le hhigh) (h'.trans_le hhigh) same

/-- The notation of a number that is not zero is made of its digits, by recursion on the number. -/
theorem ofNat_eq_digits (hlow : 2 ≤ base) (nonzero : n ≠ 0)
    : ofNat base n = (Nat.digits base n).reverse.map char := by
  fun_induction ofNat base n with
  | case1 n small =>
      have below : n < base := by omega
      rw [Nat.digits_of_lt base n nonzero below]
      rfl
  | case2 n large ih =>
      have rest : n / base ≠ 0 := by
        rw [Nat.div_ne_zero_iff]
        omega
      rw [Nat.digits_eq_cons_digits_div hlow nonzero, ih rest, List.reverse_cons, List.map_append,
        List.map_singleton]

/-- The digits of a number that is not zero begin with one that is not zero. -/
theorem head?_ofNat_ne (hlow : 2 ≤ base) (hhigh : base ≤ 36) (nonzero : n ≠ 0)
    : (ofNat base n).head? ≠ some '0' := by
  have some := Nat.digits_ne_nil_iff_ne_zero (b := base).mpr nonzero
  have leading := Nat.getLast_digit_ne_zero base nonzero
  have below := Nat.digits_lt_base hlow (List.getLast_mem some)
  rw [ofNat_eq_digits hlow nonzero, List.head?_map, List.head?_reverse,
    List.getLast?_eq_some_getLast some]
  intro zero
  exact leading (char_inj (below.trans_le hhigh) (by decide) (Option.some.inj zero))

/-- What is written for a number is its notation. -/
theorem isNotation_ofNat (hlow : 2 ≤ base) (hhigh : base ≤ 36) (n : Nat)
    : IsNotation (digitAlphabet.take base) n (ofNat base n) := by
  rw [digitAlphabet_take hhigh]
  by_cases nonzero : n ≠ 0
  · refine ⟨ofNat_ne_nil base n, fun c member => ?_,
      fun zero => (head?_ofNat_ne hlow hhigh nonzero zero).elim, ?_⟩
    · obtain ⟨digit, below, rfl⟩ := mem_ofNat hlow member
      exact List.mem_map_of_mem (List.mem_range.mpr below)
    · have below : ∀ digit ∈ (Nat.digits base n).reverse, digit < base := fun digit member =>
        Nat.digits_lt_base hlow (List.mem_reverse.mp member)
      rw [ofNat_eq_digits hlow nonzero, positionalValue_map (nodup_digits hhigh) below,
        List.reverse_reverse, Nat.ofDigits_digits]
  · obtain rfl : n = 0 := not_not.mp nonzero
    have below : ∀ digit ∈ [0], digit < base := List.forall_mem_singleton.mpr (by omega)
    rw [ofNat_digit (by omega)]
    refine ⟨List.cons_ne_nil _ _, ?_, fun _ => rfl, positionalValue_map (nodup_digits hhigh) below⟩
    exact List.forall_mem_singleton.mpr (List.mem_map_of_mem (List.mem_range.mpr (by omega)))

/-- There is no other notation of a number. -/
theorem IsNotation.eq_ofNat (hlow : 2 ≤ base) (hhigh : base ≤ 36) {row : List Char}
    (h : IsNotation (digitAlphabet.take base) n row)
    : row = ofNat base n := by
  by_cases zero : row.head? = some '0'
  · have written : ofNat base 0 = ['0'] := ofNat_digit (by omega)
    have value := (isNotation_ofNat hlow hhigh 0).value
    rw [written, ← h.leading zero, h.value] at value
    rw [value, written]
    exact h.leading zero
  · rw [digitAlphabet_take hhigh] at h
    obtain ⟨digits, below, rfl⟩ := exists_digits h.listed
    have leading (filled : digits.reverse ≠ []) : digits.reverse.getLast filled ≠ 0 := by
      intro last
      have first : digits.head? = some 0 := by
        rw [← List.getLast?_reverse, List.getLast?_eq_some_getLast filled, last]
      exact zero (by rw [List.head?_map, first]; rfl)
    have same : Nat.digits base n = digits.reverse := by
      rw [← h.value, positionalValue_map (nodup_digits hhigh) below]
      refine Nat.digits_ofDigits base hlow _ (fun digit member => ?_) leading
      exact below digit (List.mem_reverse.mp member)
    have nonzero : n ≠ 0 := by
      rintro rfl
      have none := same.symm.trans (Nat.digits_zero base)
      exact h.nonempty (by rw [List.reverse_eq_nil_iff.mp none]; rfl)
    rw [ofNat_eq_digits hlow nonzero, same, List.reverse_reverse]

theorem isNotation_iff (hlow : 2 ≤ base) (hhigh : base ≤ 36) {row : List Char}
    : IsNotation (digitAlphabet.take base) n row ↔ row = ofNat base n :=
  ⟨fun h => h.eq_ofNat hlow hhigh, fun h => h ▸ isNotation_ofNat hlow hhigh n⟩

-----------------------------------------------------------------------------------------
-- Splitting off digits
-----------------------------------------------------------------------------------------

/-- One round of the digit loop: the last digit of what is left of a number goes behind the digits
that have been split off before.
-/
def splitOff (base : Nat) (state : Nat × List Char) : Nat × List Char :=
  (state.1 / base, state.2 ++ [char (state.1 % base)])

/-- The loop that goes on splitting off digits as long as something is left of a number ends after
some rounds, and these are the digits that it has found by then.
-/
structure LoopEnds (base : Nat) (start : Nat × List Char) (rounds : Nat) (digits : List Char)
    : Prop where
  finished : (splitOff base)^[rounds] start = (0, digits)
  unfinished : ∀ earlier < rounds, ((splitOff base)^[earlier] start).1 ≠ 0

/-- The loop splits off the digits of a number from the last one on, by recursion on the number. -/
theorem loopEnds_ofNat (hlow : 2 ≤ base) (nonzero : n ≠ 0) (before : List Char)
    : LoopEnds base (n, before) (ofNat base n).length (before ++ (ofNat base n).reverse) := by
  fun_induction ofNat base n generalizing before with
  | case1 n small =>
      have below : n < base := by omega
      constructor
      · simp [splitOff, Nat.div_eq_of_lt below, Nat.mod_eq_of_lt below]
      · intro earlier inside
        obtain rfl : earlier = 0 := by simpa using inside
        exact nonzero
  | case2 n large ih =>
      have rest : n / base ≠ 0 := by
        rw [Nat.div_ne_zero_iff]
        omega
      obtain ⟨finished, unfinished⟩ := ih rest (before ++ [char (n % base)])
      constructor
      · rw [List.length_append, List.length_singleton, Function.iterate_succ_apply]
        simpa [splitOff] using finished
      · intro earlier inside
        rw [List.length_append, List.length_singleton] at inside
        cases earlier with
        | zero => exact nonzero
        | succ earlier =>
            rw [Function.iterate_succ_apply]
            exact unfinished earlier (by omega)

end

end Digits

-----------------------------------------------------------------------------------------
-- Numerals
-----------------------------------------------------------------------------------------

open Digits

/-- The decimal notation of an integer: that of its magnitude, behind a minus sign if it is
negative.
-/
inductive IsDecimal (value : Int) : List Char → Prop
  | unsigned {row} (nonneg : 0 ≤ value)
    (magnitude : IsNotation (digitAlphabet.take 10) value.natAbs row)
    : IsDecimal value row
  | negative {row} (negative : value < 0)
    (magnitude : IsNotation (digitAlphabet.take 10) value.natAbs row)
    : IsDecimal value ('-' :: row)

theorem isDecimal_iff {value : Int} {row : List Char}
    : IsDecimal value row ↔ row = (decimal value).toList := by
  have unique {row : List Char} {n : Nat}
      : IsNotation (digitAlphabet.take 10) n row ↔ row = ofNat 10 n :=
    isNotation_iff (by decide) (by decide)
  rw [decimal, String.toList_ofList]
  constructor
  · intro h
    cases h with
    | unsigned nonneg magnitude => rw [if_neg nonneg.not_gt, unique.mp magnitude]
    | negative negative magnitude => rw [if_pos negative, unique.mp magnitude]
  · rintro rfl
    split
    · next negative => exact .negative negative (unique.mpr rfl)
    · next nonneg => exact .unsigned (not_lt.mp nonneg) (unique.mpr rfl)

/-- The minus sign is no digit, so that only negative integers are written with one. -/
theorem IsDecimal.minus_mem_iff {value : Int} {row : List Char} (h : IsDecimal value row)
    : '-' ∈ row ↔ value < 0 := by
  cases h with
  | unsigned nonneg magnitude =>
      have absent : '-' ∉ row := fun member => absurd (magnitude.listed _ member) (by decide)
      simp only [absent, nonneg.not_gt]
  | negative negative magnitude => simp only [List.mem_cons_self, negative]

/-- What is printed for an integer in a base is its canonical numeral.
In a base other than ten this is the only notation of the unsigned view of the integer. It is found
by splitting off digits, unless the view is zero, and the loop ends because 32 digits are enough in
every base. In base ten it is the only decimal notation of the signed view. Other bases have no
numerals.
-/
theorem numerals_are_canonical (value base : Int)
    : (IsBase base
        → base ≠ 10
        → ∃ text,
            printNumeral value base = .ok text
            ∧ (0 < text.length ∧ text.length ≤ 32)
            ∧ (∀ other : String,
                IsNotation (digitAlphabet.take base.toNat) (value % 2 ^ 32).toNat other.toList
                ↔ other = text)
            ∧ (value % 2 ^ 32 ≠ 0
              → LoopEnds base.toNat ((value % 2 ^ 32).toNat, []) text.length text.toList.reverse))
      ∧ (base = 10
        → ∃ text,
            printNumeral value base = .ok text
            ∧ (∀ other : String, IsDecimal (toSigned value) other.toList ↔ other = text)
            ∧ ('-' ∈ text.toList ↔ toSigned value < 0))
      ∧ (¬ IsBase base → printNumeral value base = .error ⟨base⟩) := by
  refine ⟨fun valid other => ?_, fun ten => ?_, fun invalid => if_neg invalid⟩
  · obtain ⟨hlow, hhigh⟩ := valid.bounds
    have noTen : base.toNat ≠ 10 := by omega
    have view : toUnsigned value = value % 2 ^ 32 := rfl
    have below : (value % 2 ^ 32).toNat < base.toNat ^ 32 := by
      have power : 2 ^ 32 ≤ base.toNat ^ 32 := Nat.pow_le_pow_left hlow 32
      omega
    have some := ofNat_ne_nil base.toNat (value % 2 ^ 32).toNat
    refine ⟨numeral base.toNat value, printNumeral_eq valid value, ?_⟩
    rw [numeral, if_neg noTen, view, String.length_ofList, String.toList_ofList]
    refine ⟨⟨List.length_pos_of_ne_nil some, length_ofNat_le (by decide) below⟩,
      fun other => ?_, fun nonzero => ?_⟩
    · rw [isNotation_iff hlow hhigh, String.ext_iff, String.toList_ofList]
    · exact loopEnds_ofNat hlow (by omega) []
  · subst ten
    have written : IsDecimal (toSigned value) (numeral 10 value).toList :=
      isDecimal_iff.mpr (by rw [numeral, if_pos rfl])
    refine ⟨numeral 10 value, printNumeral_eq (by decide) value, fun other => ?_,
      written.minus_mem_iff⟩
    rw [isDecimal_iff, ← isDecimal_iff.mp written, String.ext_iff]

/-- The pattern of minus one has the most digits that there are, 32 of them in base two, whereas in
base ten it is written with a single digit behind a minus sign.
-/
theorem numerals_are_canonical_negative
    : (IsBase 2
        ∧ printNumeral (-1) 2 = .ok (String.ofList (List.replicate 32 '1'))
        ∧ LoopEnds 2 (4294967295, []) 32 (List.replicate 32 '1'))
      ∧ printNumeral 4294967295 10 = .ok "-1"
      ∧ ¬ IsBase 37
      ∧ printNumeral (-1) 37 = .error ⟨37⟩ := by
  have valid : IsBase 2 := by decide
  have invalid : ¬ IsBase 37 := by decide
  have view : (-1 % 2 ^ 32 : Int).toNat = 4294967295 := by decide
  obtain ⟨text, printed, _, unique, loop⟩ := (numerals_are_canonical (-1) 2).1 valid (by decide)
  obtain ⟨signed, printed', decimal, _⟩ := (numerals_are_canonical 4294967295 10).2.1 rfl
  rw [view] at unique loop
  have pattern : IsNotation (digitAlphabet.take 2) 4294967295 (List.replicate 32 '1') :=
    ⟨by decide, List.forall_mem_replicate.mpr (Or.inr (by decide +kernel)), by decide,
      by decide +kernel⟩
  have one : IsNotation (digitAlphabet.take 10) 1 ['1'] :=
    ⟨by decide, List.forall_mem_singleton.mpr (by decide +kernel), by decide, by decide +kernel⟩
  obtain rfl :=
    (unique (String.ofList (List.replicate 32 '1'))).mp (by rwa [String.toList_ofList])
  rw [String.length_ofList, String.toList_ofList, List.length_replicate, List.reverse_replicate]
    at loop
  obtain rfl := (decimal "-1").mp (.negative (by decide) one)
  exact ⟨⟨valid, printed, loop (by decide)⟩, printed', invalid,
    (numerals_are_canonical (-1) 37).2.2 invalid⟩

end RegisterMachine
