import Mathlib
import RegisterMachine.Assembly.Operand

/-! Integers in decimal notation, as a grammar.
Reading accepts exactly the texts of the grammar, and writing stays inside it. Conversions in both
directions are refused for rows of digits that are too long.
-/

namespace RegisterMachine

namespace Digits

/-- The value of a row of digits is the number with these digits, the last one being the lowest,
by induction from the last digit.
-/
theorem combine_eq_ofDigits (base : Nat) (digits : List Nat)
    : combine base digits = Nat.ofDigits base digits.reverse := by
  induction digits using List.reverseRecOn with
  | nil => rfl
  | append_singleton digits digit ih =>
      simp only [combine, List.foldl_append, List.foldl_cons, List.foldl_nil, List.reverse_append,
        List.reverse_cons, List.reverse_nil, List.nil_append, List.cons_append, Nat.ofDigits_cons]
        at ih ⊢
      rw [ih, Nat.mul_comm, Nat.add_comm]

theorem value?_char {digit : Nat} (h : digit < 36)
    : value? (char digit) = some digit := by
  decide +revert

/-- A digit at the end of a row multiplies the number by the base and adds to it. -/
theorem toNat?_append_char {base digit : Nat} (hdigit : digit < base) (hbase : base ≤ 36)
    (text : List Char)
    : toNat? base (text ++ [char digit])
      = (toNat? base text).map fun n => n * base + digit := by
  have hvalue : (value? (char digit)).filter (· < base) = some digit := by
    simp [value?_char (Nat.lt_of_lt_of_le hdigit hbase), Option.filter, hdigit]
  simp only [toNat?, List.mapM_append, List.mapM_cons, List.mapM_nil, hvalue]
  cases text.mapM fun c => (value? c).filter (· < base) with
  | none => rfl
  | some digits => simp [combine, List.foldl_append]

/-- The notation of a number is read back, by recursion over its digits. -/
theorem toNat?_ofNat {base : Nat} (hlow : 2 ≤ base) (hhigh : base ≤ 36) (n : Nat)
    : toNat? base (ofNat base n) = some n := by
  fun_induction ofNat base n with
  | case1 n hsmall =>
      have hn : n < base := by omega
      have hdigit := toNat?_append_char hn hhigh []
      simpa [toNat?, combine] using hdigit
  | case2 n hlarge ih =>
      have hdigit : n % base < base := Nat.mod_lt n (by omega)
      rw [toNat?_append_char hdigit hhigh, ih, Option.map_some, Nat.div_add_mod']

theorem ofNat_ne_nil (base n : Nat)
    : ofNat base n ≠ [] := by
  rw [ofNat]
  split <;> simp

/-- A number below a power of the base has no more digits than the exponent says, by recursion over
its digits.
-/
theorem length_ofNat_le {base n count : Nat} (positive : 0 < count) (below : n < base ^ count)
    : (ofNat base n).length ≤ count := by
  fun_induction ofNat base n generalizing count with
  | case1 n hsmall => exact positive
  | case2 n hlarge ih =>
      obtain ⟨rest, rfl⟩ : ∃ rest, count = rest + 1 := ⟨count - 1, by omega⟩
      have left : 0 < rest := by
        refine Nat.pos_of_ne_zero ?_
        rintro rfl
        simp only [Nat.zero_add, Nat.pow_one] at below
        omega
      have shorter := ih left (Nat.div_lt_of_lt_mul (by rwa [Nat.pow_succ'] at below))
      simpa using shorter

/-- A number is below the power of the base with as many digits as it has. -/
theorem lt_pow_length_ofNat {base : Nat} (hlow : 2 ≤ base) (n : Nat)
    : n < base ^ (ofNat base n).length := by
  fun_induction ofNat base n with
  | case1 n hsmall =>
      rw [List.length_singleton, Nat.pow_one]
      omega
  | case2 n hlarge ih =>
      rw [List.length_append, List.length_singleton, Nat.pow_succ, Nat.mul_comm]
      exact (Nat.div_lt_iff_lt_mul (by omega)).mp ih |>.trans_eq (Nat.mul_comm _ _)

/-- A decimal digit counts from the character of zero. -/
theorem value?_filter_ten (c : Char)
    : (value? c).filter (· < 10) = if c.isDigit then some (c.toNat - 48) else none := by
  have hdigit : c.isDigit = true ↔ 48 ≤ c.toNat ∧ c.toNat ≤ 57 := by
    simp only [Char.isDigit, Bool.and_eq_true, decide_eq_true_eq, ge_iff_le,
      UInt32.le_iff_toNat_le]
    rfl
  simp only [value?, Bool.and_eq_true, decide_eq_true_eq]
  grind

end Digits

namespace Assembly

/-- The number that a row of decimal digits stands for. -/
def decimalValue (digits : List Char) : Nat :=
  Nat.ofDigits 10 (digits.map fun c => c.toNat - 48).reverse

/-- Decimal digits of which there is at least one. -/
def IsNumber (digits : List Char) : Prop :=
  digits ≠ [] ∧ ∀ c ∈ digits, c.isDigit = true

/-- An optional sign and a row of decimal digits, with the integer that they stand for. -/
inductive IsInteger : List Char → Int → Prop
  | unsigned {digits} (number : IsNumber digits)
    : IsInteger digits (decimalValue digits)
  | plus {digits} (number : IsNumber digits)
    : IsInteger ('+' :: digits) (decimalValue digits)
  | minus {digits} (number : IsNumber digits)
    : IsInteger ('-' :: digits) (-decimalValue digits)

/-- Reading in base ten takes rows of decimal digits and nothing else, by induction on the text. -/
theorem toNat?_ten (text : List Char)
    : Digits.toNat? 10 text
      = if text.all Char.isDigit then some (decimalValue text) else none := by
  have hdigits
      : (text.mapM fun c => (Digits.value? c).filter (· < 10))
        = if text.all Char.isDigit then some (text.map fun c => c.toNat - 48) else none := by
    induction text with
    | nil => rfl
    | cons c text ih =>
        rw [List.mapM_cons, ih, Digits.value?_filter_ten]
        cases hc : c.isDigit <;> cases ht : text.all Char.isDigit <;> simp [hc, ht]
  rw [Digits.toNat?, hdigits]
  split <;> simp [Digits.combine_eq_ofDigits, decimalValue]

theorem splitSign_of_isNumber {digits : List Char} (number : IsNumber digits)
    : splitSign digits = (false, digits) := by
  obtain ⟨nonempty, decimal⟩ := number
  rcases digits with _ | ⟨c, digits⟩
  · exact (nonempty rfl).elim
  · have hc := decimal c List.mem_cons_self
    unfold splitSign
    split
    · simp_all
    · simp_all
    · rfl

/-- Reading an integer accepts exactly the texts of the grammar and gives their value. -/
theorem readInteger?_eq_some_iff (text : List Char) (value : Int)
    : readInteger? text = some value ↔ IsInteger text value := by
  have hread (negative : Bool) (digits : List Char) (hsplit : splitSign text = (negative, digits))
      : readInteger? text = some value
        ↔ IsNumber digits
          ∧ (if negative then -(decimalValue digits : Int) else decimalValue digits) = value := by
    simp only [readInteger?, hsplit, toNat?_ten, IsNumber, ← List.all_eq_true]
    by_cases hnil : digits = [] <;> cases hdigits : digits.all Char.isDigit <;> simp [hnil]
  constructor
  · intro h
    -- The three forms of the grammar are the three cases of the split.
    unfold splitSign at hread
    split at hread
    · obtain ⟨number, rfl⟩ := (hread true _ rfl).mp h
      exact .minus number
    · obtain ⟨number, rfl⟩ := (hread false _ rfl).mp h
      exact .plus number
    · obtain ⟨number, rfl⟩ := (hread false _ rfl).mp h
      exact .unsigned number
  · intro h
    cases h with
    | unsigned number => exact (hread false text (splitSign_of_isNumber number)).mpr ⟨number, rfl⟩
    | plus number => exact (hread false _ rfl).mpr ⟨number, rfl⟩
    | minus number => exact (hread true _ rfl).mpr ⟨number, rfl⟩

theorem IsInteger.unique {text : List Char} {first second : Int} (hfirst : IsInteger text first)
    (hsecond : IsInteger text second)
    : first = second := by
  rw [← readInteger?_eq_some_iff] at hfirst hsecond
  exact Option.some.inj (hfirst.symm.trans hsecond)

/-- The decimal notation of a number is a row of digits with this value. -/
theorem isNumber_ofNat (n : Nat)
    : IsNumber (Digits.ofNat 10 n) ∧ decimalValue (Digits.ofNat 10 n) = n := by
  have hread := Digits.toNat?_ofNat (show 2 ≤ 10 by decide) (show 10 ≤ 36 by decide) n
  rw [toNat?_ten] at hread
  split at hread
  · next hdigits =>
      exact ⟨⟨Digits.ofNat_ne_nil 10 n, List.all_eq_true.mp hdigits⟩, Option.some.inj hread⟩
  · cases hread

/-- The decimal notation of an integer is a text of the grammar with this value. -/
theorem isInteger_decimal (value : Int)
    : IsInteger (decimal value).toList value := by
  obtain ⟨number, hvalue⟩ := isNumber_ofNat value.natAbs
  by_cases hneg : value < 0
  · have hform := IsInteger.minus number
    rw [hvalue, show -(value.natAbs : Int) = value by omega] at hform
    simpa [decimal, hneg] using hform
  · have hform := IsInteger.unsigned number
    rw [hvalue, show (value.natAbs : Int) = value by omega] at hform
    simpa [decimal, hneg] using hform

-----------------------------------------------------------------------------------------
-- The limit of conversions
-----------------------------------------------------------------------------------------

/-- The text of the failure to read a row of digits. -/
def overlongMessage (count : Nat) : String :=
  "Exceeds the limit (4300 digits) for integer string conversion: value has " ++ decimal count
    ++ " digits; use sys.set_int_max_str_digits() to increase the limit"

theorem message_reading (count : Nat)
    : (ConversionError.reading count).message = overlongMessage count := by
  have limit : decimal Digits.limit = "4300" := by cbv
  have worded
      : (ConversionError.reading count).message
        = "Exceeds the limit (" ++ decimal Digits.limit
          ++ " digits) for integer string conversion: value has " ++ decimal count
          ++ " digits; use sys.set_int_max_str_digits() to increase the limit" := by
    delta ConversionError.message
    rfl
  have opening
      : "Exceeds the limit (" ++ "4300" ++ " digits) for integer string conversion: value has "
        = "Exceeds the limit (4300 digits) for integer string conversion: value has " := by
    cbv
  rw [worded, limit, opening]
  delta overlongMessage
  rfl

/-- A text begins, after a sign if it has one, with a row of decimal digits that is too long. -/
inductive Overlong : List Char → Nat → Prop
  | row {sign digits rest : List Char} (signed : sign = [] ∨ sign = ['+'] ∨ sign = ['-'])
    (number : ∀ c ∈ digits, c.isDigit = true) (ends : ∀ c ∈ rest.head?, c.isDigit = false)
    (long : 4300 < digits.length)
    : Overlong (sign ++ (digits ++ rest)) digits.length

/-- The digits that a text begins with are those that are taken. -/
theorem leadingDigits_eq {sign digits rest : List Char}
    (signed : sign = [] ∨ sign = ['+'] ∨ sign = ['-'])
    (number : ∀ c ∈ digits, c.isDigit = true) (some : digits ≠ [])
    (ends : ∀ c ∈ rest.head?, c.isDigit = false)
    : leadingDigits (sign ++ (digits ++ rest)) = digits := by
  have taken : (digits ++ rest).takeWhile Char.isDigit = digits := by
    rw [List.takeWhile_append_of_pos number]
    cases rest with
    | nil => simp
    | cons c rest => simp [ends c rfl]
  rcases signed with rfl | rfl | rfl
  · obtain ⟨c, digits, rfl⟩ := List.exists_cons_of_ne_nil some
    have plain : splitSign ([] ++ (c :: digits ++ rest)) = (false, c :: digits ++ rest) := by
      have hc := number c List.mem_cons_self
      simp only [List.nil_append, List.cons_append]
      unfold splitSign
      split
      · simp_all
      · simp_all
      · rfl
    rw [leadingDigits, plain, taken]
  · exact taken
  · exact taken

theorem overlong_iff {text : List Char} {count : Nat}
    : Overlong text count
      ↔ Digits.limit < (leadingDigits text).length ∧ (leadingDigits text).length = count := by
  constructor
  · intro h
    obtain ⟨signed, number, ends, long⟩ := h
    have some := List.ne_nil_of_length_pos (Nat.zero_lt_of_lt long)
    rw [leadingDigits_eq signed number some ends]
    exact ⟨long, rfl⟩
  · intro h
    obtain ⟨long, rfl⟩ := h
    -- The text is its sign, the digits that are taken, and what they leave.
    have parts (sign digits : List Char) (signed : sign = [] ∨ sign = ['+'] ∨ sign = ['-'])
        (split : leadingDigits (sign ++ digits) = digits.takeWhile Char.isDigit)
        (long : Digits.limit < (leadingDigits (sign ++ digits)).length)
        : Overlong (sign ++ digits) (leadingDigits (sign ++ digits)).length := by
      rw [split] at long ⊢
      nth_rewrite 1 [← List.takeWhile_append_dropWhile (p := Char.isDigit) (l := digits)]
      refine .row signed (fun c member => List.mem_takeWhile_imp member) (fun c head => ?_) long
      have stop := List.head?_dropWhile_not Char.isDigit digits
      rw [head] at stop
      simpa using stop
    rcases text with _ | ⟨c, text⟩
    · cases long
    · by_cases plus : c = '+'
      · subst plus
        exact parts ['+'] text (by simp) rfl long
      · by_cases minus : c = '-'
        · subst minus
          exact parts ['-'] text (by simp) rfl long
        · have plain : splitSign (c :: text) = (false, c :: text) := by
            unfold splitSign
            split <;> simp_all
          exact parts [] (c :: text) (by simp) (by rw [List.nil_append, leadingDigits, plain]) long

theorem Overlong.unique {text : List Char} {first second : Nat} (hfirst : Overlong text first)
    (hsecond : Overlong text second)
    : first = second :=
  (overlong_iff.mp hfirst).2.symm.trans (overlong_iff.mp hsecond).2

/-- Reading an integer fails for the digits at its start, or gives what the grammar says. -/
theorem convert_cases (text : List Char)
    : (∃ count, Overlong text count ∧ convert text = .error (.reading count))
      ∨ (∀ count, ¬ Overlong text count) ∧ convert text = .ok (readInteger? text) := by
  by_cases long : Digits.limit < (leadingDigits text).length
  · exact .inl ⟨_, overlong_iff.mpr ⟨long, rfl⟩, if_pos long⟩
  · exact .inr ⟨fun count h => long (overlong_iff.mp h).1, if_neg long⟩

theorem decimalValue_lt (digits : List Char) (number : ∀ c ∈ digits, c.isDigit = true)
    : decimalValue digits < 10 ^ digits.length := by
  have bounded : ∀ n ∈ (digits.map fun c => c.toNat - 48).reverse, n < 10 := by
    intro n member
    obtain ⟨c, inside, rfl⟩ := List.mem_map.mp (List.mem_reverse.mp member)
    have digit := number c inside
    simp only [Char.isDigit, Bool.and_eq_true, decide_eq_true_eq, ge_iff_le,
      UInt32.le_iff_toNat_le] at digit
    have high : c.toNat ≤ 57 := digit.2
    omega
  have below := Nat.ofDigits_lt_base_pow_length (by decide) bounded
  rwa [List.length_reverse, List.length_map] at below

/-- An integer that was read can be written. -/
theorem IsInteger.natAbs_lt {text : List Char} {value : Int} (integer : IsInteger text value)
    (short : ∀ count, ¬ Overlong text count)
    : value.natAbs < 10 ^ Digits.limit := by
  have bound (sign digits : List Char) (signed : sign = [] ∨ sign = ['+'] ∨ sign = ['-'])
      (number : IsNumber digits) (short : ∀ count, ¬ Overlong (sign ++ digits) count)
      : decimalValue digits < 10 ^ Digits.limit := by
    have few : digits.length ≤ 4300 := by
      by_contra many
      have run : Overlong (sign ++ (digits ++ [])) digits.length :=
        .row signed number.2 (by simp) (by omega)
      rw [List.append_nil] at run
      exact short _ run
    exact (decimalValue_lt digits number.2).trans_le (Nat.pow_le_pow_right (by decide) few)
  cases integer with
  | unsigned number => simpa using bound [] _ (by simp) number short
  | plus number => simpa using bound ['+'] _ (by simp) number short
  | minus number => simpa using bound ['-'] _ (by simp) number short

/-- What can be written can be read. -/
theorem not_overlong_decimal {value : Int} (short : value.natAbs < 10 ^ Digits.limit) (count : Nat)
    : ¬ Overlong (decimal value).toList count := by
  intro h
  have few := Digits.length_ofNat_le (by decide) short
  obtain ⟨number, -⟩ := isNumber_ofNat value.natAbs
  have taken : leadingDigits (decimal value).toList = Digits.ofNat 10 value.natAbs := by
    have signed (sign : List Char) (signs : sign = [] ∨ sign = ['+'] ∨ sign = ['-'])
        : leadingDigits (sign ++ (Digits.ofNat 10 value.natAbs ++ []))
          = Digits.ofNat 10 value.natAbs :=
      leadingDigits_eq signs number.2 number.1 (by simp)
    rw [decimal, String.toList_ofList]
    split
    · simpa using signed ['-'] (by simp)
    · simpa using signed [] (by simp)
  have long := (overlong_iff.mp h).1
  rw [taken] at long
  omega

end Assembly

/-- What can be written is bounded by a power of ten. -/
theorem writeDecimal_eq (value : Int)
    : writeDecimal value
      = if value.natAbs < 10 ^ Digits.limit then .ok (decimal value) else .error .writing := by
  have bound
      : Digits.limit < (Digits.ofNat 10 value.natAbs).length
        ↔ ¬ value.natAbs < 10 ^ Digits.limit := by
    constructor
    · intro long below
      have short := Digits.length_ofNat_le (by decide) below
      exact absurd (long.trans_le short) (Nat.lt_irrefl _)
    · intro above
      by_contra short
      have below := Digits.lt_pow_length_ofNat (show 2 ≤ 10 by decide) value.natAbs
      exact above (below.trans_le (Nat.pow_le_pow_right (by decide) (Nat.le_of_not_lt short)))
  rw [writeDecimal, ite_cond_congr (propext bound), ite_not]

theorem writeDecimal_of_lt {value : Int} (below : value.natAbs < 10 ^ Digits.limit)
    : writeDecimal value = .ok (decimal value) := by
  rw [writeDecimal_eq, if_pos below]

/-- What an operand can hold can be written. -/
theorem natAbs_lt_of_operand {value : Int} (inside : 0 ≤ value ∧ value ≤ 511)
    : value.natAbs < 10 ^ Digits.limit :=
  Nat.lt_of_lt_of_le (show value.natAbs < 10 ^ 3 by omega)
    (Nat.pow_le_pow_right (by decide) (by decide))

theorem IndexOutOfRange.message_eq {error : IndexOutOfRange}
    (short : error.index.natAbs < 10 ^ Digits.limit)
    : error.message
      = "Register index " ++ decimal error.index ++ " out of range (0-"
        ++ decimal ((error.size : Int) - 1) ++ ")" := by
  rw [message, wording, writeDecimal_of_lt short]
  rfl

end RegisterMachine
