import RegisterMachine.Output
import RegisterMachine.Proofs.DecimalIntegers

/-! The texts of lines without format faults.
Numerals have no capital letters, so that the line of a register never reads like a fault.
-/

namespace RegisterMachine

-----------------------------------------------------------------------------------------
-- Characters of numerals
-----------------------------------------------------------------------------------------

namespace Digits

/-- A notation is made of digits below its base, by recursion on the number. -/
theorem mem_ofNat {base n : Nat} {c : Char} (hbase : 2 ≤ base) (member : c ∈ ofNat base n)
    : ∃ digit < base, c = char digit := by
  fun_induction ofNat base n with
  | case1 n small => exact ⟨n, by omega, List.mem_singleton.mp member⟩
  | case2 n large ih =>
      rcases List.mem_append.mp member with earlier | last
      · exact ih earlier
      · exact ⟨n % base, Nat.mod_lt n (by omega), List.mem_singleton.mp last⟩

end Digits

/-- A minus sign, or the character of a digit below a base. -/
def IsNumeralChar (base : Nat) (c : Char) : Prop :=
  c = '-' ∨ ∃ digit < base, c = Digits.char digit

theorem IsNumeralChar.mono {base greater : Nat} (h : base ≤ greater) {c : Char}
    (numeralChar : IsNumeralChar base c)
    : IsNumeralChar greater c :=
  numeralChar.imp_right fun ⟨digit, below, same⟩ => ⟨digit, below.trans_le h, same⟩

theorem isNumeralChar_decimal {value : Int} {c : Char} (member : c ∈ (decimal value).toList)
    : IsNumeralChar 10 c := by
  have digit (h : c ∈ Digits.ofNat 10 value.natAbs) : IsNumeralChar 10 c :=
    Or.inr (Digits.mem_ofNat (by decide) h)
  rw [decimal, String.toList_ofList] at member
  split at member
  · exact (List.mem_cons.mp member).elim Or.inl digit
  · exact digit member

theorem isNumeralChar_numeral {base : Nat} (hlow : 2 ≤ base) (hhigh : base ≤ 36) {value : Int}
    {c : Char} (member : c ∈ (numeral base value).toList)
    : IsNumeralChar 36 c := by
  rw [numeral] at member
  split at member
  · exact (isNumeralChar_decimal member).mono (by decide)
  · rw [String.toList_ofList] at member
    exact IsNumeralChar.mono hhigh (Or.inr (Digits.mem_ofNat hlow member))

/-- A capital letter is no character of a numeral. -/
theorem not_isNumeralChar_capital
    : ¬ IsNumeralChar 36 'R' := by
  rw [IsNumeralChar]
  decide

/-- A letter is no character of a decimal numeral. -/
theorem not_isNumeralChar_letter
    : ¬ IsNumeralChar 10 'e' := by
  rw [IsNumeralChar]
  decide

theorem decimal_ne_nil (value : Int)
    : (decimal value).toList ≠ [] := by
  rw [decimal, String.toList_ofList]
  split
  · exact List.cons_ne_nil _ _
  · exact Digits.ofNat_ne_nil 10 value.natAbs

/-- Texts that begin differently are different. -/
theorem append_ne_append {start other : String} (short : start.length ≤ other.length)
    (apart : ¬ start.toList <+: other.toList) (rest more : String)
    : start ++ rest ≠ other ++ more := by
  intro same
  have begins : start.toList <+: (other ++ more).toList := by
    rw [← same, String.toList_append]
    exact List.prefix_append _ _
  rw [String.toList_append] at begins
  exact apart (List.prefix_of_prefix_length_le begins (List.prefix_append _ _) short)

-----------------------------------------------------------------------------------------
-- Ordinary texts
-----------------------------------------------------------------------------------------

/-- What can still go wrong in a program of the right form. -/
def ordinaryComplaints : List String := [
    "Error during instruction execution: Invalid Base.",
    "Error: Division by zero.",
    "Error: Byte index out of range (0-3).",
    "Error: Byte value out of range (0-255).",
    "Error: Invalid input." ]

/-- The texts of lines without format faults: the heading, the line of a register of a full machine
in some base, the notice that nobody answered, and five complaints.
-/
inductive OrdinaryText : String → Prop
  | heading : OrdinaryText "Register Values:"
  | register {index value base : Int} (low : 0 ≤ index) (high : index ≤ 511)
    (valid : IsBase base)
    : OrdinaryText ("R" ++ decimal index ++ ": " ++ numeral base.toNat value)
  | cancelled : OrdinaryText "Input cancelled."
  | complaint {text : String} (listed : text ∈ ordinaryComplaints) : OrdinaryText text

/-- A text about a part of a program that has not the right form: an operation that does not exist,
a partial word, or a register that does not exist.
-/
def IsFormatFault (text : String) : Prop :=
  "Error: Unknown opcode".toList <+: text.toList
  ∨ "Error: Truncated word".toList <+: text.toList
  ∨ "Register index".toList <:+: text.toList

theorem toList_register (index : Int) (base : Nat) (value : Int)
    : ("R" ++ decimal index ++ ": " ++ numeral base value).toList
      = 'R' :: ((decimal index).toList ++ ':' :: ' ' :: (numeral base value).toList) := by
  have letter : "R".toList = ['R'] := rfl
  have colon : ": ".toList = [':', ' '] := rfl
  simp only [String.toList_append, letter, colon, List.append_assoc, List.cons_append,
    List.nil_append]

/-- A text with another first letter is no beginning of the line of a register. -/
theorem register_not_prefix {text : String} (first : text.toList.head? = some 'E') (index : Int)
    (base : Nat) (value : Int)
    : ¬ text.toList <+: ("R" ++ decimal index ++ ": " ++ numeral base value).toList := by
  obtain ⟨rest, written⟩ := List.head?_eq_some_iff.mp first
  rw [toList_register, written]
  intro found
  exact absurd (List.cons_prefix_cons.mp found).1 (by decide)

/-- The only capital letter in the line of a register is the first character, and what follows it is
no letter.
-/
theorem register_not_infix (index : Int) {base : Nat} (hlow : 2 ≤ base) (hhigh : base ≤ 36)
    (value : Int)
    : ¬ "Register index".toList
        <:+: ("R" ++ decimal index ++ ": " ++ numeral base value).toList := by
  have name : "Register index".toList = 'R' :: 'e' :: "gister index".toList := rfl
  rw [toList_register, name]
  intro found
  -- The words would begin at the first character, or at a capital letter further on.
  rcases List.infix_cons_iff.mp found with here | later
  · obtain ⟨c, digits, written⟩ := List.exists_cons_of_ne_nil (decimal_ne_nil index)
    have member : c ∈ (decimal index).toList := written ▸ List.mem_cons_self
    obtain ⟨_, rest⟩ := List.cons_prefix_cons.mp here
    rw [written] at rest
    obtain ⟨rfl, _⟩ := List.cons_prefix_cons.mp rest
    exact not_isNumeralChar_letter (isNumeralChar_decimal member)
  · have capital := later.subset List.mem_cons_self
    simp only [List.mem_append, List.mem_cons, Char.reduceEq, false_or] at capital
    rcases capital with inIndex | inNumeral
    · exact not_isNumeralChar_capital ((isNumeralChar_decimal inIndex).mono (by decide))
    · exact not_isNumeralChar_capital (isNumeralChar_numeral hlow hhigh inNumeral)

/-- No complaint among the ordinary texts is about the form of a program. -/
theorem complaint_not_isFormatFault
    : ∀ text ∈ ordinaryComplaints, ¬ IsFormatFault text := by
  simp only [ordinaryComplaints, List.forall_mem_cons, IsFormatFault]
  decide

/-- Ordinary texts are no format faults. -/
theorem OrdinaryText.not_isFormatFault {text : String} (h : OrdinaryText text)
    : ¬ IsFormatFault text := by
  cases h with
  | heading | cancelled =>
      rw [IsFormatFault]
      decide
  | complaint listed => exact complaint_not_isFormatFault text listed
  | @register index value base low high valid =>
      rintro (unknown | truncated | missing)
      · exact register_not_prefix rfl index base.toNat value unknown
      · exact register_not_prefix rfl index base.toNat value truncated
      · obtain ⟨hlow, hhigh⟩ := valid
        simp only [minBase, maxBase] at hlow hhigh
        exact register_not_infix index (by omega) (by omega) value missing

end RegisterMachine
