import RegisterMachine.Proofs.BitPatterns
import RegisterMachine.Proofs.DecimalIntegers
import RegisterMachine.Word.Image

/-! Words and the contents of their fields determine each other.
Field values that fit survive the way into a word and back, and a word is put together again from
its fields.
-/

namespace RegisterMachine

theorem Field.mem_all (field : Field)
    : field ∈ Field.all := by
  rcases field with _ | slot
  · decide
  · cases slot <;> decide

/-- A complaint is made unless its value is too long to be written. -/
theorem FieldOutOfRange.complaint_eq (error : FieldOutOfRange)
    : error.complaint
      = if error.value.natAbs < 10 ^ Digits.limit then
          .outOfRange error
        else
          .unworded .writing := by
  rw [complaint, writeDecimal_eq]
  by_cases short : error.value.natAbs < 10 ^ Digits.limit
  · rw [if_pos short, if_pos short]
  · rw [if_neg short, if_neg short]

namespace Fields

-----------------------------------------------------------------------------------------
-- Values that fit
-----------------------------------------------------------------------------------------

/-- Every value lies between zero and the limit of its field. -/
def Fit (fields : Fields) : Prop :=
  ∀ field, 0 ≤ fields.get field ∧ fields.get field ≤ field.limit

@[simp]
theorem limit_operand (slot : Slot)
    : (Field.operand slot).limit = 511 := by
  simp [Field.limit, Field.bits]

/-- The bounds of the four fields in numbers. -/
theorem fit_iff (fields : Fields)
    : fields.Fit
      ↔ (0 ≤ fields.opcode ∧ fields.opcode ≤ 31)
        ∧ ∀ slot, 0 ≤ fields.operands.get slot ∧ fields.operands.get slot ≤ 511 := by
  constructor
  · intro h
    exact ⟨h .opcode, fun slot => h (.operand slot)⟩
  · intro h field
    obtain ⟨hcode, hoperands⟩ := h
    cases field with
    | opcode => exact hcode
    | operand slot => exact hoperands slot

theorem firstOutOfRange?_eq_none_iff (fields : Fields)
    : fields.firstOutOfRange? = none ↔ fields.Fit := by
  simp only [firstOutOfRange?, Option.map_eq_none_iff, List.find?_eq_none, Bool.or_eq_true,
    decide_eq_true_eq, not_or, Int.not_lt, Fit]
  constructor
  · intro h field
    exact h field field.mem_all
  · intro h field _
    exact h field

/-- Encoding accepts exactly the values that fit, and puts them together. -/
theorem encode_eq_ok_iff (fields : Fields) (word : Int)
    : fields.encode = .ok word ↔ fields.Fit ∧ fields.toWord = word := by
  rw [← firstOutOfRange?_eq_none_iff, encode]
  cases fields.firstOutOfRange? <;> simp

/-- A single value that does not fit is the one that encoding names. -/
theorem encode_eq_error {fields : Fields} {field : Field}
    (hbad : ¬ (0 ≤ fields.get field ∧ fields.get field ≤ field.limit))
    (hgood : ∀ other, other ≠ field → 0 ≤ fields.get other ∧ fields.get other ≤ other.limit)
    : fields.encode = .error (FieldOutOfRange.complaint ⟨field, fields.get field⟩) := by
  have hfound
      : Field.all.find? (fun field => fields.get field < 0 || field.limit < fields.get field)
        = some field := by
    have hskip (other : Field) (hne : other ≠ field)
        : (fields.get other < 0 || other.limit < fields.get other) = false := by
      have := hgood other hne
      simp only [Bool.or_eq_false_iff, decide_eq_false_iff_not]
      omega
    have hstop : (fields.get field < 0 || field.limit < fields.get field) = true := by
      simp only [Bool.or_eq_true, decide_eq_true_eq]
      omega
    -- The fields before the bad one are skipped one by one.
    rcases field with _ | slot
    · simp only [Field.all, List.find?_cons, hstop]
    · cases slot <;> simp only [Field.all, List.find?_cons, hstop, ne_eq, reduceCtorEq,
        not_false_eq_true, Field.operand.injEq, hskip]
  simp only [encode, firstOutOfRange?, hfound, Option.map_some]

-----------------------------------------------------------------------------------------
-- The way into a word and back
-----------------------------------------------------------------------------------------

/-- Values that fit do not overlap in their word. -/
theorem Fit.toWord_eq {fields : Fields} (h : fields.Fit)
    : fields.toWord
      = fields.opcode + fields.operands.first * 2 ^ 5 + fields.operands.second * 2 ^ 14
        + fields.operands.third * 2 ^ 23 := by
  obtain ⟨hcode, hoperands⟩ := fields.fit_iff.mp h
  have hfirst := hoperands .first
  have hsecond := hoperands .second
  have hthird := hoperands .third
  simp only [Operands.get] at hfirst hsecond hthird
  have zero_or (a : Int) : Bitwise.or 0 a = a := by
    refine eq_of_testBit_eq fun i => ?_
    have empty : (0 : Int).testBit i = false := Nat.zero_testBit i
    rw [Bitwise.testBit_or, empty, Bool.false_or]
  -- Each value is joined to a word that is shorter than its place.
  have joined (value : Int) (place : Nat) (word : Int) (hvalue : 0 ≤ value) (hword : 0 ≤ word)
      (below : word < 2 ^ place)
      : Bitwise.or word (value * 2 ^ place) = word + value * 2 ^ place := by
    rw [Bitwise.or_comm, Bitwise.or_eq_add hvalue hword below, Int.add_comm]
  simp only [toWord, Field.all, List.foldl_cons, List.foldl_nil, get, Operands.get,
    Field.shift, Slot.index, opcodeBits, operandBits, powerOfTwo_eq, pow_zero, mul_one, zero_or]
  rw [joined _ (5 + 0 * 9) _ hfirst.1 hcode.1 (by omega),
    joined _ (5 + 1 * 9) _ hsecond.1 (by omega) (by omega),
    joined _ (5 + 2 * 9) _ hthird.1 (by omega) (by omega)]

theorem ofWord_eq (word : Int)
    : ofWord word
      = ⟨toUnsigned word % 2 ^ 5, ⟨toUnsigned word / 2 ^ 5 % 2 ^ 9,
          toUnsigned word / 2 ^ 14 % 2 ^ 9, toUnsigned word / 2 ^ 23 % 2 ^ 9⟩⟩ := by
  simp [ofWord, extract, Field.shift, Field.bits, Slot.index]

theorem fit_ofWord (word : Int)
    : (ofWord word).Fit := by
  rw [fit_iff, ofWord_eq]
  refine ⟨by dsimp only; omega, fun slot => ?_⟩
  cases slot <;> dsimp only [Operands.get] <;> omega

/-- Values that fit make a word of 32 bits. -/
theorem Fit.isWord_toWord {fields : Fields} (h : fields.Fit)
    : IsWord fields.toWord := by
  obtain ⟨hcode, hoperands⟩ := fields.fit_iff.mp h
  have hfirst := hoperands .first
  have hsecond := hoperands .second
  have hthird := hoperands .third
  simp only [Operands.get] at hfirst hsecond hthird
  rw [h.toWord_eq]
  simp only [IsWord, unsignedMax]
  omega

/-- The word made of all fields of an integer is its unsigned view. -/
theorem toWord_ofWord (word : Int)
    : (ofWord word).toWord = toUnsigned word := by
  have hlow := toUnsigned_nonneg word
  have hhigh := toUnsigned_lt word
  rw [(fit_ofWord word).toWord_eq]
  simp only [ofWord_eq, patternCount] at *
  omega

/-- Values that fit are found again in their word. -/
theorem Fit.ofWord_toWord {fields : Fields} (h : fields.Fit)
    : ofWord fields.toWord = fields := by
  obtain ⟨hcode, hoperands⟩ := fields.fit_iff.mp h
  have hfirst := hoperands .first
  have hsecond := hoperands .second
  have hthird := hoperands .third
  simp only [Operands.get] at hfirst hsecond hthird
  rw [h.toWord_eq]
  obtain ⟨opcode, first, second, third⟩ := fields
  simp only [ofWord_eq, toUnsigned, patternCount, Fields.mk.injEq, Operands.mk.injEq] at *
  omega

end Fields

-----------------------------------------------------------------------------------------
-- Words as bytes
-----------------------------------------------------------------------------------------

theorem isWord_toUnsigned (value : Int)
    : IsWord (toUnsigned value) :=
  ⟨toUnsigned_nonneg value, Int.lt_add_one_iff.mp (toUnsigned_lt value)⟩

theorem toNat_byteAt (word : Int) (position : Nat)
    : ((byteAt word position).toNat : Int) = word / 2 ^ (8 * position) % 2 ^ 8 := by
  simp only [byteAt, UInt8.toNat_ofNat', powerOfTwo_eq]
  omega

/-- The four bytes of a word make the word again. -/
theorem wordOfBytes_wordBytes {word : Int} (h : IsWord word)
    : wordOfBytes (byteAt word 0) (byteAt word 1) (byteAt word 2) (byteAt word 3) = word := by
  simp only [IsWord, unsignedMax] at h
  simp only [wordOfBytes, toNat_byteAt, powerOfTwo_eq]
  omega

namespace Image

/-- Words that fit into 32 bits are read back from their image, by induction on the words. -/
theorem words_ofWords {words : List Int} (h : ∀ word ∈ words, IsWord word)
    : Image.words (ofWords words) = words := by
  induction words with
  | nil => rfl
  | cons word rest ih =>
      have hword := wordOfBytes_wordBytes (h word List.mem_cons_self)
      have hrest := ih fun other member => h other (List.mem_cons_of_mem word member)
      simp only [ofWords, List.flatMap_cons, wordBytes, List.cons_append, List.nil_append,
        Image.words] at hrest ⊢
      rw [hword, hrest]

/-- The partial word at the end of an image is what remains of its length after words of four
bytes, by recursion in steps of a word.
-/
theorem truncationFrom?_eq (offset : Nat) (image : Image)
    : image.truncationFrom? offset
      = if image.length % 4 = 0 then
          none
        else
          some ⟨offset + 4 * (image.length / 4), image.length % 4⟩ := by
  fun_induction truncationFrom? offset image with
  | case1 offset a b c d rest ih =>
      rw [ih]
      have remainder : (a :: b :: c :: d :: rest).length % 4 = rest.length % 4 := by
        simp only [List.length_cons]
        omega
      have quotient : (a :: b :: c :: d :: rest).length / 4 = rest.length / 4 + 1 := by
        simp only [List.length_cons]
        omega
      rw [remainder, quotient, wordSize, Nat.mul_add, Nat.add_assoc, Nat.add_comm 4]
  | case2 => rfl
  | case3 offset rest hlong hshort =>
      rcases rest with _ | ⟨a, _ | ⟨b, _ | ⟨c, _ | ⟨d, rest⟩⟩⟩⟩
      · exact (hshort rfl).elim
      · simp
      · simp
      · simp
      · exact (hlong a b c d rest rfl).elim

/-- An image has a partial word at its end exactly when its length is no multiple of four. -/
theorem truncationFrom?_eq_none_iff (offset : Nat) (image : Image)
    : image.truncationFrom? offset = none ↔ image.length % 4 = 0 := by
  rw [truncationFrom?_eq, ite_eq_left_iff]
  simp only [reduceCtorEq, imp_false, Decidable.not_not]

theorem length_ofWords (words : List Int)
    : (ofWords words).length = 4 * words.length := by
  induction words with
  | nil => rfl
  | cons word rest ih =>
      simp only [ofWords, List.flatMap_cons, List.length_append, wordBytes, List.length_cons,
        List.length_nil] at ih ⊢
      omega

theorem ofWords_flatten (parts : List (List Int))
    : ofWords parts.flatten = (parts.map ofWords).flatten := by
  simp only [ofWords, List.flatMap_def, List.map_flatten, List.flatten_flatten, List.map_map]
  rfl

theorem truncation?_ofWords (words : List Int)
    : (ofWords words).truncation? = none := by
  rw [truncation?, truncationFrom?_eq_none_iff, length_ofWords]
  omega

theorem pack?_eq_some {words : List Int} (h : ∀ word ∈ words, IsWord word)
    : pack? words = some (ofWords words) := by
  simp only [pack?, List.all_eq_true, decide_eq_true_eq]
  rw [if_pos h]

end Image

end RegisterMachine
