import RegisterMachine.Proofs.WordFields

/-! Instruction words and the contents of their fields are in bijection.
Encoding accepts the contents that fit and names the first value that does not, if that can be
written at all; the fields tile the bits of a word, so that each bit of a word is a bit of exactly
one of them.
-/

namespace RegisterMachine

namespace Fields

-----------------------------------------------------------------------------------------
-- Contents in the order of the fields
-----------------------------------------------------------------------------------------

/-- A value for a field, with the name of the field and the greatest value that the field holds. -/
structure Entry where
  label : String
  value : Int
  limit : Int

def Entry.Fits (entry : Entry) : Prop :=
  0 ≤ entry.value ∧ entry.value ≤ entry.limit

def Entry.complaint (entry : Entry) : String :=
  entry.label ++ " " ++ decimal entry.value ++ " out of range (0-" ++ decimal entry.limit ++ ")"

/-- How a value that does not fit is refused. A complaint shows the value, so that there is none
about a value that is too long to be written.
-/
inductive Entry.Refused (entry : Entry) : EncodingError → Prop
  | named {error : FieldOutOfRange} (short : entry.value.natAbs < 10 ^ Digits.limit)
    (worded : error.message = entry.complaint)
    : entry.Refused (.outOfRange error)
  | unworded (long : 10 ^ Digits.limit ≤ entry.value.natAbs)
    : entry.Refused (.unworded .writing)

/-- The contents of a word from its low end on. -/
def entries (fields : Fields) : List Entry := [
    ⟨"Opcode", fields.opcode, 31⟩,
    ⟨"Operand1", fields.operands.first, 511⟩,
    ⟨"Operand2", fields.operands.second, 511⟩,
    ⟨"Operand3", fields.operands.third, 511⟩ ]

/-- An entry does not fit, and all before it do. -/
def FirstMisfit (fields : Fields) (entry : Entry) : Prop :=
  ∃ before after,
    fields.entries = before ++ entry :: after
    ∧ (∀ earlier ∈ before, earlier.Fits)
    ∧ ¬ entry.Fits

/-- The value in a field as an entry. -/
def entryAt (fields : Fields) (field : Field) : Entry :=
  ⟨field.label, fields.get field, field.limit⟩

theorem entries_eq (fields : Fields)
    : fields.entries = Field.all.map fields.entryAt := by
  have first : Field.label (.operand .first) = "Operand1" := by decide +kernel
  have second : Field.label (.operand .second) = "Operand2" := by decide +kernel
  have third : Field.label (.operand .third) = "Operand3" := by decide +kernel
  simp only [Field.all, List.map_cons, List.map_nil, entryAt, first, second, third, limit_operand]
  rfl

theorem fit_iff_entries (fields : Fields)
    : fields.Fit ↔ ∀ entry ∈ fields.entries, entry.Fits := by
  rw [entries_eq, List.forall_mem_map]
  constructor
  · intro fit field _
    exact fit field
  · intro h field
    exact h field field.mem_all

/-- Encoding stops at the first field whose value does not fit. -/
theorem encode_eq_error_iff (fields : Fields) (error : EncodingError)
    : fields.encode = .error error
      ↔ ∃ field before after,
          Field.all = before ++ field :: after
          ∧ (∀ earlier ∈ before, (fields.entryAt earlier).Fits)
          ∧ ¬ (fields.entryAt field).Fits
          ∧ FieldOutOfRange.complaint ⟨field, fields.get field⟩ = error := by
  have refused (field : Field)
      : (fields.get field < 0 || field.limit < fields.get field) = true
        ↔ ¬ (fields.entryAt field).Fits := by
    simp only [Entry.Fits, entryAt, Bool.or_eq_true, decide_eq_true_eq]
    omega
  have found
      : fields.encode = .error error
        ↔ ∃ field,
            Field.all.find? (fun field => fields.get field < 0 || field.limit < fields.get field)
              = some field
            ∧ FieldOutOfRange.complaint ⟨field, fields.get field⟩ = error := by
    rw [encode, firstOutOfRange?]
    cases named
      : Field.all.find? fun field => fields.get field < 0 || field.limit < fields.get field with
    | none => simp
    | some field => simp
  simp only [found, List.find?_eq_some_iff_append, refused, Bool.not_eq_true', ← Bool.not_eq_true,
    not_not]
  constructor
  · intro h
    obtain ⟨field, ⟨misfit, before, after, order, earlier⟩, same⟩ := h
    exact ⟨field, before, after, order, earlier, misfit, same⟩
  · intro h
    obtain ⟨field, before, after, order, earlier, misfit, same⟩ := h
    exact ⟨field, ⟨misfit, before, after, order, earlier⟩, same⟩

theorem refused_complaint (fields : Fields) (field : Field)
    : (fields.entryAt field).Refused (FieldOutOfRange.complaint ⟨field, fields.get field⟩) := by
  rw [FieldOutOfRange.complaint_eq]
  split
  · next short => exact .named short rfl
  · next long => exact .unworded (Nat.le_of_not_lt long)

/-- The error of an encoding is about the first entry that does not fit. -/
theorem firstMisfit_of_encode {fields : Fields} {error : EncodingError}
    (h : fields.encode = .error error)
    : ∃ entry, fields.FirstMisfit entry ∧ entry.Refused error := by
  obtain ⟨field, before, after, order, earlier, misfit, rfl⟩ := (encode_eq_error_iff _ _).mp h
  have first : fields.FirstMisfit (fields.entryAt field) := by
    refine ⟨before.map fields.entryAt, after.map fields.entryAt, ?_, ?_, misfit⟩
    · rw [entries_eq, order, List.map_append, List.map_cons]
    · exact List.forall_mem_map.mpr earlier
  exact ⟨fields.entryAt field, first, fields.refused_complaint field⟩

-----------------------------------------------------------------------------------------
-- Bits
-----------------------------------------------------------------------------------------

end Fields

/-- The field that a bit of a word belongs to. -/
def Field.ofPosition (position : Nat) : Field :=
  if position < 5 then .opcode
  else if position < 14 then .operand .first
  else if position < 23 then .operand .second
  else .operand .third

/-- The fields cover the bits of a word without a gap and without an overlap. -/
theorem Field.covers_iff (field : Field) (position : Nat)
    : field.shift ≤ position ∧ position < field.shift + field.bits
      ↔ position < 32 ∧ Field.ofPosition position = field := by
  unfold ofPosition
  rcases field with _ | slot
  · simp only [shift, bits, opcodeBits]
    grind
  · cases slot with
    | first | second | third =>
        simp only [shift, bits, opcodeBits, operandBits, Slot.index]
        grind

theorem Field.existsUnique_covers {position : Nat} (below : position < 32)
    : ∃! field : Field, field.shift ≤ position ∧ position < field.shift + field.bits := by
  simp only [covers_iff]
  exact ⟨Field.ofPosition position, ⟨below, rfl⟩, fun other covers => covers.2.symm⟩

namespace Fields

/-- The bits of a field are those of the word from the shift of the field on. -/
theorem testBit_extract (word : Int) (field : Field) (i : Nat)
    : (extract word field).testBit i
      = (decide (i < field.bits) && word.testBit (field.shift + i)) := by
  obtain ⟨n, view⟩ := Int.eq_ofNat_of_zero_le (toUnsigned_nonneg word)
  have bits
      : n.testBit (field.shift + i)
        = (decide (field.shift + i < 32) && word.testBit (field.shift + i)) := by
    rw [← testBit_toUnsigned, view]
    rfl
  have contents : extract word field = ((n / 2 ^ field.shift % 2 ^ field.bits : Nat) : Int) := by
    rw [extract, view, powerOfTwo_eq, powerOfTwo_eq]
    norm_cast
  rw [contents]
  change Nat.testBit _ i = _
  rw [Nat.testBit_mod_two_pow, Nat.testBit_div_two_pow, Nat.add_comm i, bits]
  by_cases inside : i < field.bits
  · have below : field.shift + i < 32 := ((field.covers_iff _).mp ⟨by omega, by omega⟩).1
    simp [inside, below]
  · simp [inside]

/-- The bits of each field of an integer are those of the integer from the shift of the field on. -/
theorem testBit_get_ofWord (word : Int) (field : Field) (i : Nat)
    : ((ofWord word).get field).testBit i
      = (decide (i < field.bits) && word.testBit (field.shift + i)) := by
  rw [← testBit_extract]
  rcases field with _ | slot
  · rfl
  · cases slot <;> rfl

-----------------------------------------------------------------------------------------
-- Encoding and decoding
-----------------------------------------------------------------------------------------

/-- Encoding and decoding undo each other, and encoding refuses exactly what it cannot undo.
Contents are encoded exactly if every value lies in the range of its field. Their word then has 32
bits and is decoded into the same contents; otherwise the error names the first value out of its
range, from the low end of the word on, unless that value is too long to be written. Every integer,
a negative one or a longer one too, is decoded into contents that fit, and these are encoded into
its lowest 32 bits. So there is exactly one way to encode each word: the fields tile its bits, and
the bits of a field are found in the word from the shift of the field on.
-/
theorem encoding_inverts_decoding (fields : Fields) (word : Int)
    : ((∃ word, fields.encode = .ok word) ↔ ∀ entry ∈ fields.entries, entry.Fits)
      ∧ (fields.encode = .ok word → IsWord word ∧ ofWord word = fields)
      ∧ (∀ error,
          fields.encode = .error error
          → ∃ entry, fields.FirstMisfit entry ∧ entry.Refused error)
      ∧ (∀ entry ∈ (ofWord word).entries, entry.Fits)
      ∧ (ofWord word).encode = .ok (word % 2 ^ 32)
      ∧ (∀ field i,
          ((ofWord word).get field).testBit i
          = (decide (i < field.bits) && word.testBit (field.shift + i)))
      ∧ (∀ position < 32,
          ∃! field : Field, field.shift ≤ position ∧ position < field.shift + field.bits)
      ∧ (IsWord word → ∃! fields : Fields, fields.encode = .ok word) := by
  have decoded : (ofWord word).encode = .ok (toUnsigned word) :=
    (encode_eq_ok_iff _ _).mpr ⟨fit_ofWord word, toWord_ofWord word⟩
  have undone {fields : Fields} (encoded : fields.encode = .ok word)
      : IsWord word ∧ ofWord word = fields := by
    obtain ⟨fit, rfl⟩ := (encode_eq_ok_iff _ _).mp encoded
    exact ⟨fit.isWord_toWord, fit.ofWord_toWord⟩
  refine ⟨?_, undone, fun error => firstMisfit_of_encode, (fit_iff_entries _).mp (fit_ofWord word),
    decoded, testBit_get_ofWord word, fun position => Field.existsUnique_covers, fun bounds => ?_⟩
  · simp only [encode_eq_ok_iff, fit_iff_entries, exists_and_left, exists_eq', and_true]
  · have same : toUnsigned word = word := by
      simp only [IsWord, unsignedMax] at bounds
      rw [toUnsigned, patternCount]
      omega
    refine ⟨ofWord word, ?_, fun fields encoded => (undone encoded).2.symm⟩
    exact decoded.trans (congrArg Except.ok same)

end Fields

end RegisterMachine
