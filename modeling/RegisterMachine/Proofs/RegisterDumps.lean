import RegisterMachine.Proofs.PositionalNotation
import RegisterMachine.Proofs.RegisterInvariant
import RegisterMachine.Proofs.UnbrokenTexts
import RegisterMachine.Proofs.WordEffects

/-! Registers can be shown in two ways, and both show all that they hold.
A word writes a line for each of them, and a record of the log has an entry for each of them that is
not zero. Either text can be taken apart again.
-/

namespace RegisterMachine

-----------------------------------------------------------------------------------------
-- Lines for all registers
-----------------------------------------------------------------------------------------

/-- A word that writes the numerals of all registers in a base. -/
structure IsListingWord (base word : Int) : Prop where
  known : Operation.ofCode? (Fields.ofWord word).opcode = some .printRegisters
  first : (Fields.ofWord word).operands.first = base

/-- A heading and one more line for each register, with its number and its numeral in a base. -/
structure IsListing (registers : Registers) (base : Int) (lines : List String) : Prop where
  length : lines.length = registers.size + 1
  heading : lines[0]? = some "Register Values:"
  register
    : ∀ (index : Nat) (value : Int),
        registers.cells[index]? = some value
        → ∃ numeral,
            printNumeral value base = .ok numeral
            ∧ lines[index + 1]? = some ("R" ++ decimal index ++ ": " ++ numeral)

/-- Two register files of one size are equal if they hold equal values at every index. -/
theorem Registers.ext_cells {first second : Registers} (size : first.size = second.size)
    (h
      : ∀ (index : Nat) (value value' : Int),
          first.cells[index]? = some value
          → second.cells[index]? = some value'
          → value = value')
    : first = second := by
  refine congrArg Registers.mk (List.ext_getElem size fun index inside inside' => ?_)
  exact h index _ _ (List.getElem?_eq_getElem inside) (List.getElem?_eq_getElem inside')

section
variable {count : Nat} {base : Int} {registers first second : Registers}

theorem isListing_listing (valid : IsBase base) (registers : Registers)
    : IsListing registers base ((registers.listing base.toNat).map Line.text) := by
  constructor
  · simp only [Registers.listing, Registers.size, List.length_map, List.length_cons,
      List.length_zipIdx]
  · rw [Registers.listing, List.map_cons]
    exact List.getElem?_cons_zero
  · intro index value held
    refine ⟨numeral base.toNat value, printNumeral_eq valid value, ?_⟩
    simp only [Registers.listing, List.map_cons, List.map_map, List.getElem?_cons_succ,
      List.getElem?_map, List.getElem?_zipIdx, held, Option.map_some, Function.comp_apply,
      Nat.zero_add]
    rfl

/-- The numerals in the lines can be told apart, since the registers hold signed values. -/
theorem IsListing.registers_eq (valid : IsBase base) (h : first.Intact count)
    (h' : second.Intact count) {lines : List String} (listing : IsListing first base lines)
    (listing' : IsListing second base lines)
    : first = second := by
  apply Registers.ext_cells (h.size.trans h'.size.symm)
  intro index value value' held held'
  obtain ⟨numeral, printed, line⟩ := listing.register index value held
  obtain ⟨numeral', printed', line'⟩ := listing'.register index value' held'
  obtain rfl : numeral = numeral' :=
    (String.append_right_inj _).mp (Option.some.inj (line.symm.trans line'))
  rw [printNumeral_eq valid] at printed printed'
  have same := (Except.ok.inj printed).trans (Except.ok.inj printed').symm
  exact eq_of_toUnsigned_eq (h.signed value (List.mem_of_getElem? held))
    (h'.signed value' (List.mem_of_getElem? held')) ((numeral_eq_numeral_iff valid).mp same)

/-- The lines are found again by splitting their text at the line feeds. -/
theorem splitOn_listing (valid : IsBase base) (registers : Registers)
    : (outputText (registers.listing base.toNat)).toList.splitOn '\n'
      = ((registers.listing base.toNat).map Line.text).map String.toList ++ [[]] := by
  have rule : Yields registers ⟨base, 0, 0⟩ .printAll (.report (registers.listing base.toNat)) :=
    .printAll valid
  exact Text.splitOn_unlines (List.forall_mem_map.mpr rule.report_unbroken)

/-- Registers are listed alike only if they are equal. -/
theorem registers_eq_of_listing (valid : IsBase base) (h : first.Intact count)
    (h' : second.Intact count)
    (same
      : outputText (first.listing base.toNat) = outputText (second.listing base.toNat))
    : first = second := by
  have split := splitOn_listing valid first
  rw [same, splitOn_listing valid second] at split
  have lines :=
    List.map_injective_iff.mpr (fun _ _ => String.toList_injective)
      (List.append_cancel_right split)
  have listed := isListing_listing valid second
  exact (isListing_listing valid first).registers_eq valid h h' (lines ▸ listed)

theorem IsListingWord.text_step {word : Int} (h : IsListingWord base word) (valid : IsBase base)
    (machine : Machine)
    : (machine.step word).text = outputText (machine.registers.listing base.toNat) := by
  obtain ⟨known, rfl⟩ := h
  have rule
      : Yields machine.registers (Fields.ofWord word).operands Operation.printRegisters.action
          (.report (machine.registers.listing (Fields.ofWord word).operands.first.toNat)) :=
    .printAll valid
  obtain ⟨-, lines, -, -⟩ := machine.step_alike_carryOut word
  rw [Registers.wordEffect_of_yields known rule] at lines
  rw [Outcome.text, lines]
  rfl

end

-----------------------------------------------------------------------------------------
-- Patterns
-----------------------------------------------------------------------------------------

namespace Digits

/-- Digits of a fixed number stand for a number without what is above them, by induction on how many
there are.
-/
theorem exists_padded {base : Nat} (positive : 0 < base) (width n : Nat)
    : ∃ digits : List Nat,
        digits.length = width
        ∧ (∀ digit ∈ digits, digit < base)
        ∧ padded base width n = digits.map char
        ∧ Nat.ofDigits base digits.reverse = n % base ^ width := by
  induction width generalizing n with
  | zero => exact ⟨[], rfl, List.forall_mem_nil _, rfl, (Nat.mod_one n).symm⟩
  | succ width ih =>
      obtain ⟨digits, length, below, written, value⟩ := ih (n / base)
      refine ⟨digits ++ [n % base], ?_, ?_, ?_, ?_⟩
      · rw [List.length_append, length, List.length_singleton]
      · rw [List.forall_mem_append, List.forall_mem_singleton]
        exact ⟨below, Nat.mod_lt n positive⟩
      · rw [padded, written, List.map_append, List.map_singleton]
      · rw [List.reverse_append, List.reverse_singleton, List.singleton_append, Nat.ofDigits_cons,
          value, pow_succ', Nat.mod_mul]

/-- The characters of hexadecimal digits in upper case, in the order of their values. -/
def patternAlphabet : List Char :=
  "0123456789ABCDEF".toList

theorem patternAlphabet_eq
    : patternAlphabet = (List.range 16).map (Char.toUpper ∘ char) := by
  decide +kernel

end Digits

open Digits

/-- A text of eight hexadecimal digits that stand for the unsigned view of an integer. -/
structure IsPattern (value : Int) (text : String) : Prop where
  length : text.length = 8
  listed : ∀ c ∈ text.toList, c ∈ patternAlphabet
  value : (positionalValue patternAlphabet text.toList : Int) = value % 2 ^ 32

theorem isPattern_patternText (value : Int)
    : IsPattern value (Registers.patternText value) := by
  obtain ⟨digits, length, below, written, same⟩ :=
    exists_padded (by decide : 0 < 16) 8 (toUnsigned value).toNat
  have text
      : (Registers.patternText value).toList = digits.map (Char.toUpper ∘ char) := by
    rw [Registers.patternText, String.toList_ofList, written, List.map_map]
  have distinct : ((List.range 16).map (Char.toUpper ∘ char)).Nodup := by decide +kernel
  refine ⟨?_, ?_, ?_⟩
  · rw [← String.length_toList, text, List.length_map, length]
  · intro c member
    rw [text] at member
    obtain ⟨digit, inside, rfl⟩ := List.mem_map.mp member
    rw [patternAlphabet_eq]
    exact List.mem_map_of_mem (List.mem_range.mpr (below digit inside))
  · have view : toUnsigned value = value % 2 ^ 32 := rfl
    rw [text, patternAlphabet_eq, positionalValue_map distinct below, same, view]
    omega

/-- A signed value is known from its pattern. -/
theorem IsPattern.value_eq {value value' : Int} {text : String} (h : IsPattern value text)
    (h' : IsPattern value' text) (signed : IsSigned value) (signed' : IsSigned value')
    : value = value' :=
  eq_of_toUnsigned_eq signed signed' (h.value.symm.trans h'.value)

-----------------------------------------------------------------------------------------
-- Entries for the registers that are not zero
-----------------------------------------------------------------------------------------

/-- The number of a register with the pattern of the value that it holds. -/
inductive IsEntry (registers : Registers) (index : Nat) (entry : String) : Prop
  | cell {value : Int} {pattern : String} (held : registers.cells[index]? = some value)
    (shown : IsPattern value pattern) (written : entry = "R" ++ decimal index ++ ":" ++ pattern)

/-- A record of all registers: one entry for each of them that is not zero, in the order of their
numbers, or a remark that there are none.
-/
inductive IsDump (registers : Registers) (text : String) : Prop
  | zero (zero : ∀ value ∈ registers.cells, value = 0) (said : text = "all registers zero")
  | entries {shown : List Nat} {entries : List String} (nonempty : shown ≠ [])
    (increasing : shown.Pairwise (· < ·))
    (nonzero
      : ∀ index, index ∈ shown ↔ ∃ value, registers.cells[index]? = some value ∧ value ≠ 0)
    (written : List.Forall₂ (IsEntry registers) shown entries)
    (joined : text = " ".intercalate entries)

theorem Registers.mem_nonZero {registers : Registers} {index : Nat} {value : Int}
    : (index, value) ∈ registers.nonZero
      ↔ registers.cells[index]? = some value ∧ value ≠ 0 := by
  simp only [nonZero, List.mem_map, List.mem_filter, decide_eq_true_eq, Prod.exists,
    Prod.mk.injEq]
  constructor
  · rintro ⟨value, index, ⟨member, nonzero⟩, rfl, rfl⟩
    exact ⟨List.mem_zipIdx_iff_getElem?.mp member, nonzero⟩
  · rintro ⟨held, nonzero⟩
    exact ⟨value, index, ⟨List.mem_zipIdx_iff_getElem?.mpr held, nonzero⟩, rfl, rfl⟩

theorem Registers.nonZero_increasing (registers : Registers)
    : (registers.nonZero.map Prod.fst).Pairwise (· < ·) := by
  have indices : (registers.cells.zipIdx.map Prod.snd).Pairwise (· < ·) := by
    rw [List.zipIdx_map_snd]
    exact List.pairwise_lt_range'
  have part := List.filter_sublist (l := registers.cells.zipIdx) (p := fun cell => cell.1 ≠ 0)
  rw [nonZero, List.map_map]
  exact indices.sublist (part.map Prod.snd)

theorem isDump_dump (registers : Registers)
    : IsDump registers registers.dump := by
  rw [Registers.dump]
  split
  · next none =>
      refine .zero (fun value member => ?_) rfl
      obtain ⟨index, held⟩ := List.getElem?_of_mem member
      by_contra nonzero
      exact List.ne_nil_of_mem (Registers.mem_nonZero.mpr ⟨held, nonzero⟩) none
  · next some =>
      refine .entries (by rwa [ne_eq, List.map_eq_nil_iff]) registers.nonZero_increasing
        (fun index => ?_) ?_ rfl
      · simp only [List.mem_map, Prod.exists, Registers.mem_nonZero]
        exact exists_comm.trans (by simp only [exists_eq_right])
      · rw [List.forall₂_map_left_iff, List.forall₂_map_right_iff, List.forall₂_same]
        rintro ⟨index, value⟩ member
        exact .cell (Registers.mem_nonZero.mp member).1 (isPattern_patternText value) rfl

section
variable {count index index' : Nat} {first second registers : Registers} {text : String}

theorem decimal_injective
    : Function.Injective decimal := by
  intro first second same
  exact (Assembly.isInteger_decimal first).unique (same ▸ Assembly.isInteger_decimal second)

/-- Neither a blank nor a colon is a part of a number or of a pattern. -/
theorem joint_notMem {joint : Char} (h : joint = ' ' ∨ joint = ':') (index value : Int)
    {pattern : String} (shown : IsPattern value pattern)
    : joint ∉ (decimal index).toList ∧ joint ∉ pattern.toList := by
  constructor
  · intro member
    have character := isNumeralChar_decimal member
    rw [IsNumeralChar] at character
    rcases h with rfl | rfl <;> exact absurd character (by decide)
  · intro member
    have character := shown.listed joint member
    rcases h with rfl | rfl <;> exact absurd character (by decide)

theorem toList_entry (number pattern : String)
    : ("R" ++ number ++ ":" ++ pattern).toList
      = 'R' :: number.toList ++ ':' :: pattern.toList := by
  have letter : "R".toList = ['R'] := rfl
  have colon : ":".toList = [':'] := rfl
  simp only [String.toList_append, letter, colon, List.append_assoc, List.cons_append,
    List.nil_append]

theorem IsEntry.head?_toList (h : IsEntry registers index text)
    : text.toList.head? = some 'R' := by
  obtain ⟨_, _, rfl⟩ := h
  rw [toList_entry]
  rfl

theorem IsEntry.blank_notMem (h : IsEntry registers index text)
    : ' ' ∉ text.toList := by
  obtain ⟨_, shown, rfl⟩ := h
  obtain ⟨number, pattern⟩ := joint_notMem (Or.inl rfl) index _ shown
  rw [toList_entry, List.mem_append, List.mem_cons, List.mem_cons, not_or, not_or, not_or]
  exact ⟨⟨by decide, number⟩, by decide, pattern⟩

/-- An entry has its only colon between the number and the pattern, and both can be read back. -/
theorem IsEntry.cells_eq (h : first.Intact count) (h' : second.Intact count)
    (entry : IsEntry first index text) (entry' : IsEntry second index' text)
    : index = index' ∧ first.cells[index]? = second.cells[index']? := by
  obtain ⟨held, shown, written⟩ := entry
  obtain ⟨held', shown', written'⟩ := entry'
  obtain ⟨number, pattern⟩ := joint_notMem (Or.inr rfl) index _ shown
  have same := congrArg String.toList (written.symm.trans written')
  have prefixed := List.not_mem_cons_of_ne_of_not_mem (by decide : ':' ≠ 'R') number
  rw [toList_entry, toList_entry, List.append_cons_inj_of_notMem prefixed pattern] at same
  obtain ⟨before, _, after⟩ := same
  have before := decimal_injective (String.toList_inj.mp (List.cons.inj before).2)
  obtain rfl := String.toList_inj.mp after
  have values := shown.value_eq shown' (h.signed _ (List.mem_of_getElem? held))
    (h'.signed _ (List.mem_of_getElem? held'))
  exact ⟨by exact_mod_cast before, by rw [held, held', values]⟩

/-- The entries of a record are found again by splitting it at its blanks. -/
theorem splitOn_entries {shown : List Nat} {entries : List String} (nonempty : shown ≠ [])
    (written : List.Forall₂ (IsEntry registers) shown entries)
    : (" ".intercalate entries).toList.splitOn ' ' = entries.map String.toList := by
  have apart : ∀ entry ∈ entries.map String.toList, ' ' ∉ entry := by
    refine List.forall_mem_map.mpr fun entry member => ?_
    obtain ⟨index, written⟩ := exists_of_forall₂ written.flip entry member
    exact written.blank_notMem
  have some : entries.map String.toList ≠ [] := by
    rw [ne_eq, List.map_eq_nil_iff]
    rintro rfl
    exact nonempty (List.forall₂_nil_right_iff.mp written)
  rw [String.toList_intercalate]
  exact List.splitOn_intercalate ' ' apart some

/-- The remark that all registers are zero is made only if they are, since an entry begins with a
capital letter.
-/
theorem IsDump.eq_zero_iff (h : IsDump registers text)
    : text = "all registers zero" ↔ ∀ value ∈ registers.cells, value = 0 := by
  cases h with
  | zero zero said => exact iff_of_true said zero
  | @entries shown entries nonempty _ nonzero written joined =>
      obtain ⟨index, rest, rfl⟩ := List.exists_cons_of_ne_nil nonempty
      obtain ⟨value, held, different⟩ := (nonzero index).mp List.mem_cons_self
      refine iff_of_false (fun remark => ?_) fun zero => ?_
      · have split := splitOn_entries nonempty written
        obtain ⟨entry, _, first, _, rfl⟩ := List.forall₂_cons_left_iff.mp written
        rw [← joined, remark, List.map_cons] at split
        have head := first.head?_toList
        rw [← (List.cons.inj split).1] at head
        exact absurd head (by decide)
      · exact different (zero value (List.mem_of_getElem? held))

/-- A register that is not zero has an entry, and where the other record has the same entry the
registers agree.
-/
theorem IsDump.cells_eq (h : first.Intact count) (h' : second.Intact count)
    (dump : IsDump first text) (dump' : IsDump second text) {value : Int}
    (held : first.cells[index]? = some value) (different : value ≠ 0)
    : second.cells[index]? = some value := by
  have member := List.mem_of_getElem? held
  cases dump with
  | zero zero => exact absurd (zero value member) different
  | @entries shown entries nonempty increasing nonzero written joined =>
      cases dump' with
      | zero _ said =>
          have dump := IsDump.entries nonempty increasing nonzero written joined
          have zero := dump.eq_zero_iff.mp said
          exact absurd (zero value member) different
      | @entries shown' entries' nonempty' _ _ written' joined' =>
          have split := splitOn_entries nonempty written
          rw [← joined, joined', splitOn_entries nonempty' written'] at split
          obtain rfl := List.map_injective_iff.mpr (fun _ _ => String.toList_injective) split
          have shared := forall₂_comp_iff.mpr ⟨_, written, written'.flip⟩
          have shown := (nonzero index).mpr ⟨value, held, different⟩
          obtain ⟨index', entry, here, there⟩ := exists_of_forall₂ shared index shown
          obtain ⟨rfl, same⟩ := here.cells_eq h h' there
          rw [← same, held]

/-- Two records that are the same text show the same registers. Where either of two registers is not
zero they agree, and elsewhere both are zero.
-/
theorem IsDump.registers_eq (h : first.Intact count) (h' : second.Intact count)
    (dump : IsDump first text) (dump' : IsDump second text)
    : first = second := by
  apply Registers.ext_cells (h.size.trans h'.size.symm)
  intro index value value' held held'
  by_cases different : value ≠ 0
  · have same := dump.cells_eq h h' dump' held different
    exact Option.some.inj (same.symm.trans held')
  · by_cases different' : value' ≠ 0
    · have same := dump'.cells_eq h' h dump held' different'
      exact Option.some.inj (held.symm.trans same)
    · exact (not_not.mp different).trans (not_not.mp different').symm

end

-----------------------------------------------------------------------------------------
-- Machines
-----------------------------------------------------------------------------------------

/-- Two machines with the same number of registers show the same exactly if the registers are equal.
A word that lists them in a base writes a heading and a line for each of them. The record has one
entry for each register that is not zero, or a remark exactly if there are none.
-/
theorem Machine.dumps_are_faithful {count : Nat} {first second : Machine}
    (h : first.registers.Intact count) (h' : second.registers.Intact count)
    : (∀ base word word' : Int,
        IsBase base
        → IsListingWord base word
        → IsListingWord base word'
        → (∃ lines : List String,
            IsListing first.registers base lines
            ∧ (first.step word).text.toList.splitOn '\n' = lines.map String.toList ++ [[]])
          ∧ ((first.step word).text = (second.step word').text
            ↔ first.registers = second.registers))
      ∧ ∀ output output' : List Line,
        ∃ record record' : LogRecord,
          (Session.perform ⟨first, output⟩ .dump).events = [.logged record]
          ∧ (Session.perform ⟨second, output'⟩ .dump).events = [.logged record']
          ∧ IsDump first.registers record.message
          ∧ (record.message = "all registers zero"
            ↔ ∀ value ∈ first.registers.cells, value = 0)
          ∧ (record.message = record'.message ↔ first.registers = second.registers) := by
  constructor
  · intro base word word' valid listing listing'
    rw [listing.text_step valid, listing'.text_step valid]
    refine ⟨⟨_, isListing_listing valid first.registers, splitOn_listing valid _⟩,
      registers_eq_of_listing valid h h', fun same => ?_⟩
    rw [same]
  · intro output output'
    have dump := isDump_dump first.registers
    have dump' := isDump_dump second.registers
    have unique (same : first.registers.dump = second.registers.dump) :=
      dump.registers_eq h h' (same ▸ dump')
    exact ⟨_, _, rfl, rfl, dump, dump.eq_zero_iff, unique, congrArg Registers.dump⟩

/-- Registers that differ in a sign are told apart by their lines and by their records. -/
theorem Machine.dumps_are_faithful_sign
    : IsListingWord 16 512
      ∧ (Machine.step ⟨⟨[0, -1]⟩, none⟩ 512).text ≠ (Machine.step ⟨⟨[0, 1]⟩, none⟩ 512).text
      ∧ Registers.dump ⟨[0, -1]⟩ = "R1:FFFFFFFF"
      ∧ Registers.dump ⟨[0, -1]⟩ ≠ Registers.dump ⟨[0, 1]⟩ := by
  have listing : IsListingWord 16 512 := ⟨by decide +kernel, by decide +kernel⟩
  have intact : Registers.Intact 2 ⟨[0, -1]⟩ := ⟨rfl, by decide⟩
  have intact' : Registers.Intact 2 ⟨[0, 1]⟩ := ⟨rfl, by decide⟩
  have different : (⟨[0, -1]⟩ : Registers) ≠ ⟨[0, 1]⟩ := by decide
  obtain ⟨lines, records⟩ :=
    @Machine.dumps_are_faithful 2 ⟨⟨[0, -1]⟩, none⟩ ⟨⟨[0, 1]⟩, none⟩ intact intact'
  obtain ⟨_, _, logged, logged', _, _, same⟩ := records [] []
  cases logged
  cases logged'
  have told := (lines 16 512 512 (by decide) listing listing).2
  exact ⟨listing, told.not.mpr different, by decide +kernel, same.not.mpr different⟩

end RegisterMachine
