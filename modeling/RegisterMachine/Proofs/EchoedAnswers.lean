import RegisterMachine.Proofs.CanonicalNumerals
import RegisterMachine.Proofs.Footprints
import RegisterMachine.Proofs.ImageRuns
import RegisterMachine.Proofs.QuestionsAsked

/-! Numerals on their way through a machine: they come in as answers and go out as lines.
What was entered is printed in its canonical form, and what was printed can be entered again.
-/

namespace RegisterMachine

open Digits

-----------------------------------------------------------------------------------------
-- Words about a register and a base
-----------------------------------------------------------------------------------------

/-- A word of an operation whose operands are a register and a base. -/
structure IsNumeralWord (operation : Operation) (register base word : Int) : Prop where
  known : Operation.ofCode? (Fields.ofWord word).opcode = some operation
  first : (Fields.ofWord word).operands.first = register
  second : (Fields.ofWord word).operands.second = base

namespace IsNumeralWord

variable {machine : Machine} {register base word : Int}

theorem question? (h : IsNumeralWord .inputOperand register base word) (valid : IsBase base)
    (contained : machine.registers.Contains register)
    : question? machine.registers.size word = some ⟨register, base⟩ := by
  obtain ⟨known, rfl, rfl⟩ := h
  exact if_pos ⟨known, contained.2, valid⟩

/-- An input word stores the value of the text that is entered for it. -/
theorem step_of_entered (h : IsNumeralWord .inputOperand register base word) (valid : IsBase base)
    (contained : machine.registers.Contains register) {text : String} {answers : List Answer}
    (prompt : machine.prompt = some (.entered text :: answers)) {value : Int}
    (read : readNumeral text base = .ok value)
    : (machine.step word).Alike
        (.after (.asked ⟨register, base⟩)
          (.idle ⟨machine.registers.store register value, some answers⟩)) := by
  have taken := Machine.step_of_question (h.question? valid contained) prompt
  simp only [List.headD_cons, List.tail_cons, Machine.accept, read] at taken
  exact taken

/-- A print word writes the numeral of its register. -/
theorem step_of_print (h : IsNumeralWord .printOperand register base word) (valid : IsBase base)
    (contained : machine.registers.Contains register)
    : (machine.step word).Alike
        (.writing machine
          [.register register (numeral base.toNat (machine.registers.value register))]) := by
  obtain ⟨known, rfl, rfl⟩ := h
  have carried := machine.step_alike_carryOut word
  rw [Registers.wordEffect_of_yields known (.printOne contained valid)] at carried
  exact carried

end IsNumeralWord

-----------------------------------------------------------------------------------------
-- Registers over a run
-----------------------------------------------------------------------------------------

namespace Machine

/-- A register that is no destination of the words of a run keeps its value over the run, and the
number of registers stays the same.
-/
theorem get_steps_of_not_mem (machine : Machine) {words : List Int} {index : Int}
    (untouched
      : ∀ word ∈ words, index ∉ (Footprint.ofWord machine.registers.size word).destinations)
    : (machine.steps words).machine.registers.get index = machine.registers.get index := by
  have within
      : (machine.steps words).Within
          (fun state =>
            state.registers.size = machine.registers.size
            ∧ state.registers.get index = machine.registers.get index)
          (fun _ => True) fun _ => True := by
    apply steps_within
    · intro word member state same
      obtain ⟨size, kept⟩ := same
      have outside := untouched word member
      rw [← size] at outside
      exact ⟨⟨(state.size_step word).trans size, (get_step_of_not_mem state outside).trans kept⟩,
        fun _ _ => trivial, fun _ _ => trivial⟩
    · exact ⟨rfl, rfl⟩
  exact within.state.2

end Machine

-----------------------------------------------------------------------------------------
-- Echoes
-----------------------------------------------------------------------------------------

/-- A program that asks for the value of a register in a base and prints the register in the same
base later, with a text as the answer. Other words may come first and in between; those in between
leave the register alone, and no failure of the prompt stops the run before the end.
-/
structure AsksAndPrints (machine : Machine) (register base : Int) (text : String)
    (before : List Int) (ask : Int) (between : List Int) (print : Int)
    : Prop where
  asks : IsNumeralWord .inputOperand register base ask
  prints : IsNumeralWord .printOperand register base print
  contained : machine.registers.Contains register
  entered : ∃ answers, (machine.steps before).machine.prompt = some (.entered text :: answers)
  untouched
    : ∀ word ∈ between, register ∉ (Footprint.ofWord machine.registers.size word).destinations
  whole : (machine.steps (before ++ ask :: between)).escaped = none

namespace AsksAndPrints

variable {machine : Machine} {register base : Int} {text : String} {before between : List Int}
  {ask print : Int}

/-- When the register is printed it still holds what was entered. -/
theorem get_steps
    (h : AsksAndPrints machine register base text before ask between print)
    (valid : IsBase base) {value : Int} (read : readNumeral text base = .ok value)
    : (machine.steps (before ++ ask :: between)).machine.registers.get register
      = .ok (toSigned value) := by
  obtain ⟨answers, entered⟩ := h.entered
  have whole := h.whole
  rw [Machine.steps_append, Outcome.escaped_andThen_eq_none_iff] at whole
  rw [Machine.steps_append, Outcome.machine_andThen whole.1, Machine.steps]
  have size := machine.size_steps before
  have contained : (machine.steps before).machine.registers.Contains register := by
    simpa only [Registers.Contains, size] using h.contained
  obtain ⟨stored, _, _, escaped⟩ := h.asks.step_of_entered valid contained entered read
  rw [Outcome.machine_andThen escaped, stored]
  refine (Machine.get_steps_of_not_mem _ fun word member => ?_).trans ?_
  · have outside := h.untouched word member
    rwa [← size, ← Registers.size_store (machine.steps before).machine.registers register value]
      at outside
  · exact (Registers.get_store contained value register).trans (if_pos rfl)

/-- What is printed is the numeral of what was entered. -/
theorem linesAfter_eq
    (h : AsksAndPrints machine register base text before ask between print)
    (valid : IsBase base) {value : Int} (read : readNumeral text base = .ok value)
    : machine.linesAfter (before ++ ask :: between) print
      = [.register register (numeral base.toNat value)] := by
  obtain ⟨contained, held⟩ := Registers.get_eq_ok_iff.mp (h.get_steps valid read)
  have same : SameView (toSigned value) value := toUnsigned_toSigned value
  rw [Machine.linesAfter, (h.prints.step_of_print valid contained).lines, held,
    (numeral_eq_numeral_iff valid).mpr same]
  rfl

end AsksAndPrints

/-- A numeral that one machine prints gives the register its value on another when it is entered
there. Nothing is written then.
-/
theorem IsNumeralWord.restores {first : Machine} {register base ask print : Int}
    (asks : IsNumeralWord .inputOperand register base ask)
    (prints : IsNumeralWord .printOperand register base print) (valid : IsBase base)
    (signed : ∀ value ∈ first.registers.cells, IsSigned value)
    (contained : first.registers.Contains register)
    : ∃ printed,
        (first.step print).lines = [.register register printed]
        ∧ ∀ (second : Machine) (answers : List Answer),
            second.registers.Contains register
            → second.prompt = some (.entered printed :: answers)
            → (second.step ask).machine.registers.get register = first.registers.get register
              ∧ (second.step ask).lines = []
              ∧ (second.step ask).escaped = none := by
  refine ⟨_, (prints.step_of_print valid contained).lines, ?_⟩
  intro second answers contained' prompt
  obtain ⟨stored, lines, _, escaped⟩ :=
    asks.step_of_entered valid contained' prompt (readNumeral_numeral valid _)
  have held := Registers.isSigned_value signed contained
  refine ⟨?_, lines, escaped⟩
  rw [stored]
  refine (Registers.get_store contained' _ register).trans ?_
  rw [if_pos rfl, toSigned_eq_self held, toSigned_eq_self held,
    Registers.get_eq_of_contains contained]

-----------------------------------------------------------------------------------------
-- Printing and reading
-----------------------------------------------------------------------------------------

/-- In every base, printing and reading numerals undo each other.
What is printed is read as the signed view, so that integers are printed alike exactly if they are
the same modulo the number of patterns. What is read is printed in its canonical form; in bases
other than ten this is said of texts without a minus sign. Programs do the same with answers: they
print the canonical form of what was entered, and what was printed gives a register its value again.
-/
theorem printing_inverts_reading {base : Int} (valid : IsBase base)
    : (∀ value,
        ∃ text,
          printNumeral value base = .ok text ∧ readNumeral text base = .ok (toSigned value))
      ∧ (∀ first second,
          printNumeral first base = printNumeral second base
          ↔ first ≡ second [ZMOD patternCount])
      ∧ (∀ text value,
          readNumeral text base = .ok value
          → base = 10 ∨ '-' ∉ text.toList
          → ∃ form, CanonicalForm base text value form ∧ printNumeral value base = .ok form)
      ∧ (∀ {machine register text before ask between print},
          AsksAndPrints machine register base text before ask between print
          → ∀ value,
              readNumeral text base = .ok value
              → '-' ∉ text.toList
              → ∃ row,
                  HasRow base.toNat text row
                  ∧ (machine.linesAfter (before ++ ask :: between) print).map Line.text
                    = ["R" ++ decimal register ++ ": " ++ String.ofList (canonicalRow row)])
      ∧ ∀ {register ask print},
          IsNumeralWord .inputOperand register base ask
          → IsNumeralWord .printOperand register base print
          → ∀ first : Machine,
              (∀ value ∈ first.registers.cells, IsSigned value)
              → first.registers.Contains register
              → ∃ printed,
                  (first.step print).lines = [.register register printed]
                  ∧ ∀ (second : Machine) (answers : List Answer),
                      second.registers.Contains register
                      → second.prompt = some (.entered printed :: answers)
                      → (second.step ask).machine.registers.get register
                          = first.registers.get register
                        ∧ (second.step ask).lines = []
                        ∧ (second.step ask).escaped = none := by
  refine ⟨fun value => ?_, fun first second => ?_, fun text value read covered => ?_, ?_, ?_⟩
  · exact ⟨_, printNumeral_eq valid value, readNumeral_numeral valid value⟩
  · rw [printNumeral_eq valid, printNumeral_eq valid, Except.ok.injEq,
      numeral_eq_numeral_iff valid, sameView_iff_modEq]
  · obtain ⟨form, canonical, printed⟩ := exists_canonicalForm valid read covered
    exact ⟨form, canonical, by rw [printNumeral_eq valid, printed]⟩
  · intro machine register text before ask between print program value read plain
    obtain ⟨form, canonical, printed⟩ := exists_canonicalForm valid read (Or.inr plain)
    have lines := congrArg (List.map Line.text) (program.linesAfter_eq valid read)
    cases canonical with
    | unsigned digits => exact ⟨_, digits, lines.trans (by rw [printed]; rfl)⟩
    | negative _ _ minus | zero _ minus => exact (plain minus).elim
  · intro register ask print asks prints first signed contained
    exact asks.restores prints valid signed contained

/-- In base sixteen a register that is asked for with capital letters, zeros in front and a plus
sign is printed without them, and a negative value comes back from its pattern.
-/
theorem printing_inverts_reading_hexadecimal
    : (∃ text, printNumeral (-1) 16 = .ok text ∧ readNumeral text 16 = .ok (-1))
      ∧ printNumeral (-1) 16 = printNumeral 4294967295 16
      ∧ (∃ form, CanonicalForm 16 " +00aB " 171 form ∧ printNumeral 171 16 = .ok form)
      ∧ (Machine.linesAfter ⟨⟨[0, 0]⟩, some [.entered " +00aB "]⟩ [262194] 262193).map Line.text
          = ["R1: ab"]
      ∧ ∃ printed,
          (Machine.step ⟨⟨[0, -5]⟩, none⟩ 262193).lines = [.register 1 printed]
          ∧ (Machine.step ⟨⟨[0, 0]⟩, some [.entered printed]⟩ 262194).machine.registers.get 1
            = .ok (-5) := by
  have valid : IsBase 16 := by decide
  have asks : IsNumeralWord .inputOperand 1 16 262194 := ⟨rfl, rfl, rfl⟩
  have prints : IsNumeralWord .printOperand 1 16 262193 := ⟨rfl, rfl, rfl⟩
  have found : Text.HasCore " +00aB ".toList "+00aB".toList := Text.hasCore_iff.mpr rfl
  have digits : IsRow 16 "00aB".toList :=
    ⟨by decide, (toNat?_eq_some_iff.mp (rfl : toNat? 16 "00aB".toList = some 171)).1⟩
  have row : HasRow 16 " +00aB " "00aB".toList := ⟨"+00aB".toList, false, found, .plus digits⟩
  have read : readNumeral " +00aB " 16 = .ok 171 :=
    (readNumeral_eq_ok_iff valid).mpr
      ⟨_, false, _, found, .plus digits, by decide, .pattern (by decide) (by decide)⟩
  have program
      : AsksAndPrints ⟨⟨[0, 0]⟩, some [.entered " +00aB "]⟩ 1 16 " +00aB " [] 262194 [] 262193 :=
    ⟨asks, prints, by decide, ⟨[], rfl⟩, List.forall_mem_nil _, rfl⟩
  obtain ⟨inverse, alike, canonical, echo, restored⟩ := printing_inverts_reading valid
  refine ⟨inverse (-1), (alike _ _).mpr (by decide), canonical _ _ read (by decide), ?_, ?_⟩
  · obtain ⟨row', digits', lines⟩ := echo program 171 read (by decide)
    obtain rfl := digits'.unique row
    exact lines.trans (by decide +kernel)
  · obtain ⟨printed, lines, entered⟩ :=
      restored asks prints ⟨⟨[0, -5]⟩, none⟩ (by decide) (by decide)
    have contained : Registers.Contains ⟨[0, 0]⟩ 1 := by decide
    exact ⟨printed, lines, (entered ⟨⟨[0, 0]⟩, _⟩ [] contained rfl).1⟩

end RegisterMachine
