import RegisterMachine.Assembly.Instruction
import RegisterMachine.Proofs.OperandTokens
import RegisterMachine.Proofs.WordFields

/-! The grammar of instructions, and the reason for which every other line is rejected.
Token errors come from the left; a base that does not fit shows only after all tokens are read.
-/

namespace RegisterMachine.Assembly

-----------------------------------------------------------------------------------------
-- Grammar
-----------------------------------------------------------------------------------------

/-- The operations that take a base, with its slot and the name of its field. -/
inductive TakesBase : Operation → Slot → String → Prop
  | printRegisters : TakesBase .printRegisters .first "Operand1"
  | printOperand : TakesBase .printOperand .second "Operand2"
  | inputOperand : TakesBase .inputOperand .second "Operand2"

/-- Each slot holds the value of its token, and zero if it has none.
Tokens are paired with the pattern as far as both go, so that missing operands stay zero and
surplus tokens are never looked at.
-/
structure Fills (operation : Operation) (tokens : List String) (operands : Operands) : Prop where
  read
    : ∀ entry ∈ operation.pattern.zip tokens,
        Reads entry.1.1 entry.2 (operands.get entry.1.2)
  zero
    : ∀ slot,
        (∀ entry ∈ operation.pattern.zip tokens, entry.1.2 ≠ slot)
        → operands.get slot = 0

/-- What a list of tokens is: an instruction, with its word, or no instruction, for a reason. -/
inductive Parses : List String → Except Rejection Int → Prop
  | empty
    : Parses [] (.error ⟨.unknownOpcode, "Empty instruction"⟩)
  | unknown {name tokens} (foreign : ∀ operation : Operation, operation.name ≠ name)
    : Parses (name :: tokens) (.error ⟨.unknownOpcode, "Invalid opcode: " ++ name⟩)
  | operand {operation : Operation} {tokens before kind slot token after rejection}
    (leftmost : operation.pattern.zip tokens = before ++ ((kind, slot), token) :: after)
    (earlier : ∀ entry ∈ before, ∃ value, Reads entry.1.1 entry.2 value)
    (bad : Rejects kind token rejection)
    : Parses (operation.name :: tokens) (.error rejection)
  | base {operation tokens operands slot label} (filled : Fills operation tokens operands)
    (takes : TakesBase operation slot label)
    (outside : operands.get slot < 0 ∨ 511 < operands.get slot)
    : Parses (operation.name :: tokens)
        (.error
          ⟨.encodingOutOfRange,
            label ++ " " ++ decimal (operands.get slot) ++ " out of range (0-511)"⟩)
  | word {operation tokens operands} (filled : Fills operation tokens operands)
    (inside
      : ∀ slot label,
          TakesBase operation slot label
          → 0 ≤ operands.get slot ∧ operands.get slot ≤ 511)
    : Parses (operation.name :: tokens)
        (.ok
          (operation.code + operands.first * 2 ^ 5 + operands.second * 2 ^ 14
            + operands.third * 2 ^ 23))

/-- What a caller sees of reading a line: the word of its instruction, or the rejection. -/
def translate (text : String) : Except Rejection Int :=
  ((issueLine text).map Issue.word).mapError InstructionError.rejection

-----------------------------------------------------------------------------------------
-- Operands of a pattern
-----------------------------------------------------------------------------------------

theorem pattern_slots_nodup (operation : Operation)
    : (operation.pattern.map Prod.snd).Nodup := by
  cases operation <;> decide

/-- Reading succeeds exactly with the operands that hold the value of every token in its slot and
are unchanged elsewhere, by induction on the pattern.
-/
theorem readOperands_eq_ok_iff {pattern : Pattern} (distinct : (pattern.map Prod.snd).Nodup)
    {tokens : List String} {start operands : Operands}
    : readOperands pattern tokens start = .ok operands
      ↔ (∀ entry ∈ pattern.zip tokens,
          readOperand entry.1.1 entry.2 = .ok (operands.get entry.1.2))
        ∧ ∀ slot,
            (∀ entry ∈ pattern.zip tokens, entry.1.2 ≠ slot)
            → operands.get slot = start.get slot := by
  induction pattern generalizing tokens start with
  | nil =>
      simp only [readOperands, List.zip_nil_left, List.not_mem_nil, false_implies, implies_true,
        true_and, true_implies, Except.ok.injEq]
      exact ⟨fun h slot => by rw [h], fun h => (Operands.ext_get h).symm⟩
  | cons entry pattern ih =>
      obtain ⟨kind, slot⟩ := entry
      obtain ⟨fresh, distinct⟩ := List.nodup_cons.mp distinct
      cases tokens with
      | nil =>
          simp only [readOperands, List.zip_nil_right, List.not_mem_nil, false_implies,
            implies_true, true_and, true_implies, Except.ok.injEq]
          exact ⟨fun h slot => by rw [h], fun h => (Operands.ext_get h).symm⟩
      | cons token tokens =>
          -- The value that is put into this slot now stays there, since no slot is listed twice.
          have hfresh : ∀ entry ∈ pattern.zip tokens, entry.1.2 ≠ slot := by
            intro entry member same
            rw [← same] at fresh
            exact fresh (List.mem_map.mpr ⟨_, (List.of_mem_zip member).1, rfl⟩)
          simp only [readOperands, List.zip_cons_cons, List.forall_mem_cons]
          cases answer : readOperand kind token with
          | error error => simp
          | ok value =>
              simp only [ih distinct, Except.ok.injEq, Operands.get_set]
              constructor
              · intro h
                obtain ⟨read, same⟩ := h
                refine ⟨⟨by simpa using (same slot hfresh).symm, read⟩, ?_⟩
                intro other hother
                have hne : other ≠ slot := fun h => hother.1 h.symm
                simpa [hne] using same other hother.2
              · intro h
                obtain ⟨⟨hvalue, read⟩, same⟩ := h
                refine ⟨read, fun other hother => ?_⟩
                by_cases hslot : other = slot
                · simp [hslot, hvalue]
                · rw [if_neg hslot]
                  exact same other ⟨fun h => hslot h.symm, hother⟩

/-- Reading fails exactly with the cause of the leftmost token that cannot be read,
by induction on the pattern.
-/
theorem readOperands_eq_error_iff {pattern : Pattern} {tokens : List String} {start : Operands}
    {error : InstructionError}
    : readOperands pattern tokens start = .error error
      ↔ ∃ before entry after,
          pattern.zip tokens = before ++ entry :: after
          ∧ (∀ earlier ∈ before, ∃ value, readOperand earlier.1.1 earlier.2 = .ok value)
          ∧ readOperand entry.1.1 entry.2 = .error error := by
  induction pattern generalizing tokens start with
  | nil => simp [readOperands]
  | cons entry pattern ih =>
      obtain ⟨kind, slot⟩ := entry
      cases tokens with
      | nil => simp [readOperands]
      | cons token tokens =>
          simp only [readOperands, List.zip_cons_cons]
          cases answer : readOperand kind token with
          | error found =>
              rw [Except.error.injEq]
              constructor
              · intro h
                subst h
                exact ⟨[], ((kind, slot), token), pattern.zip tokens, rfl, by simp, answer⟩
              · intro h
                obtain ⟨before, bad, after, split, earlier, h⟩ := h
                rcases before with _ | ⟨first, before⟩
                · obtain ⟨rfl, _⟩ := List.cons.inj split
                  exact Except.error.inj (answer.symm.trans h)
                · obtain ⟨rfl, _⟩ := List.cons.inj split
                  obtain ⟨value, read⟩ := earlier _ List.mem_cons_self
                  cases answer.symm.trans read
          | ok value =>
              simp only [ih]
              constructor
              · intro h
                obtain ⟨before, bad, after, split, earlier, h⟩ := h
                refine ⟨((kind, slot), token) :: before, bad, after, by rw [split]; rfl, ?_, h⟩
                exact List.forall_mem_cons.mpr ⟨⟨value, answer⟩, earlier⟩
              · intro h
                obtain ⟨before, bad, after, split, earlier, h⟩ := h
                rcases before with _ | ⟨first, before⟩
                · obtain ⟨rfl, _⟩ := List.cons.inj split
                  cases answer.symm.trans h
                · obtain ⟨rfl, rest⟩ := List.cons.inj split
                  exact ⟨before, bad, after, rest, (List.forall_mem_cons.mp earlier).2, h⟩

-----------------------------------------------------------------------------------------
-- Operands in their fields
-----------------------------------------------------------------------------------------

/-- The base positions of the patterns are those of the operations that take a base. -/
theorem mem_pattern_base_iff (operation : Operation) (slot : Slot)
    : (OperandKind.base, slot) ∈ operation.pattern ↔ ∃ label, TakesBase operation slot label := by
  constructor
  · intro member
    cases operation with
    | printRegisters =>
        obtain rfl : slot = .first := by simpa [Operation.pattern] using member
        exact ⟨_, .printRegisters⟩
    | printOperand =>
        obtain rfl : slot = .second := by simpa [Operation.pattern] using member
        exact ⟨_, .printOperand⟩
    | inputOperand =>
        obtain rfl : slot = .second := by simpa [Operation.pattern] using member
        exact ⟨_, .inputOperand⟩
    | _ => simp [Operation.pattern] at member
  · intro h
    obtain ⟨label, takes⟩ := h
    cases takes <;> decide

theorem TakesBase.unique {operation : Operation} {slot slot' : Slot} {label label' : String}
    (first : TakesBase operation slot label) (second : TakesBase operation slot' label')
    : slot = slot' ∧ label = label' := by
  cases first <;> cases second <;> exact ⟨rfl, rfl⟩

theorem TakesBase.label_eq {operation : Operation} {slot : Slot} {label : String}
    (h : TakesBase operation slot label)
    : (Field.operand slot).label = label := by
  cases h <;> cbv

theorem code_fits (operation : Operation)
    : (0 : Int) ≤ operation.code ∧ (operation.code : Int) ≤ 31 := by
  cases operation <;> decide

/-- Only a base can fail to fit into its field. -/
theorem Fills.inside_of_not_base {operation : Operation} {tokens : List String}
    {operands : Operands} (filled : Fills operation tokens operands) {slot : Slot}
    (nobase : ∀ label, ¬ TakesBase operation slot label)
    : 0 ≤ operands.get slot ∧ operands.get slot ≤ 511 := by
  by_cases used : ∃ entry ∈ operation.pattern.zip tokens, entry.1.2 = slot
  · obtain ⟨⟨⟨kind, _⟩, token⟩, member, rfl⟩ := used
    cases filled.read _ member with
    | register _ _ _ _ inside => exact inside
    | base =>
        have taken := (mem_pattern_base_iff operation _).mp (List.of_mem_zip member).1
        exact (nobase _ taken.choose_spec).elim
  · have hzero := filled.zero slot fun entry member same => used ⟨entry, member, same⟩
    omega

/-- What was read for a base can be written. -/
theorem Fills.natAbs_lt {operation : Operation} {tokens : List String} {operands : Operands}
    (filled : Fills operation tokens operands) {slot : Slot} {label : String}
    (takes : TakesBase operation slot label)
    : (operands.get slot).natAbs < 10 ^ Digits.limit := by
  by_cases used : ∃ entry ∈ operation.pattern.zip tokens, entry.1.2 = slot
  · obtain ⟨⟨⟨kind, _⟩, token⟩, member, rfl⟩ := used
    cases filled.read _ member with
    | register _ _ short integer => exact integer.natAbs_lt short
    | base short integer => exact integer.natAbs_lt short
  · rw [filled.zero slot fun entry member same => used ⟨entry, member, same⟩, Int.natAbs_zero]
    positivity

/-- Filled operands whose base fits make a word. -/
theorem Fills.fit {operation : Operation} {tokens : List String} {operands : Operands}
    (filled : Fills operation tokens operands)
    (inside : ∀ slot label, TakesBase operation slot label
      → 0 ≤ operands.get slot ∧ operands.get slot ≤ 511)
    : (Fields.mk operation.code operands).Fit := by
  refine (Fields.fit_iff _).mpr ⟨code_fits operation, fun slot => ?_⟩
  by_cases base : ∃ label, TakesBase operation slot label
  · obtain ⟨label, takes⟩ := base
    exact inside slot label takes
  · exact filled.inside_of_not_base fun label takes => base ⟨label, takes⟩

theorem Fills.encode_eq_ok {operation : Operation} {tokens : List String} {operands : Operands}
    (filled : Fills operation tokens operands)
    (inside : ∀ slot label, TakesBase operation slot label
      → 0 ≤ operands.get slot ∧ operands.get slot ≤ 511)
    : (Fields.mk operation.code operands).encode
      = .ok (Fields.mk operation.code operands).toWord :=
  (Fields.encode_eq_ok_iff _ _).mpr ⟨filled.fit inside, rfl⟩

/-- Filled operands whose base does not fit are rejected for the base. -/
theorem Fills.encode_eq_error {operation : Operation} {tokens : List String} {operands : Operands}
    (filled : Fills operation tokens operands) {slot : Slot} {label : String}
    (takes : TakesBase operation slot label)
    (outside : operands.get slot < 0 ∨ 511 < operands.get slot)
    : (Fields.mk operation.code operands).encode
      = .error (.outOfRange ⟨.operand slot, operands.get slot⟩) := by
  have hbad
      : ¬ (0 ≤ (Fields.mk operation.code operands).get (.operand slot)
          ∧ (Fields.mk operation.code operands).get (.operand slot)
            ≤ (Field.operand slot).limit) := by
    simp only [Fields.get, Fields.limit_operand]
    omega
  have worded := FieldOutOfRange.complaint_eq ⟨.operand slot, operands.get slot⟩
  rw [if_pos (filled.natAbs_lt takes)] at worded
  rw [← worded]
  refine Fields.encode_eq_error hbad fun field different => ?_
  rcases field with _ | other
  · exact code_fits operation
  · apply filled.inside_of_not_base
    intro label' takes'
    exact different (congrArg Field.operand (takes'.unique takes).1)

theorem TakesBase.rejection {operation : Operation} {slot : Slot} {label : String}
    (h : TakesBase operation slot label) (value : Int)
    : (InstructionError.encoding ⟨.operand slot, value⟩).rejection
      = ⟨.encodingOutOfRange, label ++ " " ++ decimal value ++ " out of range (0-511)"⟩ := by
  have hmessage
      : (InstructionError.encoding ⟨.operand slot, value⟩).message
        = (Field.operand slot).label ++ " " ++ decimal value ++ " out of range (0-"
          ++ decimal (Field.operand slot).limit ++ ")" := rfl
  rw [InstructionError.rejection, hmessage, h.label_eq, Fields.limit_operand, range_message]
  rfl

-----------------------------------------------------------------------------------------
-- Lines
-----------------------------------------------------------------------------------------

def translateTokens (tokens : List String) : Except Rejection Int :=
  match readTokens tokens with
  | .error error => .error error.rejection
  | .ok instruction =>
      match instruction.fields.encode with
      | .ok word => .ok word
      | .error (.outOfRange error) => .error (InstructionError.encoding error).rejection
      | .error (.unworded error) => .error (InstructionError.unconverted error).rejection

theorem translate_eq (text : String)
    : translate text = translateTokens (tokenize text) := by
  unfold translate translateTokens issueLine
  cases readTokens (tokenize text) with
  | error error => rfl
  | ok instruction =>
      dsimp only
      rcases instruction.fields.encode with ⟨_ | _⟩ | _ <;> rfl

section
variable {tokens : List String}

theorem zip_unbroken {pattern : Pattern}
    (unbroken : ∀ token ∈ tokens, ∀ c ∈ token.toList, isSeparator c = false)
    {entry : (OperandKind × Slot) × String} (member : entry ∈ pattern.zip tokens)
    : ∀ c ∈ entry.2.toList, isSeparator c = false :=
  unbroken _ (List.of_mem_zip member).2

theorem readTokens_name {operation : Operation}
    (unbroken : ∀ c ∈ operation.name.toList, isSeparator c = false)
    : readTokens (operation.name :: tokens)
      = (readOperands operation.pattern tokens .zero).map fun operands =>
          ⟨operation, operands⟩ := by
  rw [readTokens, readOperation, unpad_eq_self unbroken, String.ofList_toList,
    Operation.ofName?_name]

/-- Operands are filled exactly when reading gives them. -/
theorem fills_iff {operation : Operation} {operands : Operands}
    (unbroken : ∀ token ∈ tokens, ∀ c ∈ token.toList, isSeparator c = false)
    : Fills operation tokens operands
      ↔ readOperands operation.pattern tokens .zero = .ok operands := by
  rw [readOperands_eq_ok_iff (pattern_slots_nodup operation)]
  simp only [Operands.get_zero]
  constructor
  · intro h
    obtain ⟨read, zero⟩ := h
    exact ⟨fun entry member =>
      (readOperand_eq_ok_iff (zip_unbroken unbroken member)).mpr (read entry member), zero⟩
  · intro h
    obtain ⟨read, zero⟩ := h
    exact ⟨fun entry member =>
      (readOperand_eq_ok_iff (zip_unbroken unbroken member)).mp (read entry member), zero⟩

/-- The grammar gives what reading gives, by cases on the grammar. -/
theorem Parses.translateTokens_eq {result : Except Rejection Int} (h : Parses tokens result)
    (unbroken : ∀ token ∈ tokens, ∀ c ∈ token.toList, isSeparator c = false)
    : translateTokens tokens = result := by
  cases h with
  | empty => rfl
  | @unknown name tokens foreign =>
      have hname : Operation.ofName? name = none := by
        rw [Option.eq_none_iff_forall_ne_some]
        intro operation found
        exact foreign operation ((Operation.ofName?_eq_some_iff _ _).mp found)
      rw [translateTokens, readTokens, readOperation,
        unpad_eq_self (unbroken name List.mem_cons_self), String.ofList_toList, hname]
      rfl
  | @operand operation tokens before kind slot token after rejection leftmost earlier bad =>
      obtain ⟨hname, hrest⟩ := List.forall_mem_cons.mp unbroken
      have hzip {entry} (member : entry ∈ before ++ ((kind, slot), token) :: after) :=
        zip_unbroken hrest (leftmost.symm ▸ member)
      obtain ⟨error, hread, rfl⟩ :=
        (readOperand_eq_error_iff (hzip (by simp : ((kind, slot), token) ∈ _))).mpr bad
      have hfail : readOperands operation.pattern tokens .zero = .error error := by
        refine readOperands_eq_error_iff.mpr
          ⟨before, _, after, leftmost, fun entry member => ?_, hread⟩
        obtain ⟨value, reads⟩ := earlier entry member
        exact ⟨value, (readOperand_eq_ok_iff (hzip (List.mem_append_left _ member))).mpr reads⟩
      rw [translateTokens, readTokens_name hname, hfail]
      rfl
  | @base operation tokens operands slot label filled takes outside =>
      obtain ⟨hname, hrest⟩ := List.forall_mem_cons.mp unbroken
      rw [translateTokens, readTokens_name hname, (fills_iff hrest).mp filled, ← takes.rejection]
      simp only [Except.map, Instruction.fields, filled.encode_eq_error takes outside]
  | @word operation tokens operands filled inside =>
      obtain ⟨hname, hrest⟩ := List.forall_mem_cons.mp unbroken
      rw [translateTokens, readTokens_name hname, (fills_iff hrest).mp filled]
      simp only [Except.map, Instruction.fields, filled.encode_eq_ok inside,
        (filled.fit inside).toWord_eq]

/-- Every list of tokens is in the grammar with what reading gives, by the stages of reading. -/
theorem parses_translateTokens
    (unbroken : ∀ token ∈ tokens, ∀ c ∈ token.toList, isSeparator c = false)
    : Parses tokens (translateTokens tokens) := by
  cases tokens with
  | nil => exact .empty
  | cons name tokens =>
      obtain ⟨hname, hrest⟩ := List.forall_mem_cons.mp unbroken
      by_cases known : ∃ operation : Operation, operation.name = name
      · obtain ⟨operation, rfl⟩ := known
        rw [translateTokens, readTokens_name hname]
        cases answer : readOperands operation.pattern tokens .zero with
        | error error =>
            obtain ⟨before, ⟨⟨kind, slot⟩, token⟩, after, leftmost, earlier, bad⟩ :=
              readOperands_eq_error_iff.mp answer
            have hzip {entry} (member : entry ∈ before ++ ((kind, slot), token) :: after) :=
              zip_unbroken hrest (leftmost.symm ▸ member)
            refine .operand leftmost (fun entry member => ?_) ?_
            · obtain ⟨value, read⟩ := earlier entry member
              exact ⟨value,
                (readOperand_eq_ok_iff (hzip (List.mem_append_left _ member))).mp read⟩
            · exact (readOperand_eq_error_iff (hzip (by simp))).mp ⟨error, bad, rfl⟩
        | ok operands =>
            have filled := (fills_iff hrest).mpr answer
            simp only [Except.map, Instruction.fields]
            -- All tokens are read now, and only a base can still fail to fit.
            by_cases bad
                : ∃ slot label,
                    TakesBase operation slot label
                    ∧ (operands.get slot < 0 ∨ 511 < operands.get slot)
            · obtain ⟨slot, label, takes, outside⟩ := bad
              simp only [filled.encode_eq_error takes outside, takes.rejection]
              exact .base filled takes outside
            · have inside {slot label} (takes : TakesBase operation slot label)
                  : 0 ≤ operands.get slot ∧ operands.get slot ≤ 511 := by
                by_contra outside
                exact bad ⟨slot, label, takes, by omega⟩
              simp only [filled.encode_eq_ok fun _ _ => inside,
                (filled.fit fun _ _ => inside).toWord_eq]
              exact .word filled fun _ _ => inside
      · have foreign : ∀ operation : Operation, operation.name ≠ name :=
          fun operation same => known ⟨operation, same⟩
        have parsed : Parses (name :: tokens) _ := .unknown foreign
        rw [parsed.translateTokens_eq unbroken]
        exact parsed

end

/-- Reading a line accepts exactly the instruction grammar and gives every rejection its reason.
A line splits in one way only into its tokens, the longest stretches without a space, comma, tab or
line break, and what comes of the line is what the grammar says of these tokens.
-/
theorem translate_eq_iff_parses (text : String)
    : ∃ tokens : List String,
        (∀ stretches,
          Text.SplitsInto [' ', '\t', '\r', '\n', ','].contains text.toList stretches
          ↔ stretches = tokens.map String.toList)
        ∧ ∀ result, translate text = result ↔ Parses tokens result := by
  have hclass : isSeparator = [' ', '\t', '\r', '\n', ','].contains := by
    funext c
    rw [Bool.eq_iff_iff, isSeparator_iff, List.contains_iff_mem]
  refine ⟨tokenize text, fun stretches => ?_, fun result => ?_⟩
  · rw [← hclass, Text.splitsInto_iff, Text.splitsInto_iff.mp (tokenize_splits text)]
    exact eq_comm
  · have unbroken : ∀ token ∈ tokenize text, ∀ c ∈ token.toList, isSeparator c = false :=
      fun token member => (token_unbroken member).2
    rw [translate_eq]
    constructor
    · intro h
      subst h
      exact parses_translateTokens unbroken
    · intro h
      exact h.translateTokens_eq unbroken

end RegisterMachine.Assembly
