import RegisterMachine.Proofs.DecimalIntegers
import RegisterMachine.Proofs.Tokens

/-! Operand tokens: which texts are registers or bases, and why all others are rejected.
The readers accept any text; on tokens, which hold no padding, they decide this grammar. A token
that begins with too many digits fails in a way of its own, whatever follows them.
-/

namespace RegisterMachine.Assembly

/-- What a caller sees of a rejected text. -/
structure Rejection where
  kind : RejectionKind
  message : String
  deriving DecidableEq, Repr

def InstructionError.rejection (error : InstructionError) : Rejection :=
  ⟨error.kind, error.message⟩

def IsRegisterLetter (letter : Char) : Prop :=
  letter = 'R' ∨ letter = 'r'

/-- A token that is an operand of some kind, with its value. -/
inductive Reads : OperandKind → String → Int → Prop
  | register {token letter rest index} (text : token.toList = letter :: rest)
    (head : IsRegisterLetter letter) (short : ∀ count, ¬ Overlong rest count)
    (integer : IsInteger rest index) (inside : 0 ≤ index ∧ index ≤ 511)
    : Reads .register token index
  | base {token value} (short : ∀ count, ¬ Overlong token.toList count)
    (integer : IsInteger token.toList value)
    : Reads .base token value

/-- A token that is no operand of some kind, with the reason. -/
inductive Rejects : OperandKind → String → Rejection → Prop
  | noRegister {token} (head : ∀ letter ∈ token.toList.head?, ¬ IsRegisterLetter letter)
    : Rejects .register token ⟨.invalidRegister, "Invalid operand: " ++ token⟩
  | noIndex {token letter rest} (text : token.toList = letter :: rest)
    (head : IsRegisterLetter letter) (short : ∀ count, ¬ Overlong rest count)
    (malformed : ∀ index, ¬ IsInteger rest index)
    : Rejects .register token ⟨.invalidRegister, "Invalid register index: " ++ token⟩
  | outside {token letter rest index} (text : token.toList = letter :: rest)
    (head : IsRegisterLetter letter) (short : ∀ count, ¬ Overlong rest count)
    (integer : IsInteger rest index) (outside : index < 0 ∨ 511 < index)
    : Rejects .register token
        ⟨.invalidRegister, "Register index " ++ decimal index ++ " out of range (0-511)"⟩
  | overlongIndex {token letter rest count} (text : token.toList = letter :: rest)
    (head : IsRegisterLetter letter) (long : Overlong rest count)
    : Rejects .register token ⟨.valueError, overlongMessage count⟩
  | noInteger {token} (short : ∀ count, ¬ Overlong token.toList count)
    (malformed : ∀ value, ¬ IsInteger token.toList value)
    : Rejects .base token ⟨.operandParseFailure, "Invalid number: " ++ token⟩
  | overlongBase {token count} (long : Overlong token.toList count)
    : Rejects .base token ⟨.valueError, overlongMessage count⟩

/-- A text without separators has no padding to remove. -/
theorem unpad_eq_self {token : String} (unbroken : ∀ c ∈ token.toList, isSeparator c = false)
    : unpad token = token.toList := by
  have hpadding : ∀ c ∈ token.toList, isPadding c = false := by
    intro c member
    have hc := unbroken c member
    simp only [isSeparator, Bool.or_eq_false_iff] at hc
    exact hc.1
  exact Text.trim_eq_self (fun c hc => hpadding c (List.mem_of_mem_head? hc))
    (fun c hc => hpadding c (List.mem_of_mem_getLast? hc))

theorem readInteger?_eq_none_iff (text : List Char)
    : readInteger? text = none ↔ ∀ value, ¬ IsInteger text value := by
  simp only [← readInteger?_eq_some_iff, Option.eq_none_iff_forall_ne_some, ne_eq]

/-- The wording of a range, for all values that nine bits can hold. -/
theorem range_message (before : String)
    : before ++ " out of range (0-" ++ decimal 511 ++ ")" = before ++ " out of range (0-511)" := by
  have bound : decimal 511 = "511" := by cbv
  have range : " out of range (0-" ++ "511" ++ ")" = " out of range (0-511)" := by cbv
  rw [bound, ← range]
  simp only [String.append_assoc]

theorem rejection_indexOutOfRange {index : Int} (writable : index.natAbs < 10 ^ Digits.limit)
    : (InstructionError.indexOutOfRange ⟨index, registerCount⟩).rejection
      = ⟨.invalidRegister, "Register index " ++ decimal index ++ " out of range (0-511)"⟩ := by
  have worded
      : (IndexOutOfRange.mk index registerCount).message
        = "Register index " ++ decimal index ++ " out of range (0-" ++ decimal 511 ++ ")" :=
    IndexOutOfRange.message_eq writable
  rw [← range_message, ← worded]
  rfl

theorem rejection_unconverted (count : Nat)
    : (InstructionError.unconverted (.reading count)).rejection
      = ⟨.valueError, overlongMessage count⟩ := by
  rw [← message_reading]
  rfl

/-- A reader's answer for a token says what the grammar of its kind says. -/
def Classifies (kind : OperandKind) (token : String) : Except InstructionError Int → Prop
  | .ok value => Reads kind token value
  | .error error => Rejects kind token error.rejection

theorem readRegister_classifies {token : String}
    (unbroken : ∀ c ∈ token.toList, isSeparator c = false)
    : Classifies .register token (readRegister token) := by
  -- The reader refuses a line feed after the letter, but tokens hold none.
  have hfeed (rest : List Char) (letter : Char) (text : token.toList = letter :: rest)
      : '\n' ∉ rest := by
    intro member
    have hc := unbroken '\n' (text ▸ List.mem_cons_of_mem letter member)
    simp [isSeparator, isPadding] at hc
  rw [readRegister, unpad_eq_self unbroken]
  split
  · next text => exact .noRegister (by simp [text])
  · next letter rest text =>
      by_cases head : letter = 'R' ∨ letter = 'r'
      · rw [if_pos ⟨head, hfeed rest letter text⟩]
        obtain ⟨count, long, failed⟩ | ⟨short, converted⟩ := convert_cases rest
        · simp only [failed, Classifies, rejection_unconverted]
          exact .overlongIndex text head long
        · rw [converted]
          cases integer : readInteger? rest with
          | none => exact .noIndex text head short ((readInteger?_eq_none_iff rest).mp integer)
          | some index =>
              rw [readInteger?_eq_some_iff] at integer
              by_cases inside : 0 ≤ index ∧ index < (registerCount : Nat)
              · simp only [if_pos inside]
                refine .register text head short integer ?_
                simp only [registerCount] at inside
                omega
              · simp only [if_neg inside, Classifies,
                  rejection_indexOutOfRange (integer.natAbs_lt short)]
                refine .outside text head short integer ?_
                simp only [registerCount] at inside
                omega
      · rw [if_neg fun h => head h.1]
        exact .noRegister (by simpa [text, IsRegisterLetter] using head)

theorem readBase_classifies {token : String}
    (unbroken : ∀ c ∈ token.toList, isSeparator c = false)
    : Classifies .base token (readBase token) := by
  rw [readBase, unpad_eq_self unbroken]
  obtain ⟨count, long, failed⟩ | ⟨short, converted⟩ := convert_cases token.toList
  · simp only [failed, Classifies, rejection_unconverted]
    exact .overlongBase long
  · rw [converted]
    cases integer : readInteger? token.toList with
    | none => exact .noInteger short ((readInteger?_eq_none_iff _).mp integer)
    | some value => exact .base short ((readInteger?_eq_some_iff _ _).mp integer)

/-- Every token is read or rejected as the grammar of its kind says. -/
theorem readOperand_classifies (kind : OperandKind) {token : String}
    (unbroken : ∀ c ∈ token.toList, isSeparator c = false)
    : Classifies kind token (readOperand kind token) := by
  cases kind with
  | register => exact readRegister_classifies unbroken
  | base => exact readBase_classifies unbroken

theorem Reads.unique {kind : OperandKind} {token : String} {first second : Int}
    (hfirst : Reads kind token first) (hsecond : Reads kind token second)
    : first = second := by
  cases hfirst with
  | register text _ _ integer _ =>
      cases hsecond with
      | register text' _ _ integer' _ =>
          obtain ⟨rfl, rfl⟩ := List.cons.inj (text.symm.trans text')
          exact integer.unique integer'
  | base _ integer =>
      cases hsecond with
      | base _ integer' => exact integer.unique integer'

theorem Reads.not_rejects {kind : OperandKind} {token : String} {value : Int}
    {rejection : Rejection} (h : Reads kind token value)
    : ¬ Rejects kind token rejection := by
  intro bad
  cases h with
  | register text head short integer inside =>
      cases bad with
      | noRegister nohead => exact nohead _ (by rw [text]; rfl) head
      | noIndex text' _ _ malformed =>
          obtain ⟨rfl, rfl⟩ := List.cons.inj (text.symm.trans text')
          exact malformed _ integer
      | outside text' _ _ integer' outside =>
          obtain ⟨rfl, rfl⟩ := List.cons.inj (text.symm.trans text')
          obtain rfl := integer.unique integer'
          omega
      | overlongIndex text' _ long =>
          obtain ⟨rfl, rfl⟩ := List.cons.inj (text.symm.trans text')
          exact short _ long
  | base short integer =>
      cases bad with
      | noInteger _ malformed => exact malformed _ integer
      | overlongBase long => exact short _ long

/-- A token is rejected for one reason. The reasons for which a register is rejected are told apart
by what follows its letter.
-/
theorem Rejects.unique {kind : OperandKind} {token : String} {first second : Rejection}
    (hfirst : Rejects kind token first) (hsecond : Rejects kind token second)
    : first = second := by
  cases hfirst with
  | noRegister head =>
      cases hsecond with
      | noRegister _ => rfl
      | noIndex text letter | outside text letter | overlongIndex text letter =>
          exact (head _ (by rw [text]; rfl) letter).elim
  | noIndex text letter short malformed =>
      cases hsecond with
      | noRegister head => exact (head _ (by rw [text]; rfl) letter).elim
      | noIndex => rfl
      | outside text' _ _ integer =>
          obtain ⟨rfl, rfl⟩ := List.cons.inj (text.symm.trans text')
          exact (malformed _ integer).elim
      | overlongIndex text' _ long =>
          obtain ⟨rfl, rfl⟩ := List.cons.inj (text.symm.trans text')
          exact (short _ long).elim
  | outside text letter short integer =>
      cases hsecond with
      | noRegister head => exact (head _ (by rw [text]; rfl) letter).elim
      | noIndex text' _ _ malformed =>
          obtain ⟨rfl, rfl⟩ := List.cons.inj (text.symm.trans text')
          exact (malformed _ integer).elim
      | outside text' _ _ integer' =>
          obtain ⟨rfl, rfl⟩ := List.cons.inj (text.symm.trans text')
          rw [integer.unique integer']
      | overlongIndex text' _ long =>
          obtain ⟨rfl, rfl⟩ := List.cons.inj (text.symm.trans text')
          exact (short _ long).elim
  | overlongIndex text letter long =>
      cases hsecond with
      | noRegister head => exact (head _ (by rw [text]; rfl) letter).elim
      | noIndex text' _ short | outside text' _ short =>
          obtain ⟨rfl, rfl⟩ := List.cons.inj (text.symm.trans text')
          exact (short _ long).elim
      | overlongIndex text' _ long' =>
          obtain ⟨rfl, rfl⟩ := List.cons.inj (text.symm.trans text')
          rw [long.unique long']
  | noInteger short _ =>
      cases hsecond with
      | noInteger => rfl
      | overlongBase long => exact (short _ long).elim
  | overlongBase long =>
      cases hsecond with
      | noInteger short _ => exact (short _ long).elim
      | overlongBase long' => rw [long.unique long']

/-- On tokens, reading gives a value exactly when the grammar does. -/
theorem readOperand_eq_ok_iff {kind : OperandKind} {token : String} {value : Int}
    (unbroken : ∀ c ∈ token.toList, isSeparator c = false)
    : readOperand kind token = .ok value ↔ Reads kind token value := by
  have classified := readOperand_classifies kind unbroken
  cases answer : readOperand kind token with
  | ok found =>
      rw [answer] at classified
      rw [Except.ok.injEq]
      exact ⟨fun h => h ▸ classified, classified.unique⟩
  | error error =>
      rw [answer] at classified
      exact ⟨fun h => (by cases h), fun h => (h.not_rejects classified).elim⟩

/-- On tokens, reading fails exactly when the grammar rejects, and for the same reason. -/
theorem readOperand_eq_error_iff {kind : OperandKind} {token : String} {rejection : Rejection}
    (unbroken : ∀ c ∈ token.toList, isSeparator c = false)
    : (∃ error, readOperand kind token = .error error ∧ error.rejection = rejection)
      ↔ Rejects kind token rejection := by
  have classified := readOperand_classifies kind unbroken
  cases answer : readOperand kind token with
  | ok found =>
      rw [answer] at classified
      exact ⟨fun ⟨_, h, _⟩ => (by cases h), fun h => (classified.not_rejects h).elim⟩
  | error error =>
      rw [answer] at classified
      constructor
      · intro h
        obtain ⟨found, same, rfl⟩ := h
        obtain rfl := Except.error.inj same
        exact classified
      · intro h
        exact ⟨error, rfl, classified.unique h⟩

end RegisterMachine.Assembly
