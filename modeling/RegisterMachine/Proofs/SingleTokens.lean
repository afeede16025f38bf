import RegisterMachine.Proofs.OutputTexts
import RegisterMachine.Proofs.WordElements

/-! The readers of single tokens, on any text.
They accept exactly the texts that hold a register, an integer or a name with padding around it. A
register is looked at twice: what is no register at all shows in its first line, before its index.
Digits are converted before what follows them is looked at, so that too many of them fail anyway.
-/

namespace RegisterMachine.Assembly

open Text

-----------------------------------------------------------------------------------------
-- Line feeds
-----------------------------------------------------------------------------------------

/-- What is left of a text behind its first line, with the line feed in front. -/
def fromFeed (text : List Char) : List Char :=
  text.dropWhile fun c => c != '\n'

/-- A line feed with something other than padding behind it. -/
def HasInnerFeed (text : List Char) : Prop :=
  ∃ before later, text = before ++ '\n' :: later ∧ ∃ c ∈ later, c ∉ padding

theorem fromFeed_cons {c : Char} (noFeed : c ≠ '\n') (text : List Char)
    : fromFeed (c :: text) = fromFeed text :=
  List.dropWhile_cons_of_pos (bne_iff_ne.mpr noFeed)

/-- It is enough to look behind the first line feed. -/
theorem hasInnerFeed_iff {text : List Char}
    : HasInnerFeed text ↔ ¬ IsMargin (fromFeed text) := by
  simp only [IsMargin, not_forall, exists_prop]
  constructor
  · intro h
    obtain ⟨before, later, rfl, c, member, visible⟩ := h
    refine ⟨c, ?_, visible⟩
    rw [fromFeed, List.dropWhile_append]
    split
    · rw [List.dropWhile_cons_of_neg (by decide)]
      exact List.mem_cons_of_mem _ member
    · exact List.mem_append_right _ (List.mem_cons_of_mem _ member)
  · intro h
    obtain ⟨c, member, visible⟩ := h
    obtain ⟨before, cut, _, first⟩ := exists_append_dropWhile (fun d => d != '\n') text
    rw [← fromFeed] at cut first
    cases left : fromFeed text with
    | nil =>
        rw [left] at member
        cases member
    | cons d later =>
        rw [left] at cut first member
        obtain rfl : d = '\n' := bne_eq_false_iff_eq.mp (first d rfl)
        rcases List.mem_cons.mp member with rfl | behind
        · exact (visible (by decide)).elim
        · exact ⟨before, later, cut, c, behind, visible⟩

theorem hasInnerFeed_cons {c : Char} (noFeed : c ≠ '\n') {text : List Char}
    : HasInnerFeed (c :: text) ↔ HasInnerFeed text := by
  rw [hasInnerFeed_iff, hasInnerFeed_iff, fromFeed_cons noFeed]

/-- The inner line feeds are those in front of the margin at the end. -/
theorem hasInnerFeed_append {core after : List Char}
    (last : ∀ c ∈ core.getLast?, isPadding c = false) (margin : IsMargin after)
    : HasInnerFeed (core ++ after) ↔ '\n' ∈ core := by
  constructor
  · intro h
    obtain ⟨before, later, cut, c, member, visible⟩ := h
    have inFront : c ∉ after := fun behind => visible (margin c behind)
    rcases List.append_eq_append_iff.mp cut with ⟨gap, _, rest⟩ | ⟨gap, rfl, rest⟩
    · rw [rest] at inFront
      exact (inFront (List.mem_append_right gap (List.mem_cons_of_mem _ member))).elim
    · cases gap with
      | nil =>
          rw [List.nil_append] at rest
          rw [← rest] at inFront
          exact (inFront (List.mem_cons_of_mem _ member)).elim
      | cons d gap =>
          obtain ⟨rfl, _⟩ := List.cons.inj rest
          exact List.mem_append_right before List.mem_cons_self
  · intro member
    obtain ⟨before, later, rfl⟩ := List.append_of_mem member
    refine ⟨before, later ++ after, List.append_assoc _ _ _, ?_⟩
    -- The last character of the core is no line feed, and stands behind it.
    rcases List.eq_nil_or_concat' later with rfl | ⟨inner, c, rfl⟩
    · cases last '\n' List.getLast?_concat
    · refine ⟨c, List.mem_append_left after (List.mem_append_right inner List.mem_cons_self), ?_⟩
      rw [← isPadding_iff, Bool.not_eq_true]
      refine last c ?_
      rw [← List.cons_append, ← List.append_assoc]
      exact List.getLast?_concat

-----------------------------------------------------------------------------------------
-- The first line of a register
-----------------------------------------------------------------------------------------

/-- A text that begins with the letter of a register and has only padding behind its first line. -/
def HasRegisterHead (text : List Char) : Prop :=
  (∃ letter ∈ text.head?, IsRegisterLetter letter) ∧ ¬ HasInnerFeed text

/-- The letter of a register and whatever follows it in the same line. -/
def matchHead : Element Unit
  | [] => none
  | letter :: text => if IsRegisterLetter letter then some ((), fromFeed text) else none

theorem IsRegisterLetter.ne_feed {letter : Char} (h : IsRegisterLetter letter)
    : letter ≠ '\n' := by
  rcases h with rfl | rfl <;> decide

theorem parseWhole?_matchHead {text : String}
    : (parseWhole? matchHead text).isSome ↔ HasRegisterHead (skipBlanks text.toList) := by
  obtain ⟨column, exchanged⟩ := skipBlanks_expandTabs 0 text.toList
  obtain ⟨_, _, _, first⟩ := exists_margin text.toList
  simp only [Option.isSome_iff_exists, parseWhole?_eq_some_iff, HasRegisterHead, exchanged]
  cases shown : skipBlanks text.toList with
  | nil => simp [expandTabs, matchHead]
  | cons letter rest =>
      rw [shown] at first
      obtain ⟨next, begun⟩ := expandTabs_cons (ne_tab (first letter rfl)) column rest
      obtain ⟨later, cut⟩ := dropWhile_expandTabs (fun c => c != '\n') (by decide) next rest
      rw [begun, matchHead]
      by_cases head : IsRegisterLetter letter
      · rw [if_pos head, hasInnerFeed_cons head.ne_feed, hasInnerFeed_iff, not_not, fromFeed, cut,
          ← fromFeed]
        simp [head, isMargin_expandTabs]
      · simp [head]

/-- A text and its core begin with the same character. -/
theorem head?_skipBlanks (text : String)
    : (skipBlanks text.toList).head? = (unpad text).head? := by
  obtain ⟨after, shown, blanks, _⟩ := exists_trim_append isPadding text.toList
  obtain ⟨_, _, _, first⟩ := exists_margin text.toList
  rw [skipBlanks, shown, ← unpad] at first ⊢
  cases core : unpad text with
  | cons letter rest => rfl
  | nil =>
      cases after with
      | nil => rfl
      | cons c after =>
          have blank := blanks c List.mem_cons_self
          rw [core] at first
          rw [first c rfl] at blank
          cases blank

theorem hasRegisterHead_iff {text : String}
    : HasRegisterHead (skipBlanks text.toList)
      ↔ ∃ letter rest, unpad text = letter :: rest ∧ IsRegisterLetter letter ∧ '\n' ∉ rest := by
  obtain ⟨after, shown, blanks, last⟩ := exists_trim_append isPadding text.toList
  rw [HasRegisterHead, head?_skipBlanks, skipBlanks, shown,
    hasInnerFeed_append last (isMargin_iff.mpr blanks), ← unpad]
  constructor
  · intro h
    obtain ⟨⟨letter, found, head⟩, noFeed⟩ := h
    obtain ⟨rest, core⟩ := List.head?_eq_some_iff.mp found
    rw [core] at noFeed
    exact ⟨letter, rest, core, head, fun member => noFeed (List.mem_cons_of_mem _ member)⟩
  · intro h
    obtain ⟨letter, rest, core, head, noFeed⟩ := h
    rw [core]
    refine ⟨⟨letter, rfl, head⟩, fun member => ?_⟩
    rcases List.mem_cons.mp member with feed | behind
    · exact head.ne_feed feed.symm
    · exact noFeed behind

/-- A reference to a register is on one line. -/
theorem IsReference.hasRegisterHead {text : String} {index : Int}
    (reference : IsReference (unpad text) index)
    : HasRegisterHead (skipBlanks text.toList) := by
  generalize core : unpad text = word at reference
  cases reference with
  | intro head integer =>
      refine hasRegisterHead_iff.mpr ⟨_, _, core, head, fun member => ?_⟩
      cases solid_isInteger.unpadded integer _ member

-----------------------------------------------------------------------------------------
-- Leading digits
-----------------------------------------------------------------------------------------

theorem not_isDigit_of_isPadding {c : Char} (blank : isPadding c = true)
    : c.isDigit = false := by
  rw [Bool.eq_false_iff]
  intro digit
  rw [unpadded_of_isDigit digit] at blank
  cases blank

/-- A margin behind a text holds no digits. -/
theorem takeWhile_isDigit_append {after : List Char} (margin : IsMargin after)
    (text : List Char)
    : (text ++ after).takeWhile Char.isDigit = text.takeWhile Char.isDigit := by
  induction text with
  | nil =>
      cases after with
      | nil => rfl
      | cons c after =>
          have other := not_isDigit_of_isPadding (isMargin_iff.mp margin c List.mem_cons_self)
          rw [List.nil_append, List.takeWhile_cons_of_neg (by simp [other]), List.takeWhile_nil]
  | cons c text ih => rw [List.cons_append, List.takeWhile_cons, List.takeWhile_cons, ih]

/-- Tabs end a row of digits, and so do the spaces in their place. This goes by induction on the
text.
-/
theorem takeWhile_isDigit_expandTabs (column : Nat) (text : List Char)
    : (expandTabs column text).takeWhile Char.isDigit = text.takeWhile Char.isDigit := by
  induction text generalizing column with
  | nil => rfl
  | cons c text ih =>
      by_cases tab : c = '\t'
      · obtain ⟨_, _, expanded⟩ := expandTabs_tab column text
        rw [tab, expanded, List.takeWhile_cons_of_neg (by decide),
          List.takeWhile_cons_of_neg (by decide)]
      · obtain ⟨later, expanded⟩ := expandTabs_cons tab column text
        rw [expanded, List.takeWhile_cons, List.takeWhile_cons, ih]

/-- The digits that a text begins with are its digits, or those behind its sign. -/
theorem leadingDigits_cons (c : Char) (text : List Char)
    : leadingDigits (c :: text)
      = if c = '+' ∨ c = '-' then
          text.takeWhile Char.isDigit
        else
          (c :: text).takeWhile Char.isDigit := by
  by_cases signed : c = '+' ∨ c = '-'
  · rw [if_pos signed]
    rcases signed with rfl | rfl <;> rfl
  · rw [if_neg signed, leadingDigits]
    unfold splitSign
    split <;> simp_all

theorem leadingDigits_append {after : List Char} (margin : IsMargin after) (text : List Char)
    : leadingDigits (text ++ after) = leadingDigits text := by
  cases text with
  | cons c text =>
      rw [List.cons_append, leadingDigits_cons, leadingDigits_cons, ← List.cons_append,
        takeWhile_isDigit_append margin, takeWhile_isDigit_append margin]
  | nil =>
      cases after with
      | nil => rfl
      | cons c after =>
          have blank := isMargin_iff.mp margin c List.mem_cons_self
          have unsigned : ¬ (c = '+' ∨ c = '-') := by
            rintro (rfl | rfl) <;> cases blank
          rw [List.nil_append, leadingDigits_cons, if_neg unsigned,
            List.takeWhile_cons_of_neg (by simp [not_isDigit_of_isPadding blank])]
          rfl

theorem leadingDigits_expandTabs (column : Nat) (text : List Char)
    : leadingDigits (expandTabs column text) = leadingDigits text := by
  cases text with
  | nil => rfl
  | cons c text =>
      by_cases tab : c = '\t'
      · obtain ⟨_, _, expanded⟩ := expandTabs_tab column text
        rw [tab, expanded, leadingDigits_cons, leadingDigits_cons, if_neg (by decide),
          if_neg (by decide), List.takeWhile_cons_of_neg (by decide),
          List.takeWhile_cons_of_neg (by decide)]
      · obtain ⟨later, expanded⟩ := expandTabs_cons tab column text
        rw [expanded, leadingDigits_cons, leadingDigits_cons, ← expanded,
          takeWhile_isDigit_expandTabs, takeWhile_isDigit_expandTabs]

/-- A text and its core behind its first margin begin with the same digits. -/
theorem leadingDigits_skipBlanks (text : String)
    : leadingDigits (skipBlanks text.toList) = leadingDigits (unpad text) := by
  obtain ⟨after, shown, blanks, _⟩ := exists_trim_append isPadding text.toList
  rw [skipBlanks, shown, leadingDigits_append (isMargin_iff.mpr blanks), unpad]

theorem overlong_skipBlanks_iff {text : String} {count : Nat}
    : Overlong (skipBlanks text.toList) count ↔ Overlong (unpad text) count := by
  rw [overlong_iff, overlong_iff, leadingDigits_skipBlanks]

-----------------------------------------------------------------------------------------
-- Readers
-----------------------------------------------------------------------------------------

/-- A text that begins like a register, but with too many digits. -/
def BeginsOverlongRegister (text : String) (count : Nat) : Prop :=
  HasRegisterHead (skipBlanks text.toList) ∧ Overlong (skipBlanks text.toList).tail count

/-- A text that begins like an integer, but with too many digits. -/
def BeginsOverlongInteger (text : String) (count : Nat) : Prop :=
  Overlong (skipBlanks text.toList) count

theorem overlong_tail_skipBlanks_iff {text : String} {letter : Char} {rest : List Char}
    (core : unpad text = letter :: rest) {count : Nat}
    : Overlong (skipBlanks text.toList).tail count ↔ Overlong rest count := by
  obtain ⟨after, shown, blanks, _⟩ := exists_trim_append isPadding text.toList
  rw [skipBlanks, shown, ← unpad, core, List.cons_append, List.tail_cons, overlong_iff,
    overlong_iff, leadingDigits_append (isMargin_iff.mpr blanks)]

theorem readRegister_of_head {text : String} {letter : Char} {rest : List Char}
    (core : unpad text = letter :: rest) (head : IsRegisterLetter letter) (noFeed : '\n' ∉ rest)
    : readRegister text
      = match convert rest with
        | .error error => .error (.unconverted error)
        | .ok none => .error (.noIndex text)
        | .ok (some index) =>
            if 0 ≤ index ∧ index < registerCount then
              .ok index
            else
              .error (.indexOutOfRange ⟨index, registerCount⟩) := by
  rw [readRegister, core]
  exact if_pos ⟨head, noFeed⟩

theorem readRegister_of_not_head {text : String}
    (noHead : ¬ HasRegisterHead (skipBlanks text.toList))
    : readRegister text = .error (.noRegister text) := by
  rw [hasRegisterHead_iff] at noHead
  rw [readRegister]
  split
  · rfl
  · next letter rest core => exact if_neg fun head => noHead ⟨letter, rest, core, head.1, head.2⟩

/-- What comes of reading a text as a register: an index, or one of four causes. -/
inductive RegisterAnswer (text : String) : Except InstructionError Int → Prop
  | index {index} (reference : IsReference (unpad text) index)
    (short : ∀ count, ¬ Overlong (unpad text).tail count) (inside : 0 ≤ index ∧ index ≤ 511)
    : RegisterAnswer text (.ok index)
  | outside {index} (reference : IsReference (unpad text) index)
    (short : ∀ count, ¬ Overlong (unpad text).tail count) (outside : index < 0 ∨ 511 < index)
    : RegisterAnswer text (.error (.indexOutOfRange ⟨index, registerCount⟩))
  | overlong {count} (long : BeginsOverlongRegister text count)
    (beyond : Overlong (unpad text).tail count)
    : RegisterAnswer text (.error (.unconverted (.reading count)))
  | noIndex (head : HasRegisterHead (skipBlanks text.toList))
    (short : ∀ count, ¬ BeginsOverlongRegister text count)
    (malformed : ∀ index, ¬ IsReference (unpad text) index)
    : RegisterAnswer text (.error (.noIndex text))
  | noRegister (noHead : ¬ HasRegisterHead (skipBlanks text.toList))
    : RegisterAnswer text (.error (.noRegister text))

/-- Reading gives one of the answers, by whether the digits are too many and then by the integer
that they make.
-/
theorem readRegister_answers (text : String)
    : RegisterAnswer text (readRegister text) := by
  by_cases head : HasRegisterHead (skipBlanks text.toList)
  · obtain ⟨letter, rest, core, begins, noFeed⟩ := hasRegisterHead_iff.mp head
    have tail : (unpad text).tail = rest := by rw [core, List.tail_cons]
    rw [readRegister_of_head core begins noFeed]
    obtain ⟨count, long, failed⟩ | ⟨short, converted⟩ := convert_cases rest
    · simp only [failed]
      exact .overlong ⟨head, (overlong_tail_skipBlanks_iff core).mpr long⟩ (tail ▸ long)
    · rw [converted]
      cases integer : readInteger? rest with
      | none =>
          refine .noIndex head (fun count long => ?_) fun index reference => ?_
          · exact short count ((overlong_tail_skipBlanks_iff core).mp long.2)
          · rw [core, isReference_cons_iff begins] at reference
            exact (readInteger?_eq_none_iff rest).mp integer index reference
      | some index =>
          have reference : IsReference (unpad text) index := by
            rw [core]
            exact .intro begins ((readInteger?_eq_some_iff _ _).mp integer)
          rw [← tail] at short
          by_cases inside : 0 ≤ index ∧ index < (registerCount : Nat)
          · simp only [if_pos inside]
            exact .index reference short (by simp only [registerCount] at inside; omega)
          · simp only [if_neg inside]
            exact .outside reference short (by simp only [registerCount] at inside; omega)
  · rw [readRegister_of_not_head head]
    exact .noRegister head

/-- The index of a reference that is not too long can be written. -/
theorem IsReference.natAbs_lt {word : List Char} {index : Int} (reference : IsReference word index)
    (short : ∀ count, ¬ Overlong word.tail count)
    : index.natAbs < 10 ^ Digits.limit := by
  cases reference with
  | intro _ integer => exact integer.natAbs_lt short

theorem overlongMessage_ne_operand (count : Nat) (text : String)
    : overlongMessage count ≠ "Invalid operand: " ++ text := by
  delta overlongMessage
  intro same
  rw [String.append_assoc] at same
  exact append_ne_append (by decide +kernel) (by decide +kernel) text _ same.symm

namespace RegisterAnswer

variable {text : String} {answer : Except InstructionError Int}

theorem eq_ok_iff (answered : RegisterAnswer text answer) {index : Int}
    : answer = .ok index ↔ IsRegister (unpad text) index := by
  constructor
  · rintro rfl
    cases answered with
    | index reference short inside => exact ⟨reference, short, inside⟩
  · intro register
    obtain ⟨reference, short, inside⟩ := register
    cases answered with
    | index found => rw [found.unique reference]
    | outside found _ outside =>
        obtain rfl := found.unique reference
        omega
    | overlong _ beyond => exact (short _ beyond).elim
    | noIndex _ _ malformed => exact (malformed index reference).elim
    | noRegister noHead => exact (noHead reference.hasRegisterHead).elim

theorem kind_eq (answered : RegisterAnswer text answer) {error : InstructionError}
    (rejected : answer = .error error)
    : error.kind = .invalidRegister ∨ ∃ count, error = .unconverted (.reading count) := by
  cases answered with
  | index => cases rejected
  | overlong =>
      obtain rfl := Except.error.inj rejected
      exact .inr ⟨_, rfl⟩
  | outside | noIndex | noRegister =>
      obtain rfl := Except.error.inj rejected
      exact .inl rfl

/-- Too many digits fail, and nothing else fails like them. -/
theorem overlong_iff (answered : RegisterAnswer text answer) {count : Nat}
    : BeginsOverlongRegister text count ↔ answer = .error (.unconverted (.reading count)) := by
  constructor
  · intro long
    obtain ⟨letter, rest, core, -⟩ := hasRegisterHead_iff.mp long.1
    have beyond : Overlong (unpad text).tail count := by
      rw [core, List.tail_cons]
      exact (overlong_tail_skipBlanks_iff core).mp long.2
    cases answered with
    | index _ short | outside _ short => exact (short count beyond).elim
    | overlong _ other => rw [other.unique beyond]
    | noIndex _ short => exact (short count long).elim
    | noRegister noHead => exact (noHead long.1).elim
  · intro failed
    cases answered with
    | overlong long =>
        cases failed
        exact long
    | _ => cases failed

/-- The wording tells a text that is no register at all from one with a bad index. -/
theorem message_iff (answered : RegisterAnswer text answer)
    : (∃ error, answer = .error error ∧ error.message = "Invalid operand: " ++ text)
      ↔ ¬ HasRegisterHead (skipBlanks text.toList) := by
  constructor
  · intro h
    obtain ⟨error, rejected, wording⟩ := h
    cases answered with
    | index => cases rejected
    | noRegister noHead => exact noHead
    | noIndex =>
        obtain rfl := Except.error.inj rejected
        exact (@append_ne_append "Invalid operand: " "Invalid register index: " (by decide)
          (by decide) text text wording.symm).elim
    | @outside index reference short =>
        obtain rfl := Except.error.inj rejected
        have spelled :=
          congrArg Rejection.message (rejection_indexOutOfRange (reference.natAbs_lt short))
        refine (@append_ne_append "Register index " "Invalid operand: " (by decide) (by decide)
          (decimal index ++ " out of range (0-511)") text ?_).elim
        rw [← String.append_assoc]
        exact spelled.symm.trans wording
    | @overlong count =>
        obtain rfl := Except.error.inj rejected
        have spelled : overlongMessage count = "Invalid operand: " ++ text :=
          (message_reading count).symm.trans wording
        exact (overlongMessage_ne_operand count text spelled).elim
  · intro noHead
    cases answered with
    | noRegister => exact ⟨_, rfl, rfl⟩
    | index reference | outside reference => exact (noHead reference.hasRegisterHead).elim
    | overlong long => exact (noHead long.1).elim
    | noIndex head => exact (noHead head).elim

end RegisterAnswer

theorem readRegister_exactly
    : ∀ text, ReadsExactly readRegister IsRegister BeginsOverlongRegister .invalidRegister text :=
  solid_isRegister.readsExactly (fun text _ => (readRegister_answers text).eq_ok_iff)
    (fun text _ => (readRegister_answers text).kind_eq)
    fun text _ => (readRegister_answers text).overlong_iff

theorem readBase_exactly
    : ∀ text,
        ReadsExactly readBase IsShortInteger BeginsOverlongInteger .operandParseFailure text := by
  refine solid_isShortInteger.readsExactly (fun text value => ?_) (fun text error rejected => ?_)
    fun text count => ?_
  · rw [readBase]
    obtain ⟨count, long, failed⟩ | ⟨short, converted⟩ := convert_cases (unpad text)
    · rw [failed]
      exact iff_of_false (by simp) fun integer => integer.2 count long
    · rw [converted, IsShortInteger, ← readInteger?_eq_some_iff]
      cases readInteger? (unpad text) <;> simp [short]
  · rw [readBase] at rejected
    obtain ⟨count, long, failed⟩ | ⟨short, converted⟩ := convert_cases (unpad text)
    · rw [failed] at rejected
      exact .inr ⟨count, (Except.error.inj rejected).symm⟩
    · rw [converted] at rejected
      cases read : readInteger? (unpad text) with
      | none =>
          rw [read] at rejected
          exact .inl (Except.error.inj rejected ▸ rfl)
      | some value =>
          rw [read] at rejected
          cases rejected
  · rw [BeginsOverlongInteger, overlong_skipBlanks_iff, readBase]
    obtain ⟨count', long, failed⟩ | ⟨short, converted⟩ := convert_cases (unpad text)
    · rw [failed]
      constructor
      · intro long'
        rw [long.unique long']
      · intro same
        cases same
        exact long
    · rw [converted]
      refine iff_of_false (short count) ?_
      cases readInteger? (unpad text) <;> simp

theorem ofName?_unpad_eq_some_iff (text : String) (operation : Operation)
    : Operation.ofName? (String.ofList (unpad text)) = some operation
      ↔ IsName (unpad text) operation := by
  rw [Operation.ofName?_eq_some_iff, IsName, ← String.toList_inj, String.toList_ofList]
  exact eq_comm

/-- Names hold no digits that are converted. -/
theorem readOperation_exactly
    : ∀ text, ReadsExactly readOperation IsName (fun _ _ => False) .unknownOpcode text := by
  refine solid_isName.readsExactly (fun text operation => ?_) (fun text error rejected => ?_)
    fun text count => ?_
  · rw [← ofName?_unpad_eq_some_iff, readOperation]
    cases Operation.ofName? (String.ofList (unpad text)) <;> simp
  · rw [readOperation] at rejected
    split at rejected
    · cases rejected
    · exact .inl (Except.error.inj rejected ▸ rfl)
  · rw [readOperation]
    cases Operation.ofName? (String.ofList (unpad text)) <;> simp

-----------------------------------------------------------------------------------------
-- Elements as readers
-----------------------------------------------------------------------------------------

/-- The value of an element that takes up a whole text. A conversion of what the element matches
fails at once, whatever is left of the text.
-/
def parseConverted? (element : Element (Except ConversionError Int)) (text : String)
    : Except ConversionError (Option Int) :=
  match element (skipBlanks (expandTabs 0 text.toList)) with
  | some (.error error, _) => .error error
  | some (.ok value, rest) => .ok (if skipBlanks rest = [] then some value else none)
  | none => .ok none

/-- A text is looked at for the head of a register before it is read as a reference. -/
def parseRegister (text : String) : Except InstructionError Int :=
  if (parseWhole? matchHead text).isSome then
    match parseConverted? (behindLetter convertInteger) text with
    | .error error => .error (.unconverted error)
    | .ok none => .error (.noIndex text)
    | .ok (some index) =>
        if 0 ≤ index ∧ index < registerCount then
          .ok index
        else
          .error (.indexOutOfRange ⟨index, registerCount⟩)
  else
    .error (.noRegister text)

def parseBase (text : String) : Except InstructionError Int :=
  match parseConverted? convertInteger text with
  | .error error => .error (.unconverted error)
  | .ok none => .error (.noInteger text)
  | .ok (some value) => .ok value

def parseOperation (text : String) : Except InstructionError Operation :=
  match parseWhole? matchOperation text with
  | some operation => .ok operation
  | none => .error (.unknownOperation text)

/-- Converting what is matched either fails for the digits or gives what is matched. -/
theorem parseConverted?_eq {element : Element (Except ConversionError Int)} {plain : Element Int}
    {text : String} {numeral : List Char}
    (converted : element (skipBlanks (expandTabs 0 text.toList)) = convertInteger numeral)
    (matched : plain (skipBlanks (expandTabs 0 text.toList)) = matchInteger numeral)
    : parseConverted? element text
      = if Digits.limit < (leadingDigits numeral).length then
          .error (.reading (leadingDigits numeral).length)
        else
          .ok (parseWhole? plain text) := by
  rw [parseConverted?, parseWhole?, converted, matched, convertInteger]
  by_cases many : Digits.limit < (leadingDigits numeral).length
  · have some : matchInteger numeral ≠ none := by
      rw [ne_eq, ← leadingDigits_eq_nil_iff]
      exact List.ne_nil_of_length_pos (Nat.zero_lt_of_lt many)
    obtain ⟨⟨value, rest⟩, found⟩ := Option.ne_none_iff_exists'.mp some
    simp only [found, Option.map_some, if_pos many]
  · rcases matchInteger numeral with _ | ⟨value, rest⟩ <;>
      simp only [Option.map_none, Option.map_some, if_neg many]

theorem parseRegister_eq (text : String)
    : parseRegister text = readRegister text := by
  rw [parseRegister]
  by_cases head : HasRegisterHead (skipBlanks text.toList)
  · obtain ⟨letter, rest, core, begins, noFeed⟩ := hasRegisterHead_iff.mp head
    have reads : ∀ index, readInteger? rest = some index ↔ IsReference (unpad text) index := by
      intro index
      rw [core, isReference_cons_iff begins, readInteger?_eq_some_iff]
    -- What stands behind the letter is the rest of the core, with its tabs expanded.
    obtain ⟨column, exchanged⟩ := skipBlanks_expandTabs 0 text.toList
    obtain ⟨after, shown, blanks, _⟩ := exists_trim_append isPadding text.toList
    rw [← unpad, core, List.cons_append] at shown
    obtain ⟨later, behind⟩ := expandTabs_cons (ne_tab begins.unpadded) column (rest ++ after)
    have entered : skipBlanks (expandTabs 0 text.toList)
        = letter :: expandTabs later (rest ++ after) := by
      rw [exchanged, skipBlanks, shown, behind]
    have same : leadingDigits (expandTabs later (rest ++ after)) = leadingDigits rest := by
      rw [leadingDigits_expandTabs, leadingDigits_append (isMargin_iff.mpr blanks)]
    rw [if_pos (parseWhole?_matchHead.mpr head), readRegister_of_head core begins noFeed, convert,
      ← same, ← matchReference_recognizes.parseWhole?_eq reads, ← parseConverted?_eq]
    · rw [entered, behindLetter, if_pos begins]
    · rw [entered, behindLetter, if_pos begins]
  · rw [if_neg (mt parseWhole?_matchHead.mp head), readRegister_of_not_head head]

theorem parseBase_eq (text : String)
    : parseBase text = readBase text := by
  obtain ⟨column, exchanged⟩ := skipBlanks_expandTabs 0 text.toList
  have same
      : leadingDigits (skipBlanks (expandTabs 0 text.toList)) = leadingDigits (unpad text) := by
    rw [exchanged, leadingDigits_expandTabs, leadingDigits_skipBlanks]
  have matched := matchInteger_recognizes.parseWhole?_eq (readInteger?_eq_some_iff (unpad text))
  have converted : convert (unpad text) = parseConverted? convertInteger text := by
    rw [convert, ← same, ← matched, ← parseConverted?_eq rfl rfl]
  cases parsed : parseConverted? convertInteger text with
  | error error => simp only [parseBase, readBase, converted, parsed]
  | ok value => cases value <;> simp only [parseBase, readBase, converted, parsed]

theorem parseOperation_eq (text : String)
    : parseOperation text = readOperation text := by
  have same := matchOperation_recognizes.parseWhole?_eq (ofName?_unpad_eq_some_iff text)
  cases found : Operation.ofName? (String.ofList (unpad text)) <;>
    simp only [parseOperation, readOperation, same, found]

/-- Reading a single token accepts exactly the padded words of its grammar.
A register is the letter R in either case, an optional sign and decimal digits, with a value from 0
to 511; a base is an optional sign and decimal digits; an operation is its name. Only a text that
begins with too many digits fails in the conversion of these, whatever follows them. Any other is
rejected for a cause of one kind, and more padding never changes what is accepted. A text counts as
no register at all if, behind its leading padding, it does not begin with the letter, or it goes on
behind a line feed. The elements of the grammar, which expand tabs and skip blanks, read the same.
-/
theorem single_tokens_read_exactly (text : String)
    : ReadsExactly readRegister IsRegister BeginsOverlongRegister .invalidRegister text
      ∧ ReadsExactly readBase IsShortInteger BeginsOverlongInteger .operandParseFailure text
      ∧ ReadsExactly readOperation IsName (fun _ _ => False) .unknownOpcode text
      ∧ ((∃ error,
          readRegister text = .error error
          ∧ error.message = "Invalid operand: " ++ text)
        ↔ (∀ letter ∈ (skipBlanks text.toList).head?, ¬ IsRegisterLetter letter)
          ∨ HasInnerFeed (skipBlanks text.toList))
      ∧ parseRegister text = readRegister text
      ∧ parseBase text = readBase text
      ∧ parseOperation text = readOperation text := by
  refine ⟨readRegister_exactly text, readBase_exactly text, readOperation_exactly text, ?_,
    parseRegister_eq text, parseBase_eq text, parseOperation_eq text⟩
  rw [(readRegister_answers text).message_iff, HasRegisterHead, not_and_or, not_not]
  simp only [not_exists, not_and]

-- Padding may be a line feed as well. Inside a register it is worse than a blank, since the text is
-- no register at all then.
example
    : readRegister "\n\tr+07\r\n" = .ok 7
      ∧ readRegister "R1 2" = .error (.noIndex "R1 2")
      ∧ readRegister "R1\n2" = .error (.noRegister "R1\n2") :=
  ⟨by cbv, by cbv, by cbv⟩

end RegisterMachine.Assembly
