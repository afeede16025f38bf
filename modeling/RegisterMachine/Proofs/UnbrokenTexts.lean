import RegisterMachine.Proofs.FirstRejection
import RegisterMachine.Proofs.FormatFaults
import RegisterMachine.Proofs.InstructionGrammar
import RegisterMachine.Proofs.WrittenLines

/-! Messages and output lines are unbroken, whatever a source text, an answer or a register holds.
Tokens and lines come from a text that has been split at its line terminators, and all else is of
fixed wording or a numeral.
-/

namespace RegisterMachine

-----------------------------------------------------------------------------------------
-- Unbroken texts
-----------------------------------------------------------------------------------------

namespace Text

/-- A text without any character that ends a line. -/
def IsUnbroken (text : String) : Prop :=
  ∀ c ∈ text.toList, c ∉ lineTerminators

theorem isUnbroken_iff (text : String)
    : IsUnbroken text ↔ text.toList.all (fun c => !isLineTerminator c) = true := by
  simp only [IsUnbroken, List.all_eq_true, ← isLineTerminator_iff, Bool.not_eq_true,
    Bool.not_eq_true']

instance (text : String) : Decidable (IsUnbroken text) :=
  decidable_of_iff' _ (isUnbroken_iff text)

theorem IsUnbroken.append {first second : String} (h : IsUnbroken first) (h' : IsUnbroken second)
    : IsUnbroken (first ++ second) := by
  intro c member
  rw [String.toList_append] at member
  exact (List.mem_append.mp member).elim (h c) (h' c)

theorem IsUnbroken.getLast?_ne {text : String} (h : IsUnbroken text)
    : text.toList.getLast? ≠ some '\n' := by
  intro last
  exact h '\n' (List.mem_of_getLast? last) (by decide)

theorem isUnbroken_decimal (value : Int)
    : IsUnbroken (decimal value) := by
  intro c member terminator
  have visible := Assembly.decimal_visible value c member
  rw [← isLineTerminator_iff, not_lineTerminator (Or.inr visible)] at terminator
  cases terminator

/-- A number between two unbroken texts. -/
theorem IsUnbroken.around {before after : String} (h : IsUnbroken before) (value : Int)
    (h' : IsUnbroken after)
    : IsUnbroken (before ++ decimal value ++ after) :=
  (h.append (isUnbroken_decimal value)).append h'

theorem isUnbroken_numeral {base : Int} (valid : IsBase base) (value : Int)
    : IsUnbroken (numeral base.toNat value) := by
  have digits : ∀ digit < 36, Digits.char digit ∉ lineTerminators := by decide
  obtain ⟨low, high⟩ := valid
  simp only [minBase, maxBase] at low high
  intro c member
  rcases isNumeralChar_numeral (by omega) (by omega) member with rfl | ⟨digit, below, rfl⟩
  · decide
  · exact digits digit below

/-- Unbroken lines that are each followed by a line feed are found again by splitting at the line
feeds; nothing is left after the last one. This goes by induction on the lines.
-/
theorem splitOn_unlines {lines : List String} (unbroken : ∀ line ∈ lines, IsUnbroken line)
    : (unlines lines).toList.splitOn '\n' = lines.map String.toList ++ [[]] := by
  rw [toList_unlines]
  induction lines with
  | nil => rfl
  | cons line lines ih =>
      obtain ⟨here, later⟩ := List.forall_mem_cons.mp unbroken
      have inside : '\n' ∉ line.toList := fun member => here '\n' member (by decide)
      rw [List.flatMap_cons, List.append_assoc, List.singleton_append,
        List.splitOn_append_cons_self_of_not_mem inside, ih later, List.map_cons, List.cons_append]

/-- There are as many line feeds as lines, by induction on the lines. -/
theorem count_unlines {lines : List String} (unbroken : ∀ line ∈ lines, IsUnbroken line)
    : (unlines lines).toList.count '\n' = lines.length := by
  rw [toList_unlines]
  induction lines with
  | nil => rfl
  | cons line lines ih =>
      obtain ⟨here, later⟩ := List.forall_mem_cons.mp unbroken
      have inside : '\n' ∉ line.toList := fun member => here '\n' member (by decide)
      rw [List.flatMap_cons, List.count_append, List.count_append,
        List.count_eq_zero_of_not_mem inside, ih later, List.count_singleton_self,
        List.length_cons, Nat.zero_add, Nat.add_comm]

/-- The text of some lines ends with a line feed, and without lines it is empty. -/
theorem getLast?_unlines (lines : List String)
    : unlines lines = "" ∧ lines = []
      ∨ (unlines lines).toList.getLast? = some '\n' := by
  rcases List.eq_nil_or_concat lines with rfl | ⟨earlier, last, rfl⟩
  · exact Or.inl ⟨rfl, rfl⟩
  · right
    rw [List.concat_eq_append, unlines_append, String.toList_append, toList_unlines [last],
      List.flatMap_singleton, ← List.append_assoc, List.getLast?_concat]

end Text

open Text

-----------------------------------------------------------------------------------------
-- Lines of output
-----------------------------------------------------------------------------------------

theorem isUnbroken_overlongMessage (count : Nat)
    : IsUnbroken (Assembly.overlongMessage count) := by
  have before
      : IsUnbroken
          "Exceeds the limit (4300 digits) for integer string conversion: value has " := by
    decide +kernel
  have after
      : IsUnbroken " digits; use sys.set_int_max_str_digits() to increase the limit" := by
    decide +kernel
  delta Assembly.overlongMessage
  exact before.around _ after

theorem ConversionError.message_unbroken (error : ConversionError)
    : IsUnbroken error.message := by
  cases error with
  | reading count =>
      rw [Assembly.message_reading]
      exact isUnbroken_overlongMessage count
  | writing => decide +kernel

theorem IndexOutOfRange.message_unbroken (error : IndexOutOfRange)
    : IsUnbroken error.message := by
  rw [message]
  cases worded : error.wording with
  | error failure => exact failure.message_unbroken
  | ok wording =>
      rw [IndexOutOfRange.wording, writeDecimal_eq, map_eq_ok_iff] at worded
      obtain ⟨text, written, rfl⟩ := worded
      obtain rfl : decimal error.index = text := by
        split at written
        · exact Except.ok.inj written
        · cases written
      have before : IsUnbroken "Register index " := by decide
      have range : IsUnbroken " out of range (0-" := by decide
      exact (before.around _ range).around _ (by decide)

theorem Truncation.message_unbroken (error : Truncation)
    : IsUnbroken error.message := by
  have before : IsUnbroken "Truncated word at offset " := by decide
  have count : IsUnbroken " (" := by decide
  exact (before.around _ count).around _ (by decide)

theorem isUnbroken_register (index : Int) {numeral : String} (h : IsUnbroken numeral)
    : IsUnbroken (Line.register index numeral).text := by
  have letter : IsUnbroken "R" := by decide
  have colon : IsUnbroken ": " := by decide
  exact (letter.around index colon).append h

/-- What a rule writes is unbroken, by cases on the rules. -/
theorem Yields.report_unbroken {registers : Registers} {operands : Operands} {action : Action}
    {lines : List Line} (h : Yields registers operands action (.report lines))
    : ∀ line ∈ lines, IsUnbroken line.text := by
  cases h with
  | printAll base =>
      intro line member
      rcases List.mem_cons.mp member with rfl | member
      · decide
      · obtain ⟨⟨value, index⟩, _, rfl⟩ := List.mem_map.mp member
        exact isUnbroken_register index (isUnbroken_numeral base value)
  | printOne _ base =>
      exact List.forall_mem_singleton.mpr (isUnbroken_register _ (isUnbroken_numeral base _))
  | zeroDivisor | byteIndex | byteValue => exact List.forall_mem_singleton.mpr (by decide)

/-- Every line that a word writes with a calm prompt is unbroken, by cases on its reason. -/
theorem Written.unbroken {registers : Registers} {word : Int} {line : Line}
    (h : Written registers word line)
    : IsUnbroken line.text := by
  cases h with
  | unknown =>
      exact (by decide : IsUnbroken "Error: Unknown opcode ").append (isUnbroken_decimal _)
  | fault cause =>
      refine (by decide : IsUnbroken "Error during instruction execution: ").append ?_
      cases cause with
      | register => exact IndexOutOfRange.message_unbroken _
      | base => exact (by decide : IsUnbroken "Invalid Base.")
  | report rule member => exact rule.report_unbroken _ member
  | cancelled | invalidInput => decide

/-- A run with a calm prompt goes to its end and writes unbroken lines. -/
theorem Machine.run_unbroken {machine : Machine} (calm : machine.prompt.Calm) (image : Image)
    : (machine.run image).escaped = none
      ∧ ∀ line ∈ (machine.run image).lines, IsUnbroken line.text := by
  have within
      : (machine.run image).Within (fun machine => machine.prompt.Calm)
          (fun line => IsUnbroken line.text) fun _ => False := by
    refine run_within (fun word _ machine state => ?_) (fun truncation _ => ?_) calm
    · exact (step_steady state word).mono (fun _ steady => steady.calm)
        fun _ written => written.unbroken
    · exact (by decide : IsUnbroken "Error: ").append truncation.message_unbroken
  exact ⟨Option.eq_none_iff_forall_ne_some.mpr within.failures, within.lines⟩

-----------------------------------------------------------------------------------------
-- Parts of texts
-----------------------------------------------------------------------------------------

namespace Text

theorem HasLines.unbroken {text : List Char} {lines : List (List Char)} (h : HasLines text lines)
    : ∀ line ∈ lines, ∀ c ∈ line, c ∉ lineTerminators := by
  induction h with
  | none => exact List.forall_mem_nil _
  | unfinished _ unbroken => exact List.forall_mem_singleton.mpr unbroken
  | line unbroken _ _ ih => exact List.forall_mem_cons.mpr ⟨unbroken, ih⟩

theorem HasCore.subset {text core : List Char} (h : HasCore text core)
    : core ⊆ text := by
  obtain ⟨before, after, rfl, _⟩ := h.surrounded
  exact fun c member => List.mem_append_left _ (List.mem_append_right _ member)

theorem SplitsInto.subset {isBoundary : Char → Bool} {text : List Char} {runs : List (List Char)}
    (h : SplitsInto isBoundary text runs)
    : ∀ run ∈ runs, run ⊆ text := by
  induction h with
  | blank _ => exact List.forall_mem_nil _
  | run _ _ _ _ _ ih =>
      refine List.forall_mem_cons.mpr ⟨fun c member => ?_, fun run found c member => ?_⟩
      · exact List.mem_append_right _ (List.mem_append_left _ member)
      · exact List.mem_append_right _ (List.mem_append_right _ (ih run found member))

end Text

-----------------------------------------------------------------------------------------
-- Messages about source texts
-----------------------------------------------------------------------------------------

namespace Assembly

/-- The message about an operand is of fixed wording around the operand or its number. -/
theorem Rejects.message_unbroken {kind : OperandKind} {token : String} {rejection : Rejection}
    (h : Rejects kind token rejection) (unbroken : IsUnbroken token)
    : IsUnbroken rejection.message := by
  cases h with
  | noRegister => exact (by decide : IsUnbroken "Invalid operand: ").append unbroken
  | noIndex => exact (by decide : IsUnbroken "Invalid register index: ").append unbroken
  | outside => exact (by decide : IsUnbroken "Register index ").around _ (by decide)
  | noInteger => exact (by decide : IsUnbroken "Invalid number: ").append unbroken
  | overlongIndex | overlongBase => exact isUnbroken_overlongMessage _

/-- The message about a line that is no instruction breaks no line unless a token does, by cases on
the grammar.
-/
theorem Parses.message_unbroken {tokens : List String} {rejection : Rejection}
    (h : Parses tokens (.error rejection)) (unbroken : ∀ token ∈ tokens, IsUnbroken token)
    : IsUnbroken rejection.message := by
  cases h with
  | empty => decide
  | unknown =>
      exact (by decide : IsUnbroken "Invalid opcode: ").append (unbroken _ List.mem_cons_self)
  | operand leftmost _ bad =>
      have member := leftmost.symm ▸ List.mem_append_right _ List.mem_cons_self
      exact bad.message_unbroken
        (unbroken _ (List.mem_cons_of_mem _ (List.of_mem_zip member).2))
  | base _ takes =>
      have label {operation slot label} (takes : TakesBase operation slot label)
          : IsUnbroken label := by
        cases takes <;> decide
      exact ((label takes).append (by decide : IsUnbroken " ")).around _ (by decide)

/-- Reading an unbroken line gives an unbroken message, because its tokens are parts of it. -/
theorem message_unbroken_of_issueLine {code : String} {cause : InstructionError}
    (rejected : issueLine code = .error cause) (unbroken : IsUnbroken code)
    : IsUnbroken cause.message := by
  have translated : translate code = .error cause.rejection := by
    rw [translate, rejected]
    rfl
  have separated : ∀ token ∈ tokenize code, ∀ c ∈ token.toList, isSeparator c = false :=
    fun _ member => (token_unbroken member).2
  have parsed := parses_translateTokens separated
  rw [← translate_eq, translated] at parsed
  refine parsed.message_unbroken fun token member c inside => ?_
  have part := (tokenize_splits code).subset _ (List.mem_map_of_mem member)
  exact unbroken c (part inside)

/-- The message about a source text shows the line and a token of it, if it shows anything, and
breaks nowhere.
-/
theorem message_unbroken_of_assemble {source : String} {failure : AssemblyFailure}
    (refused : (assemble source).result = .error failure)
    : IsUnbroken failure.message := by
  rw [assemble, Logged.result_map, map_eq_error_iff, assembleWords, result_assembleLines,
    mapM_assemble_eq_error_iff (CodeLine.pairwise_among 1 _)] at refused
  obtain ⟨bad, member, _, cause, rejected, reported⟩ := refused
  cases reported with
  | unconverted => exact ConversionError.message_unbroken _
  | @rejected error _ _ line _ message =>
      obtain ⟨⟨index, placed, _⟩, trimmed, _, _⟩ := CodeLine.mem_among_iff.mp member
      have shown : IsUnbroken bad.line :=
        (Text.hasLines_splitLines source.toList).unbroken _ (List.mem_of_getElem? placed)
      have code : IsUnbroken bad.code := fun c inside => shown c (trimmed.subset inside)
      have reason : IsUnbroken error.cause.message := message_unbroken_of_issueLine rejected code
      have before : IsUnbroken "Error compiling line: " := by decide
      have stop : IsUnbroken ". " := by decide
      rw [AssemblyFailure.message, message, line]
      exact ((before.append shown).append stop).append reason

end Assembly

end RegisterMachine
