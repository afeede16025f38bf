import RegisterMachine.Proofs.AssembledWords
import RegisterMachine.Proofs.Results
import RegisterMachine.Proofs.SourceLines

/-! A source text gives one word for each line of code, or the failure of its first bad line.
Lines without code count for the numbers of the lines and for nothing else. A line that is no
instruction is reported with its place; a number that is too long to be converted is not.
-/

namespace RegisterMachine.Assembly

-----------------------------------------------------------------------------------------
-- Lines of code
-----------------------------------------------------------------------------------------

/-- A line of code: its number, the line as it stands in the text, and the code in it, which is the
line without the blanks around it.
-/
structure CodeLine where
  number : Nat
  line : String
  code : String

namespace CodeLine

/-- The line has this number among lines that are numbered from a given number, and what is left of
it without blanks is neither empty nor a comment.
-/
structure IsAmong (entry : CodeLine) (first : Nat) (lines : List (List Char)) : Prop where
  placed : ∃ index, lines[index]? = some entry.line.toList ∧ entry.number = first + index
  trimmed : Text.HasCore entry.line.toList entry.code.toList
  nonempty : entry.code.toList ≠ []
  uncommented : ¬ ['/', '/'] <+: entry.code.toList

/-- The code is an instruction with this word. -/
def Gives (entry : CodeLine) (word : Int) : Prop :=
  ∃ issue, issueLine entry.code = .ok issue ∧ issue.word = word

/-- The lines of code among lines that are numbered from a given number, in order. -/
def among (first : Nat) : List (List Char) → List CodeLine
  | [] => []
  | line :: lines =>
      if isCode (trimLine line) then
        ⟨first, String.ofList line, String.ofList (trimLine line)⟩ :: among (first + 1) lines
      else
        among (first + 1) lines

/-- The word of a line of code, or what becomes of the failure of the line. -/
def assemble (unit : Option String) (entry : CodeLine) : Except AssemblyFailure Int :=
  match issueLine entry.code with
  | .ok issue => .ok issue.word
  | .error cause => .error (.ofLine unit entry.number entry.line.toList cause)

/-- What is reported of a line of code that has a cause: where the line is and the cause, unless a
conversion failed, which is passed on alone.
-/
inductive Reports (unit : Option String) (bad : CodeLine)
    : (cause : InstructionError) → AssemblyFailure → Prop
  | rejected {error : AssemblyError} (own : error.cause.kind ≠ .valueError)
    (number : error.lineNumber = bad.number) (line : error.line = bad.line)
    (named : error.unit = unit)
    (message
      : error.message = "Error compiling line: " ++ error.line ++ ". " ++ error.cause.message)
    : Reports unit bad error.cause (.rejected error)
  | unconverted {error : ConversionError}
    : Reports unit bad (.unconverted error) (.unconverted error)

theorem reports_iff {unit : Option String} {bad : CodeLine} {cause : InstructionError}
    {failure : AssemblyFailure}
    : bad.Reports unit cause failure
      ↔ .ofLine unit bad.number bad.line.toList cause = failure := by
  have rejected (own : cause.kind ≠ .valueError)
      : bad.Reports unit cause (.rejected ⟨bad.line, bad.number, cause, unit⟩) :=
    @Reports.rejected unit bad ⟨bad.line, bad.number, cause, unit⟩ own rfl rfl rfl rfl
  constructor
  · intro h
    cases h with
    | unconverted => rfl
    | @rejected error own number line named =>
        obtain ⟨line', number', cause, unit'⟩ := error
        obtain ⟨rfl, rfl, rfl⟩ : number' = _ ∧ line' = _ ∧ unit' = _ := ⟨number, line, named⟩
        cases cause <;> first | exact (own rfl).elim | simp [AssemblyFailure.ofLine]
  · intro h
    subst h
    cases cause with
    | unconverted => exact .unconverted
    | _ =>
        simp only [AssemblyFailure.ofLine, String.ofList_toList]
        exact rejected nofun

theorem assemble_eq_ok_iff {unit : Option String} {entry : CodeLine} {word : Int}
    : entry.assemble unit = .ok word ↔ entry.Gives word := by
  unfold assemble Gives
  cases issueLine entry.code <;> simp

theorem assemble_eq_error_iff {unit : Option String} {entry : CodeLine} {failure : AssemblyFailure}
    : entry.assemble unit = .error failure
      ↔ ∃ cause, issueLine entry.code = .error cause ∧ entry.Reports unit cause failure := by
  simp only [reports_iff]
  unfold assemble
  cases issueLine entry.code <;> simp

end CodeLine

theorem isCode_iff (text : List Char)
    : isCode text = true ↔ text ≠ [] ∧ ¬ ['/', '/'] <+: text := by
  unfold isCode
  split
  · simp
  · simp
  · next nonempty noComment =>
      refine ⟨fun _ => ⟨nonempty, ?_⟩, fun _ => rfl⟩
      rintro ⟨rest, same⟩
      exact noComment rest same.symm

namespace CodeLine

theorem IsAmong.shift {entry : CodeLine} {first : Nat} {line : List Char}
    {lines : List (List Char)} (h : entry.IsAmong (first + 1) lines)
    : entry.IsAmong first (line :: lines) := by
  obtain ⟨⟨index, found, number⟩, trimmed, nonempty, uncommented⟩ := h
  exact ⟨⟨index + 1, found, by omega⟩, trimmed, nonempty, uncommented⟩

/-- A line of code is the first line, or one of the others. -/
theorem isAmong_cons_iff {entry : CodeLine} {first : Nat} {line : List Char}
    {lines : List (List Char)}
    : entry.IsAmong first (line :: lines)
      ↔ (isCode (trimLine line) = true
          ∧ entry = ⟨first, String.ofList line, String.ofList (trimLine line)⟩)
        ∨ entry.IsAmong (first + 1) lines := by
  constructor
  · intro h
    obtain ⟨⟨index, found, number⟩, trimmed, nonempty, uncommented⟩ := h
    cases index with
    | zero =>
        obtain ⟨number', line', code⟩ := entry
        obtain rfl : line = line'.toList := Option.some.inj found
        have core : code.toList = trimLine line'.toList := Text.hasCore_iff.mp trimmed
        refine Or.inl ⟨(isCode_iff _).mpr ?_, ?_⟩
        · rw [← core]
          exact ⟨nonempty, uncommented⟩
        · simp only [← core, String.ofList_toList, CodeLine.mk.injEq, and_true]
          exact number
    | succ index =>
        exact Or.inr ⟨⟨index, found, by omega⟩, trimmed, nonempty, uncommented⟩
  · intro h
    rcases h with ⟨code, rfl⟩ | later
    · obtain ⟨nonempty, uncommented⟩ := (isCode_iff _).mp code
      refine ⟨⟨0, by simp, rfl⟩, ?_, ?_, ?_⟩
      · simp only [String.toList_ofList]
        exact Text.hasCore_iff.mpr rfl
      · simpa only [String.toList_ofList] using nonempty
      · simpa only [String.toList_ofList] using uncommented
    · exact later.shift

/-- The lines of code are found in one pass over the lines, by induction on them. -/
theorem mem_among_iff {entry : CodeLine} {first : Nat} {lines : List (List Char)}
    : entry ∈ among first lines ↔ entry.IsAmong first lines := by
  induction lines generalizing first with
  | nil =>
      refine ⟨fun h => (by cases h), fun h => ?_⟩
      obtain ⟨index, found, _⟩ := h.placed
      cases found
  | cons line lines ih =>
      rw [isAmong_cons_iff, among]
      split
      · next code => simp only [List.mem_cons, ih, code, true_and]
      · next skipped => simp only [ih, skipped, Bool.false_eq_true, false_and, false_or]

/-- The lines of code are listed with growing numbers, by induction on the lines. -/
theorem pairwise_among (first : Nat) (lines : List (List Char))
    : (among first lines).Pairwise fun earlier later => earlier.number < later.number := by
  induction lines generalizing first with
  | nil => exact .nil
  | cons line lines ih =>
      rw [among]
      split
      · refine List.pairwise_cons.mpr ⟨fun later member => ?_, ih (first + 1)⟩
        obtain ⟨index, _, number⟩ := (mem_among_iff.mp member).placed
        dsimp only
        omega
      · exact ih (first + 1)

end CodeLine

-----------------------------------------------------------------------------------------
-- Assembling the lines of code
-----------------------------------------------------------------------------------------

/-- Assembling lines is assembling the lines of code among them, by induction on the lines. -/
theorem result_assembleLines (unit : Option String) (first : Nat) (lines : List (List Char))
    : (assembleLines unit first lines).result
      = (CodeLine.among first lines).mapM (CodeLine.assemble unit) := by
  induction lines generalizing first with
  | nil => rfl
  | cons line lines ih =>
      rw [assembleLines, CodeLine.among]
      split
      · rw [Logged.result_andThen, assembleLine, List.mapM_cons, CodeLine.assemble]
        cases issueLine (String.ofList (trimLine line)) with
        | error cause =>
            simp only [String.toList_ofList]
            rfl
        | ok issue =>
            simp only [Logged.result_after, Logged.result_value, Logged.result_map, ih]
            cases (CodeLine.among (first + 1) lines).mapM (CodeLine.assemble unit) <;> rfl
      · exact ih (first + 1)

/-- The failure is that of the first of the lines of code that is no instruction. -/
def ReportsFirst (entries : List CodeLine) (unit : Option String) (failure : AssemblyFailure)
    : Prop :=
  ∃ bad ∈ entries,
    (∀ earlier ∈ entries, earlier.number < bad.number → ∃ word, earlier.Gives word)
    ∧ ∃ cause, issueLine bad.code = .error cause ∧ bad.Reports unit cause failure

theorem mapM_assemble_eq_ok_iff {unit : Option String} {entries : List CodeLine}
    {words : List Int}
    : entries.mapM (CodeLine.assemble unit) = .ok words
      ↔ List.Forall₂ CodeLine.Gives entries words := by
  simp only [mapM_eq_ok_iff, CodeLine.assemble_eq_ok_iff]

/-- The first line of code in the list is the one with the least number, because the numbers of the
list grow.
-/
theorem mapM_assemble_eq_error_iff {unit : Option String} {entries : List CodeLine}
    {failure : AssemblyFailure}
    (growing : entries.Pairwise fun earlier later => earlier.number < later.number)
    : entries.mapM (CodeLine.assemble unit) = .error failure
      ↔ ReportsFirst entries unit failure := by
  simp only [mapM_eq_error_iff, CodeLine.assemble_eq_ok_iff, CodeLine.assemble_eq_error_iff]
  constructor
  · intro h
    obtain ⟨before, bad, after, rfl, accepted, reported⟩ := h
    refine ⟨bad, by simp, fun earlier member lower => ?_, reported⟩
    rcases List.mem_append.mp member with member | member
    · exact accepted earlier member
    · -- The bad line and all lines after it have numbers that are not lower.
      obtain ⟨higher, _⟩ := List.pairwise_cons.mp (List.pairwise_append.mp growing).2.1
      rcases List.mem_cons.mp member with rfl | member
      · exact (Nat.lt_irrefl _ lower).elim
      · exact (Nat.lt_asymm lower (higher earlier member)).elim
  · intro h
    obtain ⟨bad, member, accepted, reported⟩ := h
    obtain ⟨before, after, rfl⟩ := List.append_of_mem member
    refine ⟨before, bad, after, rfl, fun earlier member => ?_, reported⟩
    refine accepted earlier (List.mem_append_left _ member) ?_
    exact (List.pairwise_append.mp growing).2.2 earlier member bad List.mem_cons_self

/-- Assembling a source text stops at the first bad line and gives one word for each line of code
otherwise.
The text splits in one way only into its lines, and the lines of code are those that hold more than
blanks and no comment, in the order of their numbers. If all of them are instructions, their words
in this order are the result, and the image has four bytes for each. If not, the error reports the
line of code with the least number that is none, as it stands in the text, with the cause that
reading its code gives; only if that cause is a number that is too long to be converted, nothing but
the failed conversion is reported.
-/
theorem assembly_stops_at_first_rejection (source : String) (unit : Option String)
    : ∃ lines entries,
        (∀ split, Text.HasLines source.toList split ↔ split = lines)
        ∧ (∀ entry : CodeLine, entry ∈ entries ↔ entry.IsAmong 1 lines)
        ∧ entries.Pairwise (fun earlier later => earlier.number < later.number)
        ∧ (∀ words,
            (assembleWords source unit).result = .ok words
            ↔ List.Forall₂ CodeLine.Gives entries words)
        ∧ (∀ failure,
            (assembleWords source unit).result = .error failure
            ↔ ReportsFirst entries unit failure)
        ∧ (∀ image,
            (assemble source).result = .ok image
            ↔ ∃ words,
                List.Forall₂ CodeLine.Gives entries words
                ∧ Image.pack? words = some image
                ∧ image.length = 4 * entries.length)
        ∧ ∀ failure,
            (assemble source).result = .error failure
            ↔ ReportsFirst entries none failure := by
  have growing := CodeLine.pairwise_among 1 (Text.splitLines source.toList)
  have assembled : (assemble source).result
      = (assembleWords source none).result.map Image.ofWords := Logged.result_map _ _
  refine ⟨Text.splitLines source.toList, CodeLine.among 1 (Text.splitLines source.toList),
    fun _ => Text.hasLines_iff, fun _ => CodeLine.mem_among_iff, growing, ?_, ?_, ?_, ?_⟩
  · intro words
    rw [assembleWords, result_assembleLines, mapM_assemble_eq_ok_iff]
  · intro failure
    rw [assembleWords, result_assembleLines, mapM_assemble_eq_error_iff growing]
  · intro image
    rw [assembled, assembleWords]
    constructor
    · intro h
      cases found : (assembleLines none 1 (Text.splitLines source.toList)).result with
      | error error => cases found ▸ h
      | ok words =>
          obtain rfl := Except.ok.inj (found ▸ h)
          have each := mapM_assemble_eq_ok_iff.mp ((result_assembleLines _ _ _).symm.trans found)
          refine ⟨words, each, Image.pack?_eq_some (isWord_of_assembleLines found), ?_⟩
          rw [Image.length_ofWords, each.length_eq]
    · intro h
      obtain ⟨words, each, packed, _⟩ := h
      have found := (result_assembleLines none 1 _).trans (mapM_assemble_eq_ok_iff.mpr each)
      rw [Image.pack?_eq_some (isWord_of_assembleLines found)] at packed
      rw [found, ← Option.some.inj packed]
      rfl
  · intro failure
    rw [assembled, ← mapM_assemble_eq_error_iff growing, ← result_assembleLines, assembleWords]
    cases (assembleLines none 1 (Text.splitLines source.toList)).result <;> simp [Except.map]

end RegisterMachine.Assembly
