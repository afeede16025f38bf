import RegisterMachine.Proofs.FirstRejection
import RegisterMachine.Proofs.Tokens

/-! Assembling a source text looks at the significant tokens of its lines of code.
How the text is laid out, which means its line endings, blank lines, comments, separators and
surplus tokens, decides neither the image nor the cause of a rejection.
-/

namespace RegisterMachine

-----------------------------------------------------------------------------------------
-- Line endings
-----------------------------------------------------------------------------------------

namespace Text

/-- What can end a line: a carriage return with a line feed, or any single terminator. -/
def lineEndings : List (List Char) :=
  ['\r', '\n'] :: lineTerminators.map fun c => [c]

theorem mem_lineEndings {ending : List Char}
    : ending ∈ lineEndings ↔ ending = ['\r', '\n'] ∨ ∃ c ∈ lineTerminators, ending = [c] := by
  simp only [lineEndings, List.mem_cons, List.mem_map, eq_comm]

theorem EndsLine.mem_lineEndings {ending rest : List Char} (ends : EndsLine ending rest)
    : ending ∈ lineEndings := by
  cases ends with
  | pair => exact Text.mem_lineEndings.mpr (Or.inl rfl)
  | single terminator => exact Text.mem_lineEndings.mpr (Or.inr ⟨_, terminator, rfl⟩)

theorem splitLines_feed (rest : List Char)
    : splitLines ('\n' :: rest) = [] :: splitLines rest :=
  splitLines_cons_terminator (by decide) fun carriage => absurd carriage (by decide)

/-- A text with line feeds for all its carriage returns has the same lines, by the cases of the
translation.
-/
theorem splitLines_unifyNewlines (text : List Char)
    : splitLines (unifyNewlines text) = splitLines text := by
  fun_induction unifyNewlines text with
  | case1 => rfl
  | case2 rest ih =>
      rw [splitLines_feed, ih]
      exact (EndsLine.pair : EndsLine _ rest).splitLines_eq.symm
  | case3 c rest noPair ih =>
      have alone : c = '\r' → ∀ more, rest ≠ '\n' :: more :=
        fun carriage more same => noPair more carriage same
      by_cases carriage : c = '\r'
      · rw [if_pos carriage, splitLines_feed, ih,
          splitLines_cons_terminator (by rw [carriage]; decide) alone]
      · rw [if_neg carriage]
        by_cases terminator : c ∈ lineTerminators
        · rw [splitLines_cons_terminator terminator fun h => (carriage h).elim, ih,
            splitLines_cons_terminator terminator alone]
        · rw [splitLines_cons_unbroken terminator, ih, ← splitLines_cons_unbroken terminator]

-- Carriage returns before and after a pair end empty lines of their own.
example
    : splitLines (unifyNewlines ['\r', '\r', '\n', '\r', 'a']) = [[], [], [], ['a']] := by decide

end Text

open Text

-----------------------------------------------------------------------------------------
-- Runs of joined texts
-----------------------------------------------------------------------------------------

namespace Text

variable {isBoundary : Char → Bool}

/-- Texts with boundaries between them have the runs of both, by induction on the split of the
first.
-/
theorem SplitsInto.append {first gap second : List Char} {runs runs' : List (List Char)}
    (h : SplitsInto isBoundary first runs) (some : gap ≠ [])
    (boundaries : ∀ c ∈ gap, isBoundary c = true) (h' : SplitsInto isBoundary second runs')
    : SplitsInto isBoundary (first ++ (gap ++ second)) (runs ++ runs') := by
  induction h with
  | blank around =>
      rw [splitsInto_iff] at h' ⊢
      rw [runs_append_boundaries around, runs_append_boundaries boundaries, h', List.nil_append]
  | @run before run rest _ around nonempty unbroken longest _ ih =>
      rw [List.append_assoc, List.append_assoc]
      refine .run around nonempty unbroken ?_ ih
      intro c head
      cases rest with
      | cons d rest => exact longest c head
      | nil =>
          rw [List.nil_append, List.head?_append_of_ne_nil _ some] at head
          exact boundaries c (List.mem_of_mem_head? head)

theorem runs_append_gap {gap : List Char} (some : gap ≠ [])
    (boundaries : ∀ c ∈ gap, isBoundary c = true) (first second : List Char)
    : runs isBoundary (first ++ (gap ++ second))
      = runs isBoundary first ++ runs isBoundary second :=
  splitsInto_iff.mp
    ((splitsInto_iff.mpr rfl).append some boundaries (splitsInto_iff.mpr rfl))

end Text

namespace Assembly

-----------------------------------------------------------------------------------------
-- Lines of code
-----------------------------------------------------------------------------------------

/-- The code of a text: its trimmed lines without those that are empty or comments. -/
def codeLines (text : List Char) : List (List Char) :=
  ((splitLines text).map trimLine).filter isCode

theorem codeLines_unbroken {line : List Char} (unbroken : ∀ c ∈ line, c ∉ lineTerminators)
    : codeLines line = [trimLine line].filter isCode := by
  by_cases empty : line = []
  · rw [empty]
    rfl
  · rw [codeLines, splitLines_unfinished empty unbroken, List.map_singleton]

theorem codeLines_endsLine {line ending rest : List Char}
    (unbroken : ∀ c ∈ line, c ∉ lineTerminators) (ends : EndsLine ending rest)
    : codeLines (line ++ (ending ++ rest)) = codeLines line ++ codeLines rest := by
  rw [codeLines_unbroken unbroken, codeLines, splitLines_line unbroken ends, List.map_cons,
    List.filter_cons, codeLines]
  cases kept : isCode (trimLine line) <;> simp [kept]

/-- The code of a line comes before that of what follows its ending, even if the ending is a
carriage return and takes a line feed behind it for its own.
-/
theorem codeLines_line {line ending : List Char} (unbroken : ∀ c ∈ line, c ∉ lineTerminators)
    (member : ending ∈ lineEndings) (rest : List Char)
    : codeLines (line ++ (ending ++ rest)) = codeLines line ++ codeLines rest := by
  rcases mem_lineEndings.mp member with rfl | ⟨c, terminator, rfl⟩
  · exact codeLines_endsLine unbroken .pair
  · by_cases merges : ∃ more, c = '\r' ∧ rest = '\n' :: more
    · obtain ⟨more, rfl, rfl⟩ := merges
      have feed : EndsLine ['\n'] more := .single (by decide) nofun
      have empty : codeLines ('\n' :: more) = codeLines more :=
        @codeLines_endsLine [] _ _ (List.forall_mem_nil _) feed
      have pair := codeLines_endsLine unbroken (.pair : EndsLine ['\r', '\n'] more)
      rw [empty]
      exact pair
    · exact codeLines_endsLine unbroken
        (.single terminator fun carriage more same => merges ⟨more, carriage, same⟩)

/-- A line ending adds no code, whatever follows it. -/
theorem codeLines_ending {ending : List Char} (member : ending ∈ lineEndings) (rest : List Char)
    : codeLines (ending ++ rest) = codeLines rest :=
  @codeLines_line [] _ (List.forall_mem_nil _) member rest

/-- A line ending divides the code of a text wherever it stands, by induction on the lines in front
of it.
-/
theorem codeLines_append {ending : List Char} (member : ending ∈ lineEndings)
    (first second : List Char)
    : codeLines (first ++ (ending ++ second)) = codeLines first ++ codeLines second := by
  have split := hasLines_splitLines first
  generalize splitLines first = lines at split
  induction split with
  | none => exact codeLines_ending member second
  | unfinished _ unbroken => exact codeLines_line unbroken member second
  | @line line _ rest _ unbroken ends _ ih =>
      have own := ends.mem_lineEndings
      rw [List.append_assoc, List.append_assoc, codeLines_line unbroken own,
        codeLines_line unbroken own, ih, List.append_assoc]

/-- A text after which a line starts: there is none, or it ends with a line ending. -/
def StartsLine (before : List Char) : Prop :=
  before = [] ∨ ∃ text, ∃ ending ∈ lineEndings, before = text ++ ending

/-- A text before which a line ends: there is none, or it begins with a line ending. -/
def FinishesLine (after : List Char) : Prop :=
  after = [] ∨ ∃ ending ∈ lineEndings, ∃ text, after = ending ++ text

theorem StartsLine.codeLines_append {before : List Char} (h : StartsLine before)
    (after : List Char)
    : codeLines (before ++ after) = codeLines before ++ codeLines after := by
  rcases h with rfl | ⟨text, ending, member, rfl⟩
  · rfl
  · have alone := Assembly.codeLines_append member text []
    rw [List.append_nil] at alone
    rw [List.append_assoc, Assembly.codeLines_append member, alone]
    exact congrArg (· ++ codeLines after) (List.append_nil _).symm

theorem FinishesLine.codeLines_append {after : List Char} (h : FinishesLine after)
    (before : List Char)
    : codeLines (before ++ after) = codeLines before ++ codeLines after := by
  rcases h with rfl | ⟨ending, member, text, rfl⟩
  · rw [List.append_nil]
    exact (List.append_nil _).symm
  · rw [Assembly.codeLines_append member, codeLines_ending member]

-----------------------------------------------------------------------------------------
-- Significant tokens
-----------------------------------------------------------------------------------------

/-- The tokens of a line without the surplus, which are the operands that a known operation does not
take.
-/
def significantTokens : List String → List String
  | [] => []
  | name :: operands =>
      match readOperation name with
      | .ok operation => name :: operands.take operation.pattern.length
      | .error _ => name :: operands

/-- The significant tokens of each line of code. -/
def significant (codes : List (List Char)) : List (List String) :=
  codes.map fun code => significantTokens (tokenize (String.ofList code))

/-- The significant tokens of a source text, line by line. -/
def significantLines (text : String) : List (List String) :=
  significant (codeLines text.toList)

theorem significant_append (codes codes' : List (List Char))
    : significant (codes ++ codes') = significant codes ++ significant codes' :=
  List.map_append

/-- Operands beyond the pattern are not read, by induction on the pattern. -/
theorem readOperands_take (pattern : Pattern) (tokens : List String) (operands : Operands)
    : readOperands pattern (tokens.take pattern.length) operands
      = readOperands pattern tokens operands := by
  induction pattern generalizing tokens operands with
  | nil => simp [readOperands]
  | cons slot pattern ih =>
      obtain ⟨kind, slot⟩ := slot
      cases tokens with
      | nil => rfl
      | cons token tokens =>
          rw [List.length_cons, List.take_succ_cons, readOperands, readOperands]
          cases readOperand kind token with
          | error error => rfl
          | ok value => exact ih tokens _

theorem readTokens_significantTokens (tokens : List String)
    : readTokens (significantTokens tokens) = readTokens tokens := by
  cases tokens with
  | nil => rfl
  | cons name operands =>
      rw [significantTokens]
      cases known : readOperation name with
      | error error => rfl
      | ok operation => simp only [readTokens, known, readOperands_take]

/-- The significant tokens of a line decide what is issued for it. -/
theorem issueLine_congr {code code' : String}
    (same : significantTokens (tokenize code) = significantTokens (tokenize code'))
    : issueLine code = issueLine code' := by
  rw [issueLine, issueLine, ← readTokens_significantTokens, same, readTokens_significantTokens]

-----------------------------------------------------------------------------------------
-- Assembling
-----------------------------------------------------------------------------------------

/-- Two texts have the same image, or they are rejected for causes of the same kind with the same
message, or the same conversion failed.
-/
inductive SameAssembly (first second : String) : Prop
  | image {image} (assembled : (assemble first).result = .ok image)
    (assembled' : (assemble second).result = .ok image)
    : SameAssembly first second
  | rejected {error error'} (refused : (assemble first).result = .error (.rejected error))
    (refused' : (assemble second).result = .error (.rejected error'))
    (kind : error.cause.kind = error'.cause.kind)
    (message : error.cause.message = error'.cause.message)
    : SameAssembly first second
  | unconverted {error} (failed : (assemble first).result = .error (.unconverted error))
    (failed' : (assemble second).result = .error (.unconverted error))
    : SameAssembly first second

/-- What a failure says apart from the line that it reports. -/
def AssemblyFailure.withoutLine : AssemblyFailure → AssemblyFailure
  | .rejected error => .rejected ⟨"", 0, error.cause, none⟩
  | .unconverted error => .unconverted error

theorem AssemblyFailure.withoutLine_ofLine (unit : Option String) (number : Nat)
    (line : List Char) (cause : InstructionError)
    : (ofLine unit number line cause).withoutLine = ofLine none 0 [] cause := by
  cases cause <;> rfl

/-- The word of code, or the failure without the line that it is on. -/
def readCode (code : List Char) : Except AssemblyFailure Int :=
  ((issueLine (String.ofList code)).map Issue.word).mapError (.ofLine none 0 [])

/-- Apart from the lines that are reported, lines are assembled by reading their code, by induction
on the lines.
-/
theorem withoutLine_assembleLines (unit : Option String) (number : Nat) (lines : List (List Char))
    : (assembleLines unit number lines).result.mapError AssemblyFailure.withoutLine
      = ((lines.map trimLine).filter isCode).mapM readCode := by
  induction lines generalizing number with
  | nil => rfl
  | cons line lines ih =>
      rw [assembleLines, List.map_cons, List.filter_cons]
      split
      · rw [Logged.result_andThen, assembleLine, List.mapM_cons, readCode, ← ih (number + 1)]
        cases issueLine (String.ofList (trimLine line)) with
        | error cause => exact congrArg Except.error (AssemblyFailure.withoutLine_ofLine ..)
        | ok issue =>
            simp only [Logged.result_after, Logged.result_value, Logged.result_map]
            cases (assembleLines unit (number + 1) lines).result <;> rfl
      · exact ih (number + 1)

theorem withoutLine_assemble (text : String)
    : (assemble text).result.mapError AssemblyFailure.withoutLine
      = ((codeLines text.toList).mapM readCode).map Image.ofWords := by
  rw [codeLines, ← withoutLine_assembleLines none 1, assemble, assembleWords, Logged.result_map]
  cases (assembleLines none 1 (splitLines text.toList)).result <;> rfl

/-- Lists of code with the same significant tokens are read alike, by induction on the first. -/
theorem mapM_readCode_congr {codes codes' : List (List Char)}
    (same : significant codes = significant codes')
    : codes.mapM readCode = codes'.mapM readCode := by
  induction codes generalizing codes' with
  | nil =>
      rw [List.map_eq_nil_iff.mp same.symm]
  | cons code codes ih =>
      cases codes' with
      | nil => cases same
      | cons code' codes' =>
          obtain ⟨here, later⟩ := List.cons.inj same
          rw [List.mapM_cons, List.mapM_cons, readCode, readCode, issueLine_congr here, ih later]

theorem sameAssembly_of_significantLines {first second : String}
    (same : significantLines first = significantLines second)
    : SameAssembly first second := by
  have results : (assemble first).result.mapError AssemblyFailure.withoutLine
      = (assemble second).result.mapError AssemblyFailure.withoutLine := by
    rw [withoutLine_assemble, withoutLine_assemble, mapM_readCode_congr same]
  cases assembled : (assemble first).result <;> cases assembled' : (assemble second).result <;>
    rw [assembled, assembled'] at results
  case ok.ok image image' =>
    obtain rfl : image = image' := Except.ok.inj results
    exact .image assembled assembled'
  case error.error failure failure' =>
    have results : failure.withoutLine = failure'.withoutLine := Except.error.inj results
    cases failure with
    | rejected error =>
        cases failure' with
        | rejected error' =>
            have cause : error.cause = error'.cause := by
              simpa [AssemblyFailure.withoutLine] using results
            exact .rejected assembled assembled' (by rw [cause]) (by rw [cause])
        | unconverted => cases results
    | unconverted error =>
        cases failure' with
        | rejected => cases results
        | unconverted error' =>
            obtain rfl : error = error' := by simpa [AssemblyFailure.withoutLine] using results
            exact .unconverted assembled assembled'
  all_goals cases results

-----------------------------------------------------------------------------------------
-- Edits of the layout
-----------------------------------------------------------------------------------------

/-- A separator that can stand within a line. -/
def IsGap (gap : List Char) : Prop :=
  gap ≠ [] ∧ ∀ c ∈ gap, c ∈ [' ', '\t', ',']

/-- The tokens of a line name a known operation and fill its pattern. -/
def IsComplete (tokens : List String) : Prop :=
  ∃ name operands operation,
    tokens = name :: operands
    ∧ readOperation name = .ok operation
    ∧ operation.pattern.length ≤ operands.length

/-- Changes of a trimmed line of code that leave its significant tokens alone. A gap after the first
token may be any other one, and after all operands there may be more tokens.
-/
inductive CodeEdit : List Char → List Char → Prop
  | gap {left gap gap' right} (some : left ≠ []) (isGap : IsGap gap) (isGap' : IsGap gap')
    : CodeEdit (left ++ (gap ++ right)) (left ++ (gap' ++ right))
  | surplus {code gap more} (complete : IsComplete (tokenize (String.ofList code)))
    (isGap : IsGap gap)
    : CodeEdit code (code ++ (gap ++ more))

/-- Changes of a line: other blanks around it, or a change of what is between them. -/
inductive LineEdit (line line' : List Char) : Prop
  | margins {core} (found : HasCore line core) (found' : HasCore line' core)
  | core {core core'} (found : HasCore line core) (found' : HasCore line' core')
    (edit : CodeEdit core core')

/-- Single changes of the layout of a text. A line without code comes in before or after other
lines, a line ending is replaced by another one, or the blanks, gaps or surplus tokens of a line
change.
-/
inductive LayoutEdit : List Char → List Char → Prop
  | lineBefore {before line ending after} (start : StartsLine before)
    (unbroken : ∀ c ∈ line, c ∉ lineTerminators) (skipped : isCode (trimLine line) = false)
    (ends : ending ∈ lineEndings)
    : LayoutEdit (before ++ after) (before ++ (line ++ (ending ++ after)))
  | lineAfter {before line ending after} (finish : FinishesLine after)
    (unbroken : ∀ c ∈ line, c ∉ lineTerminators) (skipped : isCode (trimLine line) = false)
    (ends : ending ∈ lineEndings)
    : LayoutEdit (before ++ after) (before ++ (ending ++ (line ++ after)))
  | ending {before ending ending' after} (ends : ending ∈ lineEndings)
    (ends' : ending' ∈ lineEndings)
    : LayoutEdit (before ++ (ending ++ after)) (before ++ (ending' ++ after))
  | line {before line line' after} (start : StartsLine before) (finish : FinishesLine after)
    (unbroken : ∀ c ∈ line, c ∉ lineTerminators) (unbroken' : ∀ c ∈ line', c ∉ lineTerminators)
    (edit : LineEdit line line')
    : LayoutEdit (before ++ (line ++ after)) (before ++ (line' ++ after))

theorem IsGap.separators {gap : List Char} (h : IsGap gap)
    : ∀ c ∈ gap, isSeparator c = true := by
  intro c member
  have listed := h.2 c member
  rw [isSeparator_iff]
  simp only [List.mem_cons, List.not_mem_nil, or_false] at listed ⊢
  tauto

/-- A gap divides the tokens of a line. -/
theorem tokenize_gap {gap : List Char} (h : IsGap gap) (left right : List Char)
    : tokenize (String.ofList (left ++ (gap ++ right)))
      = tokenize (String.ofList left) ++ tokenize (String.ofList right) := by
  simp only [tokenize, String.toList_ofList]
  rw [runs_append_gap h.1 h.separators, List.map_append]

/-- Complete lines have no significant tokens beyond their own. -/
theorem IsComplete.significantTokens_append {tokens : List String} (h : IsComplete tokens)
    (more : List String)
    : significantTokens (tokens ++ more) = significantTokens tokens := by
  obtain ⟨name, operands, operation, rfl, known, full⟩ := h
  simp only [List.cons_append, significantTokens, known, List.take_append_of_le_length full]

/-- What comes after a gap does not make a comment of a line. -/
theorem isCode_gap {left gap : List Char} (some : left ≠ []) (h : IsGap gap) (right : List Char)
    : isCode (left ++ (gap ++ right)) = isCode left := by
  obtain ⟨nonempty, listed⟩ := h
  obtain ⟨c, gap, rfl⟩ := List.exists_cons_of_ne_nil nonempty
  have noSlash : c ≠ '/' := by
    rintro rfl
    exact absurd (listed '/' List.mem_cons_self) (by decide)
  rw [Bool.eq_iff_iff, isCode_iff, isCode_iff]
  rcases left with _ | ⟨first, _ | ⟨second, left⟩⟩
  · exact (some rfl).elim
  · simp [noSlash.symm]
  · simp

/-- A change of a line of code leaves its significant tokens alone. -/
theorem CodeEdit.significant {code code' : List Char} (h : CodeEdit code code')
    : isCode code = isCode code'
      ∧ significantTokens (tokenize (String.ofList code))
        = significantTokens (tokenize (String.ofList code')) := by
  cases h with
  | gap some isGap isGap' =>
      rw [isCode_gap some isGap, isCode_gap some isGap', tokenize_gap isGap, tokenize_gap isGap']
      exact ⟨rfl, rfl⟩
  | surplus complete isGap =>
      have some : code ≠ [] := by
        rintro rfl
        obtain ⟨name, operands, operation, none, _⟩ := complete
        cases none
      rw [isCode_gap some isGap, tokenize_gap isGap, complete.significantTokens_append]
      exact ⟨rfl, rfl⟩

/-- A change of a line leaves its significant tokens alone. -/
theorem LineEdit.significant {line line' : List Char} (h : LineEdit line line')
    (unbroken : ∀ c ∈ line, c ∉ lineTerminators) (unbroken' : ∀ c ∈ line', c ∉ lineTerminators)
    : significant (codeLines line) = significant (codeLines line') := by
  rw [codeLines_unbroken unbroken, codeLines_unbroken unbroken']
  cases h with
  | margins found found' =>
      rw [show trimLine line = _ from (hasCore_iff.mp found).symm,
        show trimLine line' = _ from (hasCore_iff.mp found').symm]
  | @core core core' found found' edit =>
      rw [show trimLine line = _ from (hasCore_iff.mp found).symm,
        show trimLine line' = _ from (hasCore_iff.mp found').symm]
      obtain ⟨kept, tokens⟩ := edit.significant
      simp only [List.filter_cons, List.filter_nil, ← kept]
      cases isCode core with
      | false => rfl
      | true => exact congrArg (fun tokens => [tokens]) tokens

/-- Every change of the layout leaves the significant tokens alone, by cases on the change. -/
theorem LayoutEdit.significant {text text' : List Char} (h : LayoutEdit text text')
    : significant (codeLines text) = significant (codeLines text') := by
  have skip {line : List Char} (unbroken : ∀ c ∈ line, c ∉ lineTerminators)
      (skipped : isCode (trimLine line) = false)
      : codeLines line = [] := by
    rw [codeLines_unbroken unbroken, List.filter_singleton, skipped]
    rfl
  cases h with
  | lineBefore start unbroken skipped ends =>
      rw [start.codeLines_append, start.codeLines_append, codeLines_line unbroken ends,
        skip unbroken skipped, List.nil_append]
  | lineAfter finish unbroken skipped ends =>
      rw [finish.codeLines_append, codeLines_append ends, finish.codeLines_append,
        skip unbroken skipped, List.nil_append]
  | ending ends ends' => rw [codeLines_append ends, codeLines_append ends']
  | line start finish unbroken unbroken' edit =>
      rw [start.codeLines_append, start.codeLines_append, finish.codeLines_append,
        finish.codeLines_append]
      simp only [significant_append, edit.significant unbroken unbroken']

/-- Texts that are reached from each other by changes of the layout, in either direction, have the
same significant tokens, by induction on the changes.
-/
theorem significant_of_edits {text text' : List Char} (h : Relation.EqvGen LayoutEdit text text')
    : significant (codeLines text) = significant (codeLines text') := by
  induction h with
  | rel _ _ edit => exact edit.significant
  | refl => rfl
  | symm _ _ _ ih => exact ih.symm
  | trans _ _ _ _ _ ih ih' => exact ih.trans ih'

/-- Assembling depends on the significant tokens of the lines of code only.
Texts with the same significant tokens, line by line, have the same image or are rejected for the
same cause; and so do texts that differ by changes of the layout, since these leave the significant
tokens alone. A text with line feeds for all its carriage returns is even assembled to the same
result in every respect, with the place of an error and the log.
-/
theorem assembly_ignores_layout
    : (∀ first second,
        significantLines first = significantLines second → SameAssembly first second)
      ∧ (∀ first second : String,
          Relation.EqvGen LayoutEdit first.toList second.toList
          → significantLines first = significantLines second ∧ SameAssembly first second)
      ∧ ∀ (text : String) (unit : Option String),
          assembleWords (String.ofList (unifyNewlines text.toList)) unit = assembleWords text unit
          ∧ assemble (String.ofList (unifyNewlines text.toList)) = assemble text := by
  refine ⟨fun first second => sameAssembly_of_significantLines, fun first second edits => ?_,
    fun text unit => ?_⟩
  · have same : significantLines first = significantLines second := significant_of_edits edits
    exact ⟨same, sameAssembly_of_significantLines same⟩
  · have unified (unit : Option String)
        : assembleWords (String.ofList (unifyNewlines text.toList)) unit
          = assembleWords text unit := by
      rw [assembleWords, String.toList_ofList, splitLines_unifyNewlines, assembleWords]
    exact ⟨unified unit, congrArg (Logged.map Image.ofWords) (unified none)⟩

/-- A pair of texts that differ in all respects that do not matter, and a single change of a line
ending.
-/
theorem assembly_ignores_layout_listing
    : SameAssembly "PrintOperand R1 16\nSwap R1 R2"
        " PrintOperand\tR1,, 16 // a, b\u2028\u3000// swap\r\n\r\nSwap R1,R2 R3\x0c"
      ∧ SameAssembly "Swap R1 R2\nCopy R1 R99" "Swap R1 R2\r\nCopy R1 R99"
      ∧ assemble "Swap R1 R2\n\nCopy R1 R99" = assemble "Swap R1 R2\r\n\rCopy R1 R99" := by
  obtain ⟨tokens, edits, newlines⟩ := assembly_ignores_layout
  have change : LayoutEdit "Swap R1 R2\nCopy R1 R99".toList "Swap R1 R2\r\nCopy R1 R99".toList :=
    @LayoutEdit.ending "Swap R1 R2".toList ['\n'] ['\r', '\n'] "Copy R1 R99".toList
      (by decide) (by decide)
  have unified
      : String.ofList (unifyNewlines "Swap R1 R2\r\n\rCopy R1 R99".toList)
        = "Swap R1 R2\n\nCopy R1 R99" := by decide
  refine ⟨tokens _ _ (by decide +kernel), (edits _ _ (.rel _ _ change)).2, ?_⟩
  rw [← unified]
  exact (newlines _ none).2

end Assembly

end RegisterMachine
