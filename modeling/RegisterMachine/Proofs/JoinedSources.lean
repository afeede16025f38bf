import RegisterMachine.Proofs.FirstRejection

/-! Source units compiled one by one, and their texts joined by line feeds and assembled at once.
Both give the same words or fail on the same line for the same cause; only the numbers of the lines
are counted within a unit in the one case and within the whole text in the other.
-/

namespace RegisterMachine

-----------------------------------------------------------------------------------------
-- Lines of joined texts
-----------------------------------------------------------------------------------------

namespace Text

/-- Texts that are joined by a line feed keep their lines, by induction on the lines of the first.
An empty line may come between them; a carriage return at the end of the first text takes the line
feed for its own, and so does a last line without an ending.
-/
theorem splitLines_append_feed (first second : List Char)
    : ∃ gap,
        (∀ line ∈ gap, line = [])
        ∧ splitLines (first ++ '\n' :: second)
          = splitLines first ++ (gap ++ splitLines second) := by
  have feed (rest : List Char) : EndsLine ['\n'] rest := .single (by decide) nofun
  have split := hasLines_splitLines first
  generalize splitLines first = lines at split
  induction split with
  | none => exact ⟨[[]], List.forall_mem_singleton.mpr rfl, (feed second).splitLines_eq⟩
  | @unfinished line _ unbroken =>
      exact ⟨[], List.forall_mem_nil _, splitLines_line unbroken (feed second)⟩
  | @line line ending rest lines unbroken ends later ih =>
      obtain ⟨gap, empty, ih⟩ := ih
      rw [List.append_assoc, List.append_assoc]
      -- Only a carriage return at the very end of the first text takes the line feed for its own.
      by_cases merges : ending = ['\r'] ∧ rest = []
      · obtain ⟨rfl, rfl⟩ := merges
        obtain rfl := hasLines_iff.mp later
        refine ⟨[], List.forall_mem_nil _, ?_⟩
        exact splitLines_line unbroken (.pair : EndsLine ['\r', '\n'] second)
      · have ends' : EndsLine ending (rest ++ '\n' :: second) := by
          cases ends with
          | pair => exact .pair
          | single terminator alone =>
              refine .single terminator fun carriage more same => ?_
              rcases rest with _ | ⟨c, rest⟩
              · exact merges ⟨by rw [carriage], rfl⟩
              · exact alone carriage rest (congrArg (· :: rest) (List.cons.inj same).1)
        exact ⟨gap, empty, by rw [splitLines_line unbroken ends', ih, List.cons_append]⟩

-- The first text ends with a carriage return, and the second begins with an empty line.
example : splitLines ['a', '\r', '\n', '\n', 'b'] = [['a'], [], ['b']] := by decide

end Text

namespace Assembly

-----------------------------------------------------------------------------------------
-- Reading without places
-----------------------------------------------------------------------------------------

namespace AssemblyFailure

/-- The name of the unit is given to a rejection and makes no other difference. -/
def inUnit (unit : Option String) : AssemblyFailure → AssemblyFailure
  | .rejected error => .rejected { error with unit := unit }
  | .unconverted error => .unconverted error

/-- A rejection with another number for its line. -/
def atLine (number : Nat) : AssemblyFailure → AssemblyFailure
  | .rejected error => .rejected { error with lineNumber := number }
  | .unconverted error => .unconverted error

/-- What a failure says apart from its place. -/
def unplaced (failure : AssemblyFailure) : AssemblyFailure :=
  (failure.inUnit none).atLine 0

theorem inUnit_ofLine (unit unit' : Option String) (number : Nat) (line : List Char)
    (cause : InstructionError)
    : (ofLine unit number line cause).inUnit unit' = ofLine unit' number line cause := by
  cases cause <;> rfl

theorem unplaced_ofLine (unit : Option String) (number : Nat) (line : List Char)
    (cause : InstructionError)
    : (ofLine unit number line cause).unplaced = ofLine none 0 line cause := by
  cases cause <;> rfl

/-- Failures that say the same differ in their place. -/
theorem exists_eq_atLine {first second : AssemblyFailure} (hfirst : first.inUnit none = first)
    (hsecond : second.inUnit none = second) (same : first.unplaced = second.unplaced)
    : ∃ number, first = second.atLine number := by
  rw [unplaced, unplaced, hfirst, hsecond] at same
  rcases first with ⟨line, number, cause, unit⟩ | error <;>
    rcases second with ⟨line', number', cause', unit'⟩ | error' <;>
    cases same
  · exact ⟨number, rfl⟩
  · exact ⟨0, rfl⟩

end AssemblyFailure

/-- The word of a line of code. -/
def readLine (line : List Char) : Except AssemblyFailure Int :=
  match issueLine (String.ofList (trimLine line)) with
  | .ok issue => .ok issue.word
  | .error cause => .error (.ofLine none 0 line cause)

/-- The words of the lines of code among some lines. -/
def readLines (lines : List (List Char)) : Except AssemblyFailure (List Int) :=
  (lines.filter fun line => isCode (trimLine line)).mapM readLine

def readText (text : String) : Except AssemblyFailure (List Int) :=
  readLines (Text.splitLines text.toList)

theorem readLines_append (first second : List (List Char))
    : readLines (first ++ second)
      = readLines first >>= fun words => (readLines second).map (words ++ ·) := by
  rw [readLines, List.filter_append, List.mapM_append]
  rfl

/-- Empty lines hold no code. -/
theorem readLines_gap_append {gap : List (List Char)} (empty : ∀ line ∈ gap, line = [])
    (lines : List (List Char))
    : readLines (gap ++ lines) = readLines lines := by
  have skipped : gap.filter (fun line => isCode (trimLine line)) = [] := by
    refine List.filter_eq_nil_iff.mpr fun line member => ?_
    rw [empty line member]
    decide
  rw [readLines, List.filter_append, skipped, List.nil_append, readLines]

/-- Assembling lines differs from reading them in nothing but the places of failures, by induction
on the lines.
-/
theorem unplaced_assembleLines (unit : Option String) (first : Nat) (lines : List (List Char))
    : (assembleLines unit first lines).result.mapError AssemblyFailure.unplaced
      = readLines lines := by
  induction lines generalizing first with
  | nil => rfl
  | cons line lines ih =>
      rw [assembleLines, readLines, List.filter_cons]
      split
      · rw [Logged.result_andThen, assembleLine, List.mapM_cons, readLine, ← readLines,
          ← ih (first + 1)]
        cases issueLine (String.ofList (trimLine line)) with
        | error cause => exact congrArg Except.error (AssemblyFailure.unplaced_ofLine ..)
        | ok issue =>
            simp only [Logged.result_after, Logged.result_value, Logged.result_map]
            cases (assembleLines unit (first + 1) lines).result <;> rfl
      · exact ih (first + 1)

theorem unplaced_assembleWords (source : String) (unit : Option String)
    : (assembleWords source unit).result.mapError AssemblyFailure.unplaced = readText source :=
  unplaced_assembleLines unit 1 _

theorem readText_eq_ok_iff {source : String} (unit : Option String) {words : List Int}
    : readText source = .ok words ↔ (assembleWords source unit).result = .ok words := by
  rw [← unplaced_assembleWords source unit, mapError_eq_ok_iff]

theorem readText_eq_error_iff {source : String} (unit : Option String)
    {objection : AssemblyFailure}
    : readText source = .error objection
      ↔ ∃ failure,
          (assembleWords source unit).result = .error failure ∧ failure.unplaced = objection := by
  rw [← unplaced_assembleWords source unit, mapError_eq_error_iff]

theorem readText_append_feed (first second : String)
    : readText (first ++ "\n" ++ second)
      = readText first >>= fun words => (readText second).map (words ++ ·) := by
  obtain ⟨gap, empty, split⟩ := Text.splitLines_append_feed first.toList second.toList
  have joined : (first ++ "\n" ++ second).toList = first.toList ++ '\n' :: second.toList := by
    simp
  rw [readText, joined, split, readLines_append, readLines_gap_append empty]
  rfl

/-- Texts joined by line feeds are read one after the other, by induction on the texts. -/
theorem readText_intercalate (texts : List String)
    : readText ("\n".intercalate texts) = (texts.mapM readText).map List.flatten := by
  induction texts with
  | nil => rfl
  | cons text rest ih =>
      rw [List.mapM_cons]
      cases rest with
      | nil =>
          rw [String.intercalate_singleton, List.mapM_nil]
          cases readText text with
          | error objection => rfl
          | ok words => exact congrArg Except.ok (List.append_nil words).symm
      | cons next rest =>
          rw [String.intercalate_cons_cons, readText_append_feed, ih]
          cases readText text with
          | error objection => rfl
          | ok words => cases (next :: rest).mapM readText <;> rfl

-----------------------------------------------------------------------------------------
-- Units
-----------------------------------------------------------------------------------------

/-- Lines of a unit are assembled like lines of a text, by induction on the lines. -/
theorem assembleLines_inUnit (unit : Option String) (first : Nat) (lines : List (List Char))
    : assembleLines unit first lines
      = ⟨(assembleLines none first lines).log,
          (assembleLines none first lines).result.mapError (.inUnit unit)⟩ := by
  induction lines generalizing first with
  | nil => rfl
  | cons line lines ih =>
      rw [assembleLines, assembleLines]
      split
      · rw [assembleLine, assembleLine, ih (first + 1)]
        cases issueLine (String.ofList (trimLine line)) with
        | error cause =>
            simp only [← AssemblyFailure.inUnit_ofLine none unit]
            rfl
        | ok issue =>
            simp only [Logged.andThen, Logged.map, Logged.result_after, Logged.result_value]
            cases (assembleLines none (first + 1) lines).result <;> rfl
      · exact ih (first + 1)

theorem assembleWords_inUnit (source : String) (unit : Option String)
    : assembleWords source unit
      = ⟨(assembleWords source none).log,
          (assembleWords source none).result.mapError (.inUnit unit)⟩ :=
  assembleLines_inUnit unit 1 _

theorem inUnit_of_assembleWords {source : String} {failure : AssemblyFailure}
    (refused : (assembleWords source none).result = .error failure)
    : failure.inUnit none = failure := by
  have same := congrArg Logged.result (assembleWords_inUnit source none)
  simp only [refused, Except.mapError, Except.error.injEq] at same
  exact same.symm

/-- Units are assembled one after the other, and the first error decides, by induction on the units.
-/
theorem result_assembleUnits (units : List SourceUnit)
    : (assembleUnits units).result
      = (units.mapM fun unit => (assembleWords unit.contents (some unit.name)).result).map
          List.flatten := by
  induction units with
  | nil => rfl
  | cons unit units ih =>
      rw [assembleUnits, List.mapM_cons, Logged.result_after, Logged.result_andThen]
      cases (assembleWords unit.contents (some unit.name)).result with
      | error error => rfl
      | ok words =>
          simp only [Except.bind, Logged.result_map, ih]
          cases units.mapM fun unit => (assembleWords unit.contents (some unit.name)).result <;> rfl

/-- The text of units, each joined to the next one by a line feed. -/
def joinedText (units : List SourceUnit) : String :=
  "\n".intercalate (units.map SourceUnit.contents)

theorem readText_joinedText (units : List SourceUnit)
    : readText (joinedText units)
      = (units.mapM fun unit => readText unit.contents).map List.flatten := by
  rw [joinedText, readText_intercalate, List.mapM_map]
  rfl

/-- The records of processing a unit. -/
def SourceUnit.records (unit : SourceUnit) : List LogRecord :=
  .processing unit.name :: (assemble unit.contents).log

/-- Units with words are processed whole before the units after them, by induction on the units. -/
theorem log_assembleUnits_append {before : List SourceUnit}
    (accepted : ∀ unit ∈ before, ∃ words, readText unit.contents = .ok words)
    (rest : List SourceUnit)
    : (assembleUnits (before ++ rest)).log
      = before.flatMap SourceUnit.records ++ (assembleUnits rest).log := by
  induction before with
  | nil => rfl
  | cons unit before ih =>
      obtain ⟨⟨words, here⟩, later⟩ := List.forall_mem_cons.mp accepted
      rw [List.cons_append, assembleUnits, assembleWords_inUnit,
        (readText_eq_ok_iff none).mp here, List.flatMap_cons, List.append_assoc, ← ih later]
      rfl

/-- The unit that fails is the last that is processed. -/
theorem log_assembleUnits_rejected {unit : SourceUnit} {failure : AssemblyFailure}
    (refused : (assembleWords unit.contents none).result = .error failure)
    (after : List SourceUnit)
    : (assembleUnits (unit :: after)).log = unit.records := by
  rw [assembleUnits, assembleWords_inUnit, refused]
  rfl

-----------------------------------------------------------------------------------------
-- Images
-----------------------------------------------------------------------------------------

/-- The two ways in which units are compiled. If all of them assemble, the image is theirs one after
the other, and that of the joined text. If not, the first that does not is reported under its name
with the line that is counted within it, and no unit after it is processed; assembling the joined
text reports the same line and cause, with the number that the line has there. A conversion that
failed has neither a name nor a line, and is the same in both.
-/
inductive Compiles (units : List SourceUnit) : Prop
  | image {images}
    (each
      : List.Forall₂ (fun unit image => (assemble unit.contents).result = .ok image) units images)
    (whole : (compileUnits units).result = .ok images.flatten)
    (joined : (assemble (joinedText units)).result = .ok images.flatten)
    (processed : (compileUnits units).log = units.flatMap SourceUnit.records)
  | failed {before unit after failure} (split : units = before ++ unit :: after)
    (accepted : ∀ earlier ∈ before, ∃ image, (assemble earlier.contents).result = .ok image)
    (refused : (assemble unit.contents).result = .error failure)
    (whole : (compileUnits units).result = .error (failure.inUnit (some unit.name)))
    (joined
      : ∃ number, (assemble (joinedText units)).result = .error (failure.atLine number))
    (processed : (compileUnits units).log = (before ++ [unit]).flatMap SourceUnit.records)

theorem assemble_of_readText {source : String} {words : List Int}
    (read : readText source = .ok words)
    : (assemble source).result = .ok (Image.ofWords words) := by
  rw [assemble, Logged.result_map, (readText_eq_ok_iff none).mp read]
  rfl

theorem assemble_eq_error_iff {source : String} {failure : AssemblyFailure}
    : (assemble source).result = .error failure
      ↔ (assembleWords source none).result = .error failure := by
  rw [assemble, Logged.result_map, map_eq_error_iff]

/-- Units that can all be read are compiled to an image. -/
theorem compiles_of_read {units : List SourceUnit} {parts : List (List Int)}
    (each : List.Forall₂ (fun unit words => readText unit.contents = .ok words) units parts)
    : Compiles units := by
  have images
      : List.Forall₂ (fun unit image => (assemble unit.contents).result = .ok image) units
          (parts.map Image.ofWords) :=
    List.forall₂_map_right_iff.mpr (each.imp fun _ _ => assemble_of_readText)
  have named
      : List.Forall₂
          (fun unit words => (assembleWords unit.contents (some unit.name)).result = .ok words)
          units parts :=
    each.imp fun unit _ => (readText_eq_ok_iff (some unit.name)).mp
  have joined : readText (joinedText units) = .ok parts.flatten := by
    rw [readText_joinedText, mapM_eq_ok_iff.mpr each]
    rfl
  have accepted : ∀ unit ∈ units, ∃ words, readText unit.contents = .ok words :=
    exists_of_forall₂ each
  refine .image images ?_ ?_ ?_
  · rw [compileUnits, Logged.result_map, result_assembleUnits, mapM_eq_ok_iff.mpr named,
      ← Image.ofWords_flatten]
    rfl
  · rw [assemble_of_readText joined, Image.ofWords_flatten]
  · have log := log_assembleUnits_append accepted []
    rwa [List.append_nil, assembleUnits, Logged.value, Logged.ofExcept, List.append_nil] at log

/-- The first unit that cannot be read decides. -/
theorem compiles_of_objection {before after : List SourceUnit} {unit : SourceUnit}
    {objection : AssemblyFailure}
    (accepted : ∀ earlier ∈ before, ∃ words, readText earlier.contents = .ok words)
    (failed : readText unit.contents = .error objection)
    : Compiles (before ++ unit :: after) := by
  obtain ⟨failure, refused, rfl⟩ := (readText_eq_error_iff none).mp failed
  have named
      : (assembleWords unit.contents (some unit.name)).result
        = .error (failure.inUnit (some unit.name)) := by
    rw [assembleWords_inUnit, refused]
    rfl
  have joined : readText (joinedText (before ++ unit :: after)) = .error failure.unplaced := by
    rw [readText_joinedText, map_eq_error_iff, mapM_eq_error_iff]
    exact ⟨before, unit, after, rfl, accepted, failed⟩
  obtain ⟨found, refused', same⟩ := (readText_eq_error_iff none).mp joined
  refine .failed rfl ?_ (assemble_eq_error_iff.mpr refused) ?_ ?_ ?_
  · intro earlier member
    obtain ⟨words, read⟩ := accepted earlier member
    exact ⟨_, assemble_of_readText read⟩
  · rw [compileUnits, Logged.result_map, map_eq_error_iff, result_assembleUnits, map_eq_error_iff,
      mapM_eq_error_iff]
    refine ⟨before, unit, after, rfl, fun earlier member => ?_, named⟩
    obtain ⟨words, read⟩ := accepted earlier member
    exact ⟨words, (readText_eq_ok_iff _).mp read⟩
  · obtain ⟨number, rfl⟩ := AssemblyFailure.exists_eq_atLine (inUnit_of_assembleWords refused')
      (inUnit_of_assembleWords refused) same
    exact ⟨number, assemble_eq_error_iff.mpr refused'⟩
  · have log := log_assembleUnits_append accepted (unit :: after)
    rw [log_assembleUnits_rejected refused] at log
    rw [List.flatMap_append, List.flatMap_singleton, ← log]
    rfl

/-- Compiling units one by one is assembling their joined texts.
Units have an image exactly if each of them assembles. Whatever their texts end with, and however
many of them are empty, the image is that of the joined text, and otherwise the joined text fails
on the same line for the same cause as the first unit that does not assemble.
-/
theorem compileUnits_joined (units : List SourceUnit)
    : ((∃ image, (compileUnits units).result = .ok image)
        ↔ ∀ unit ∈ units, ∃ image, (assemble unit.contents).result = .ok image)
      ∧ Compiles units := by
  have compiles : Compiles units := by
    cases result : units.mapM fun unit => readText unit.contents with
    | ok parts => exact compiles_of_read (mapM_eq_ok_iff.mp result)
    | error objection =>
        obtain ⟨before, unit, after, rfl, accepted, failed⟩ := mapM_eq_error_iff.mp result
        exact compiles_of_objection accepted failed
  refine ⟨?_, compiles⟩
  cases compiles with
  | image each whole _ _ =>
      exact ⟨fun _ => exists_of_forall₂ each, fun _ => ⟨_, whole⟩⟩
  | @failed before unit after failure split _ refused whole _ _ =>
      refine ⟨fun compiled => ?_, fun all => ?_⟩
      · obtain ⟨image, compiled⟩ := compiled
        cases whole.symm.trans compiled
      · have member : unit ∈ units := by
          rw [split]
          exact List.mem_append_right _ List.mem_cons_self
        obtain ⟨image, assembled⟩ := all unit member
        cases refused.symm.trans assembled

end Assembly

end RegisterMachine
