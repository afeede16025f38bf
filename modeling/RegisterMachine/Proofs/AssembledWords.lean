import RegisterMachine.Assembly.Source
import RegisterMachine.Machine
import RegisterMachine.Proofs.WordFields

/-! Assembled words fit into 32 bits, so that their image holds them as they are, and are of known
operations.
-/

namespace RegisterMachine

namespace Assembly

/-- An accepted line has the word of an instruction whose fields fit. -/
theorem fit_of_issueLine {text : String} {issue : Issue} (h : issueLine text = .ok issue)
    : issue.instruction.fields.Fit ∧ issue.instruction.fields.toWord = issue.word := by
  unfold issueLine at h
  cases read : readTokens (tokenize text) with
  | error error => simp [read] at h
  | ok instruction =>
      simp only [read] at h
      cases encoded : instruction.fields.encode with
      | error error => cases error <;> simp [encoded] at h
      | ok word =>
          simp only [encoded, Except.ok.injEq] at h
          rw [← h]
          exact (Fields.encode_eq_ok_iff _ _).mp encoded

/-- Lines of code give their words one by one. -/
theorem assembleLines_cons {unit : Option String} {number : Nat} {line : List Char}
    {lines : List (List Char)} {words : List Int}
    (h : (assembleLines unit number (line :: lines)).result = .ok words)
    (code : isCode (trimLine line) = true)
    : ∃ issue rest,
        issueLine (String.ofList (trimLine line)) = .ok issue
        ∧ (assembleLines unit (number + 1) lines).result = .ok rest
        ∧ words = issue.word :: rest := by
  rw [assembleLines, if_pos code, Logged.result_andThen, assembleLine] at h
  cases read : issueLine (String.ofList (trimLine line)) with
  | error cause => simp [read, Except.bind] at h
  | ok issue =>
      cases later : (assembleLines unit (number + 1) lines).result with
      | error error => simp [read, later, Except.bind, Except.map] at h
      | ok rest =>
          simp only [read, later, Logged.result_after, Logged.result_value, Logged.result_map,
            Except.bind, Except.map, Except.ok.injEq] at h
          exact ⟨issue, rest, rfl, rfl, h.symm⟩

/-- What holds of the word of every accepted line holds of all assembled words, by induction on the
lines.
-/
theorem forall_mem_of_assembleLines {Words : Int → Prop}
    (issued : ∀ text issue, issueLine text = .ok issue → Words issue.word)
    {unit : Option String} {number : Nat} {lines : List (List Char)} {words : List Int}
    (h : (assembleLines unit number lines).result = .ok words)
    : ∀ word ∈ words, Words word := by
  induction lines generalizing number words with
  | nil =>
      obtain rfl : [] = words := Except.ok.inj h
      simp
  | cons line lines ih =>
      by_cases code : isCode (trimLine line) = true
      · obtain ⟨issue, rest, read, later, rfl⟩ := assembleLines_cons h code
        exact List.forall_mem_cons.mpr ⟨issued _ issue read, ih later⟩
      · rw [assembleLines, if_neg code] at h
        exact ih h

theorem isWord_of_assembleLines {unit : Option String} {number : Nat} {lines : List (List Char)}
    {words : List Int} (h : (assembleLines unit number lines).result = .ok words)
    : ∀ word ∈ words, IsWord word := by
  refine forall_mem_of_assembleLines (fun text issue read => ?_) h
  obtain ⟨fit, same⟩ := fit_of_issueLine read
  exact same ▸ fit.isWord_toWord

/-- Assembled words are of known operations. -/
theorem exists_operation_of_assembleLines {unit : Option String} {number : Nat}
    {lines : List (List Char)} {words : List Int}
    (h : (assembleLines unit number lines).result = .ok words)
    : ∀ word ∈ words,
        ∃ operation, Operation.ofCode? (Fields.ofWord word).opcode = some operation := by
  refine forall_mem_of_assembleLines (fun text issue read => ?_) h
  obtain ⟨fit, same⟩ := fit_of_issueLine read
  refine ⟨issue.instruction.operation, ?_⟩
  rw [← same, fit.ofWord_toWord, Instruction.fields, Operation.ofCode?_code]

theorem assemble_eq_ok {source : String} {image : Image} (h : (assemble source).result = .ok image)
    : ∃ words, (assembleWords source none).result = .ok words ∧ image = Image.ofWords words := by
  rw [assemble, Logged.result_map] at h
  cases words : (assembleWords source none).result with
  | error error => simp [words, Except.map] at h
  | ok found =>
      rw [words] at h
      exact ⟨found, rfl, (Except.ok.inj h).symm⟩

end Assembly

namespace Machine

/-- An image of words of 32 bits is executed word by word. -/
theorem execute_ofWords {words : List Int} (h : ∀ word ∈ words, IsWord word) (machine : Machine)
    : machine.execute (Image.ofWords words) = machine.steps words := by
  have whole : reportTruncation (Image.ofWords words) = Outcome.idle := by
    funext machine
    rw [reportTruncation, Image.truncation?_ofWords]
  rw [execute, Image.words_ofWords h, whole, Outcome.andThen_idle]

end Machine

end RegisterMachine
