import Mathlib
import RegisterMachine.Assembly.Operand

/-! The runs of a text are its longest stretches without a boundary.
This describes the split of a text without a scan over it, and the scan finds no other split.
-/

namespace RegisterMachine

namespace Text

/-- A text consists of the given runs in this order, with boundaries before, between and after them.
A run is followed by a boundary or by nothing, so that it cannot be made longer.
-/
inductive SplitsInto (isBoundary : Char → Bool) : List Char → List (List Char) → Prop
  | blank {gap} (boundaries : ∀ c ∈ gap, isBoundary c = true)
    : SplitsInto isBoundary gap []
  | run {gap run rest runs} (boundaries : ∀ c ∈ gap, isBoundary c = true)
    (nonempty : run ≠ []) (unbroken : ∀ c ∈ run, isBoundary c = false)
    (longest : ∀ c ∈ rest.head?, isBoundary c = true) (later : SplitsInto isBoundary rest runs)
    : SplitsInto isBoundary (gap ++ (run ++ rest)) (run :: runs)

variable {isBoundary : Char → Bool}

theorem SplitsInto.nonempty_unbroken {text : List Char} {runs : List (List Char)}
    (h : SplitsInto isBoundary text runs)
    : ∀ run ∈ runs, run ≠ [] ∧ ∀ c ∈ run, isBoundary c = false := by
  induction h with
  | blank _ => simp
  | run _ nonempty unbroken _ _ ih =>
      intro run member
      rcases List.mem_cons.mp member with rfl | member
      · exact ⟨nonempty, unbroken⟩
      · exact ih run member

theorem SplitsInto.cons_boundary {c : Char} {text : List Char} {runs : List (List Char)}
    (hc : isBoundary c = true) (h : SplitsInto isBoundary text runs)
    : SplitsInto isBoundary (c :: text) runs := by
  have hgap {gap : List Char} (boundaries : ∀ d ∈ gap, isBoundary d = true)
      : ∀ d ∈ c :: gap, isBoundary d = true := by
    intro d member
    rcases List.mem_cons.mp member with rfl | member
    · exact hc
    · exact boundaries d member
  cases h with
  | blank boundaries => exact .blank (hgap boundaries)
  | run boundaries nonempty unbroken longest later =>
      exact .run (hgap boundaries) nonempty unbroken longest later

/-- An unbroken stretch in front of a split text is a run, unless it is empty. -/
theorem SplitsInto.consRun {run rest : List Char} {runs : List (List Char)}
    (unbroken : ∀ c ∈ run, isBoundary c = false)
    (longest : ∀ c ∈ rest.head?, isBoundary c = true) (later : SplitsInto isBoundary rest runs)
    : SplitsInto isBoundary (run ++ rest) (Text.consRun run runs) := by
  by_cases hrun : run = []
  · simpa [Text.consRun, hrun] using later
  · have hgap : ∀ c ∈ ([] : List Char), isBoundary c = true := by simp
    simpa [Text.consRun, hrun] using SplitsInto.run hgap hrun unbroken longest later

/-- The scan cuts a text after its first unbroken stretch and splits what is left,
by induction on the text.
-/
theorem scanRuns_splits (isBoundary : Char → Bool) (text : List Char)
    : ∃ rest,
        text = (scanRuns isBoundary text).1 ++ rest
        ∧ (∀ c ∈ (scanRuns isBoundary text).1, isBoundary c = false)
        ∧ (∀ c ∈ rest.head?, isBoundary c = true)
        ∧ SplitsInto isBoundary rest (scanRuns isBoundary text).2 := by
  induction text with
  | nil => exact ⟨[], rfl, by simp [scanRuns], by simp, .blank (by simp)⟩
  | cons c text ih =>
      obtain ⟨rest, cut, unbroken, longest, later⟩ := ih
      cases hc : isBoundary c with
      | true =>
          simp only [scanRuns, hc, if_true]
          have split := later.consRun unbroken longest
          rw [← cut] at split
          exact ⟨c :: text, rfl, by simp, by simpa using hc, split.cons_boundary hc⟩
      | false =>
          simp only [scanRuns, hc, Bool.false_eq_true, if_false]
          refine ⟨rest, congrArg (c :: ·) cut, ?_, longest, later⟩
          intro d member
          rcases List.mem_cons.mp member with rfl | member
          · exact hc
          · exact unbroken d member

/-- Boundaries at the start of a text belong to no run, by induction on them. -/
theorem runs_append_boundaries {gap : List Char} (boundaries : ∀ c ∈ gap, isBoundary c = true)
    (text : List Char)
    : runs isBoundary (gap ++ text) = runs isBoundary text := by
  induction gap with
  | nil => rfl
  | cons c gap ih =>
      rw [List.cons_append, runs_cons_boundary (boundaries c List.mem_cons_self)]
      exact ih fun d member => boundaries d (List.mem_cons_of_mem c member)

/-- An unbroken stretch up to a boundary or the end is scanned as one run,
by induction on the stretch.
-/
theorem scanRuns_append {run rest : List Char} (unbroken : ∀ c ∈ run, isBoundary c = false)
    (longest : ∀ c ∈ rest.head?, isBoundary c = true)
    : scanRuns isBoundary (run ++ rest) = (run, runs isBoundary rest) := by
  induction run with
  | nil =>
      cases rest with
      | nil => rfl
      | cons c rest =>
          have hc : isBoundary c = true := longest c rfl
          simp [runs, scanRuns, hc, consRun]
  | cons c run ih =>
      have hrun := ih fun d member => unbroken d (List.mem_cons_of_mem c member)
      simp [scanRuns, hrun, unbroken c List.mem_cons_self]

/-- The runs of a text are the only way to split it. -/
theorem splitsInto_iff {text : List Char} {found : List (List Char)}
    : SplitsInto isBoundary text found ↔ runs isBoundary text = found := by
  constructor
  · intro h
    induction h with
    | @blank gap boundaries =>
        simpa [runs, scanRuns, Text.consRun] using runs_append_boundaries boundaries []
    | run boundaries nonempty unbroken longest _ ih =>
        rw [runs_append_boundaries boundaries, runs, scanRuns_append unbroken longest, ih]
        simp [consRun, nonempty]
  · intro h
    subst h
    obtain ⟨rest, cut, unbroken, longest, later⟩ := scanRuns_splits isBoundary text
    have split := later.consRun unbroken longest
    rwa [← cut] at split

/-- Unbroken stretches with one boundary between neighbours are read back as the runs,
by induction on the stretches.
-/
theorem runs_intercalate {boundary : Char} (hboundary : isBoundary boundary = true)
    {stretches : List (List Char)}
    (h : ∀ run ∈ stretches, run ≠ [] ∧ ∀ c ∈ run, isBoundary c = false)
    : runs isBoundary ([boundary].intercalate stretches) = stretches := by
  rw [← splitsInto_iff]
  have hgap : ∀ c ∈ ([] : List Char), isBoundary c = true := by simp
  induction stretches with
  | nil => exact .blank (by simp)
  | cons run rest ih =>
      obtain ⟨nonempty, unbroken⟩ := h run List.mem_cons_self
      have later := ih fun other member => h other (List.mem_cons_of_mem run member)
      cases rest with
      | nil =>
          have hend : ∀ c ∈ ([] : List Char).head?, isBoundary c = true := by simp
          simpa using SplitsInto.run hgap nonempty unbroken hend later
      | cons next rest =>
          rw [List.intercalate_cons_cons]
          have split := SplitsInto.run hgap nonempty unbroken
            (by simpa using hboundary) (later.cons_boundary hboundary)
          simpa using split

end Text

namespace Assembly

theorem isSeparator_iff (c : Char)
    : isSeparator c = true ↔ c ∈ [' ', '\t', '\r', '\n', ','] := by
  simp only [isSeparator, isPadding, Bool.or_eq_true, beq_iff_eq, List.mem_cons,
    List.not_mem_nil, or_false, or_assoc]

/-- The tokens of a line are its longest stretches without a separator. -/
theorem tokenize_splits (text : String)
    : Text.SplitsInto isSeparator text.toList ((tokenize text).map String.toList) := by
  rw [Text.splitsInto_iff, tokenize, List.map_map]
  simp [Function.comp_def]

theorem token_unbroken {text token : String} (member : token ∈ tokenize text)
    : token.toList ≠ [] ∧ ∀ c ∈ token.toList, isSeparator c = false :=
  (tokenize_splits text).nonempty_unbroken _ (List.mem_map_of_mem member)

/-- Tokens joined by single spaces are the tokens of the line that they make. -/
theorem tokenize_intercalate {tokens : List String}
    (h : ∀ token ∈ tokens, token.toList ≠ [] ∧ ∀ c ∈ token.toList, isSeparator c = false)
    : tokenize (" ".intercalate tokens) = tokens := by
  have hspace : isSeparator ' ' = true := by decide
  have hruns : ∀ run ∈ tokens.map String.toList, run ≠ [] ∧ ∀ c ∈ run, isSeparator c = false := by
    intro run member
    obtain ⟨token, htoken, rfl⟩ := List.mem_map.mp member
    exact h token htoken
  rw [tokenize, String.toList_intercalate]
  simp [Text.runs_intercalate hspace hruns, Function.comp_def]

end Assembly

end RegisterMachine
