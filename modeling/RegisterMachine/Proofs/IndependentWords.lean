import RegisterMachine.Proofs.Footprints
import RegisterMachine.Proofs.ImageRuns

/-! Neighbouring words with independent footprints may change places.
This is proved for two words on any machine, then for a pair inside a program, and last for every
order of a program that is reached by such exchanges.
-/

namespace RegisterMachine

-----------------------------------------------------------------------------------------
-- Two words
-----------------------------------------------------------------------------------------

/-- No destination of either word is a source or a destination of the other, on a register file of
some size.
-/
structure IndependentWords (size : Nat) (first second : Int) : Prop where
  left
    : ∀ index ∈ (Footprint.ofWord size first).destinations,
        index ∉ (Footprint.ofWord size second).sources
        ∧ index ∉ (Footprint.ofWord size second).destinations
  right
    : ∀ index ∈ (Footprint.ofWord size second).destinations,
        index ∉ (Footprint.ofWord size first).sources
        ∧ index ∉ (Footprint.ofWord size first).destinations

theorem IndependentWords.symm {size : Nat} {first second : Int}
    (h : IndependentWords size first second)
    : IndependentWords size second first :=
  ⟨h.right, h.left⟩

namespace Machine

variable {machine : Machine} {first second : Int}

/-- A word finds at its sources what it would have found before an independent word. -/
theorem agreeFor_step (independent : IndependentWords machine.registers.size first second)
    (silent : ¬ IsInputWord first)
    : AgreeFor second machine (machine.step first).machine := by
  obtain ⟨prompt, _, _⟩ := step_of_silent silent machine
  refine ⟨(machine.size_step first).symm, prompt.symm, fun index source => ?_⟩
  have outside : index ∉ (Footprint.ofWord machine.registers.size first).destinations :=
    fun member => (independent.left index member).1 source
  exact (machine.get_step_of_not_mem outside).symm

/-- An independent word writes the same lines before and after another word. -/
theorem lines_step_step (independent : IndependentWords machine.registers.size first second)
    (silent : ¬ IsInputWord first)
    : ((machine.step first).machine.step second).lines = (machine.step second).lines :=
  (agreeFor_step independent silent).step_sameDialogue.lines.symm

/-- A register that the second of two independent words may change is not changed by the first, so
that after both it is as if the second one had come first.
-/
theorem get_step_step (independent : IndependentWords machine.registers.size first second)
    (silent : ¬ IsInputWord first) {index : Int}
    (outside : index ∉ (Footprint.ofWord machine.registers.size first).destinations)
    : ((machine.step first).machine.step second).machine.registers.get index
      = ((machine.step second).machine.step first).machine.registers.get index := by
  have untouched := (machine.get_step_of_not_mem outside).symm
  have last : index ∉ (Footprint.ofWord (machine.step second).machine.registers.size
      first).destinations := by
    rwa [size_step]
  calc ((machine.step first).machine.step second).machine.registers.get index
      = (machine.step second).machine.registers.get index :=
        ((agreeFor_step independent silent).get_step_eq (Or.inr untouched)).symm
    _ = ((machine.step second).machine.step first).machine.registers.get index :=
        ((machine.step second).machine.get_step_of_not_mem last).symm

/-- Independent words that ask nothing leave the same machine in either order. -/
theorem step_step_comm (independent : IndependentWords machine.registers.size first second)
    (silent : ¬ IsInputWord first) (silent' : ¬ IsInputWord second)
    : ((machine.step first).machine.step second).machine
      = ((machine.step second).machine.step first).machine := by
  have registers
      : ((machine.step first).machine.step second).machine.registers
        = ((machine.step second).machine.step first).machine.registers := by
    apply Registers.ext_get
    · simp only [size_step]
    · intro index
      by_cases inside : index ∈ (Footprint.ofWord machine.registers.size first).destinations
      · exact (get_step_step independent.symm silent' (independent.left index inside).2).symm
      · exact get_step_step independent silent inside
  have prompts
      : ((machine.step first).machine.step second).machine.prompt
        = ((machine.step second).machine.step first).machine.prompt := by
    rw [(step_of_silent silent' _).1, (step_of_silent silent _).1, (step_of_silent silent _).1,
      (step_of_silent silent' _).1]
  exact congrArg₂ Machine.mk registers prompts

end Machine

-----------------------------------------------------------------------------------------
-- Two words of a program
-----------------------------------------------------------------------------------------

namespace Machine

/-- Words that ask nothing are all executed, whatever the answers to come are. -/
theorem steps_whole {words : List Int} (silent : ∀ word ∈ words, ¬ IsInputWord word)
    (machine : Machine)
    : (machine.steps words).escaped = none := by
  have within
      : (machine.steps words).Within (fun _ => True) (fun _ => True) fun _ => False := by
    apply steps_within
    · intro word member state _
      obtain ⟨_, _, whole⟩ := step_of_silent (silent word member) state
      exact ⟨trivial, fun _ _ => trivial, fun failure escaped => nomatch whole.symm.trans escaped⟩
    · trivial
  exact Option.eq_none_iff_forall_ne_some.mpr within.failures

/-- Two runs in which neighbouring words of a program have changed places. They end on the same
machine; each of the two words writes the same lines in both, and all other lines stay where they
are.
-/
structure Exchanged (machine : Machine) (before : List Int) (first second : Int)
    (run exchanged : Outcome)
    : Prop where
  whole : run.escaped = none ∧ exchanged.escaped = none
  state : exchanged.machine = run.machine
  left : machine.linesAfter (before ++ [second]) first = machine.linesAfter before first
  right : machine.linesAfter (before ++ [first]) second = machine.linesAfter before second
  lines
    : ∃ later,
        run.lines
          = (machine.steps before).lines
            ++ (machine.linesAfter before first ++ machine.linesAfter before second) ++ later
        ∧ exchanged.lines
          = (machine.steps before).lines
            ++ (machine.linesAfter before second ++ machine.linesAfter before first) ++ later

/-- Exchanged runs that go on alike stay exchanged, if nothing cuts them short. -/
theorem Exchanged.andThen {machine : Machine} {before : List Int} {first second : Int}
    {run exchanged : Outcome} (h : machine.Exchanged before first second run exchanged)
    {next : Machine → Outcome} (whole : ∀ state, (next state).escaped = none)
    : machine.Exchanged before first second (run.andThen next) (exchanged.andThen next) := by
  obtain ⟨⟨runWhole, exchangedWhole⟩, state, left, right, later, lines, lines'⟩ := h
  refine ⟨⟨?_, ?_⟩, ?_, left, right, later ++ (next run.machine).lines, ?_, ?_⟩
  · rw [Outcome.escaped_andThen runWhole, whole]
  · rw [Outcome.escaped_andThen exchangedWhole, whole]
  · rw [Outcome.machine_andThen runWhole, Outcome.machine_andThen exchangedWhole, state]
  · rw [Outcome.lines_andThen runWhole, lines, List.append_assoc]
  · rw [Outcome.lines_andThen exchangedWhole, lines', state, List.append_assoc]

/-- A run over a pair of words that ask nothing, cut into its parts. -/
theorem steps_pair (machine : Machine) {before after : List Int} {first second : Int}
    (silent : ∀ word ∈ before ++ first :: second :: after, ¬ IsInputWord word)
    : let reached := (machine.steps before).machine
      let passed := ((reached.step first).machine.step second).machine
      (machine.steps (before ++ first :: second :: after)).machine = (passed.steps after).machine
      ∧ (machine.steps (before ++ first :: second :: after)).lines
        = (machine.steps before).lines
          ++ ((reached.step first).lines ++ ((reached.step first).machine.step second).lines)
          ++ (passed.steps after).lines := by
  obtain ⟨earlier, pair⟩ := List.forall_mem_append.mp silent
  obtain ⟨here, next⟩ := List.forall_mem_cons.mp pair
  obtain ⟨here', later⟩ := List.forall_mem_cons.mp next
  have start := steps_whole earlier machine
  have whole {state : Machine} {word : Int} (silent : ¬ IsInputWord word)
      : (state.step word).escaped = none :=
    (step_of_silent silent state).2.2
  dsimp only
  rw [steps_append, Outcome.machine_andThen start, Outcome.lines_andThen start, steps,
    Outcome.machine_andThen (whole here), Outcome.lines_andThen (whole here), steps,
    Outcome.machine_andThen (whole here'), Outcome.lines_andThen (whole here')]
  exact ⟨rfl, by simp only [List.append_assoc]⟩

/-- Independent neighbours of a program without questions can be exchanged. -/
theorem steps_exchange {machine : Machine} {before after : List Int} {first second : Int}
    (silent : ∀ word ∈ before ++ first :: second :: after, ¬ IsInputWord word)
    (independent : IndependentWords machine.registers.size first second)
    : machine.Exchanged before first second
        (machine.steps (before ++ first :: second :: after))
        (machine.steps (before ++ second :: first :: after)) := by
  obtain ⟨earlier, pair⟩ := List.forall_mem_append.mp silent
  obtain ⟨here, next⟩ := List.forall_mem_cons.mp pair
  obtain ⟨here', later⟩ := List.forall_mem_cons.mp next
  have silent' : ∀ word ∈ before ++ second :: first :: after, ¬ IsInputWord word :=
    List.forall_mem_append.mpr ⟨earlier, List.forall_mem_cons.mpr
      ⟨here', List.forall_mem_cons.mpr ⟨here, later⟩⟩⟩
  have start := steps_whole earlier machine
  rw [← machine.size_steps before] at independent
  obtain ⟨state, lines⟩ := steps_pair machine silent
  obtain ⟨state', lines'⟩ := steps_pair machine silent'
  rw [lines_step_step independent here] at lines
  rw [lines_step_step independent.symm here', ← step_step_comm independent here here'] at lines'
  rw [← step_step_comm independent here here'] at state'
  refine ⟨⟨steps_whole silent machine, steps_whole silent' machine⟩, state'.trans state.symm,
    ?_, ?_, _, lines, lines'⟩
  · rw [linesAfter, steps_snoc start, lines_step_step independent.symm here', linesAfter]
  · rw [linesAfter, steps_snoc start, lines_step_step independent here, linesAfter]

/-- At most one of two neighbouring words of a program writes lines. -/
def AtMostOneSpeaks (machine : Machine) (before : List Int) (first second : Int) : Prop :=
  machine.linesAfter before first = [] ∨ machine.linesAfter (before ++ [first]) second = []

/-- Two neighbouring words of a program that are independent and of which at most one writes lines.
-/
def QuietPair (machine : Machine) (before : List Int) (first second : Int) : Prop :=
  IndependentWords machine.registers.size first second
  ∧ machine.AtMostOneSpeaks before first second

/-- If at most one of the two words writes lines, the whole output is the same. -/
theorem Exchanged.lines_eq {machine : Machine} {before : List Int} {first second : Int}
    {run exchanged : Outcome} (h : machine.Exchanged before first second run exchanged)
    (single : machine.AtMostOneSpeaks before first second)
    : exchanged.lines = run.lines := by
  obtain ⟨later, lines, lines'⟩ := h.lines
  rw [AtMostOneSpeaks, h.right] at single
  rw [lines, lines']
  rcases single with none | none
  · simp only [none, List.append_nil, List.nil_append]
  · simp only [none, List.append_nil, List.nil_append]

end Machine

-----------------------------------------------------------------------------------------
-- Orders of a program
-----------------------------------------------------------------------------------------

/-- Two orders of a program that differ in a pair of neighbours, whose exchange is allowed after the
words before them.
-/
inductive Exchange (Allowed : List Int → Int → Int → Prop) : List Int → List Int → Prop
  | pair (before after : List Int) {first second : Int} (allowed : Allowed before first second)
    : Exchange Allowed (before ++ first :: second :: after) (before ++ second :: first :: after)

theorem Exchange.perm {Allowed : List Int → Int → Int → Prop} {words words' : List Int}
    (h : Exchange Allowed words words')
    : words.Perm words' := by
  obtain ⟨before, after, _⟩ := h
  exact (List.Perm.swap _ _ after).append_left before

namespace Machine

/-- Every order that is reached by exchanges of independent neighbours ends on the same machine, and
it writes the same lines if at most one word of each pair writes any; by induction on the exchanges.
-/
theorem steps_reordered {machine : Machine} {Allowed : List Int → Int → Int → Prop}
    (independent
      : ∀ before first second,
          Allowed before first second → IndependentWords machine.registers.size first second)
    {words words' : List Int} (silent : ∀ word ∈ words, ¬ IsInputWord word)
    (reached : Relation.ReflTransGen (Exchange Allowed) words words')
    : (∀ word ∈ words', ¬ IsInputWord word)
      ∧ (machine.steps words').machine = (machine.steps words).machine
      ∧ ((∀ before first second,
            Allowed before first second → machine.AtMostOneSpeaks before first second)
          → (machine.steps words').lines = (machine.steps words).lines) := by
  induction reached with
  | refl => exact ⟨silent, rfl, fun _ => rfl⟩
  | tail _ last ih =>
      obtain ⟨silent, state, lines⟩ := ih
      have silent' := fun word member => silent word (last.perm.mem_iff.mpr member)
      obtain ⟨before, after, allowed⟩ := last
      have exchanged := steps_exchange silent (independent _ _ _ allowed)
      refine ⟨silent', exchanged.state.trans state, fun single => ?_⟩
      exact (exchanged.lines_eq (single _ _ _ allowed)).trans (lines single)

/-- Independent words can be reordered.
Exchanging two independent neighbours of an image without input words leaves the same machine, and
the same output up to the place of what these two words write. Every order that is reached by such
exchanges leaves the same machine, and the same text if at most one word of each pair writes lines.
-/
theorem execute_reordered {image image' : Image} (length : image'.length = image.length)
    (silent : ∀ word ∈ image.words, ¬ IsInputWord word) (machine : Machine)
    : (∀ before first second after,
        image.words = before ++ first :: second :: after
        → image'.words = before ++ second :: first :: after
        → IndependentWords machine.registers.size first second
        → machine.Exchanged before first second (machine.execute image) (machine.execute image'))
      ∧ (Relation.ReflTransGen (Exchange fun _ => IndependentWords machine.registers.size)
            image.words image'.words
          → (machine.execute image').machine = (machine.execute image).machine)
      ∧ (Relation.ReflTransGen (Exchange machine.QuietPair) image.words image'.words
          → (machine.execute image').machine = (machine.execute image).machine
            ∧ (machine.execute image').text = (machine.execute image).text) := by
  have ending := reportTruncation_congr length
  have whole := steps_whole silent machine
  refine ⟨?_, ?_, ?_⟩
  · intro before first second after words words' independent
    rw [words] at silent
    rw [execute, execute, ending, words, words']
    exact (steps_exchange silent independent).andThen (reportTruncation_whole image)
  · intro reached
    obtain ⟨silent', state, _⟩ := steps_reordered (fun _ _ _ allowed => allowed) silent reached
    have whole' := steps_whole silent' machine
    rw [execute, execute, ending, Outcome.machine_andThen whole', Outcome.machine_andThen whole,
      state]
  · intro reached
    obtain ⟨silent', state, lines⟩ :=
      steps_reordered (fun _ _ _ allowed => allowed.1) silent reached
    have whole' := steps_whole silent' machine
    have same := lines fun _ _ _ allowed => allowed.2
    constructor
    · rw [execute, execute, ending, Outcome.machine_andThen whole', Outcome.machine_andThen whole,
        state]
    · rw [Outcome.text, Outcome.text, execute, execute, ending, Outcome.lines_andThen whole',
        Outcome.lines_andThen whole, state, same]

/-- A sum, a printed register and a product can be executed with the sum at the end, and the partial
word after them is reported at the same place.
-/
theorem execute_reordered_sum
    : (Image.ofWords [163857, 25182252, 16793610] ++ [7]).length
        = (Image.ofWords [16793610, 163857, 25182252] ++ [7]).length
      ∧ (∀ word ∈ Image.words (Image.ofWords [16793610, 163857, 25182252] ++ [7]),
          ¬ IsInputWord word)
      ∧ Relation.ReflTransGen (Exchange (QuietPair ⟨⟨[3, 4, 0, 0]⟩, none⟩))
          [16793610, 163857, 25182252] [163857, 25182252, 16793610]
      ∧ (execute ⟨⟨[3, 4, 0, 0]⟩, none⟩
            (Image.ofWords [163857, 25182252, 16793610] ++ [7])).text
        = (execute ⟨⟨[3, 4, 0, 0]⟩, none⟩
            (Image.ofWords [16793610, 163857, 25182252] ++ [7])).text := by
  have length
      : (Image.ofWords [163857, 25182252, 16793610] ++ [7]).length
        = (Image.ofWords [16793610, 163857, 25182252] ++ [7]).length := rfl
  have silent
      : ∀ word ∈ Image.words (Image.ofWords [16793610, 163857, 25182252] ++ [7]),
          ¬ IsInputWord word := by decide
  have overPrint
      : Exchange (QuietPair ⟨⟨[3, 4, 0, 0]⟩, none⟩)
          [16793610, 163857, 25182252] [163857, 16793610, 25182252] :=
    .pair [] [25182252] ⟨⟨by decide, by decide⟩, Or.inl rfl⟩
  have overProduct
      : Exchange (QuietPair ⟨⟨[3, 4, 0, 0]⟩, none⟩)
          [163857, 16793610, 25182252] [163857, 25182252, 16793610] :=
    .pair [163857] [] ⟨⟨by decide, by decide⟩, Or.inl rfl⟩
  have reached := Relation.ReflTransGen.tail (.single overPrint) overProduct
  exact ⟨length, silent, reached,
    ((execute_reordered length silent ⟨⟨[3, 4, 0, 0]⟩, none⟩).2.2 reached).2⟩

end Machine

end RegisterMachine
