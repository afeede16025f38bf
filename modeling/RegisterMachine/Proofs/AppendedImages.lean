import RegisterMachine.Proofs.QuestionsAsked
import RegisterMachine.Proofs.WordStreams
import RegisterMachine.Session

/-! An image is executed part by part.
Whole words can be cut off in front of it, and a partial word at its end is only reported; the line
about it is all that tells how the image was cut.
-/

namespace RegisterMachine

-----------------------------------------------------------------------------------------
-- The end of an image
-----------------------------------------------------------------------------------------

namespace Image

theorem tailLines_wholePart (offset : Nat) (image : Image)
    : image.wholePart.tailLines offset = [] := by
  rw [tailLines, length_wholePart, if_pos]
  omega

/-- What is left after whole words in front of an image is what is left of the image itself, further
back.
-/
theorem tailLines_append {first : Image} (aligned : first.length % 4 = 0) (second : Image)
    : tailLines 0 (first ++ second) = second.tailLines first.length := by
  have remainder : (first ++ second).length % 4 = second.length % 4 := by
    rw [List.length_append]
    omega
  have offset
      : 0 + 4 * ((first ++ second).length / 4) = first.length + 4 * (second.length / 4) := by
    rw [List.length_append]
    omega
  rw [tailLines, tailLines, remainder, offset]

end Image

-----------------------------------------------------------------------------------------
-- Texts
-----------------------------------------------------------------------------------------

theorem outputText_append (first second : List Line)
    : outputText (first ++ second) = outputText first ++ outputText second := by
  rw [outputText, List.map_append, Text.unlines_append]
  rfl

theorem outputText_truncated (offset count : Nat)
    : outputText [.truncated ⟨offset, count⟩]
      = "Error: Truncated word at offset " ++ decimal ↑offset ++ " (" ++ decimal ↑count
        ++ " bytes)\n" := by
  have single (text : String) : Text.unlines [text] = text ++ "\n" := by
    apply String.toList_injective
    simp [Text.toList_unlines]
  have text
      : (Line.truncated ⟨offset, count⟩).text
        = "Error: " ++ ("Truncated word at offset " ++ decimal ↑offset ++ " (" ++ decimal ↑count
          ++ " bytes)") := rfl
  have opening : "Error: " ++ "Truncated word at offset " = "Error: Truncated word at offset " := by
    simp
  have ending : " bytes)" ++ "\n" = " bytes)\n" := by
    simp
  rw [outputText, List.map_singleton, single, text]
  simp only [← opening, ← ending, String.append_assoc]

/-- The text about what is left of an image after its whole words, for an image that starts at an
offset.
-/
def Image.tailText (offset : Nat) (image : Image) : String :=
  if image.length % 4 = 0 then
    ""
  else
    "Error: Truncated word at offset " ++ decimal ↑(offset + 4 * (image.length / 4)) ++ " ("
      ++ decimal ↑(image.length % 4) ++ " bytes)\n"

theorem outputText_tailLines (offset : Nat) (image : Image)
    : outputText (image.tailLines offset) = image.tailText offset := by
  rw [Image.tailLines, Image.tailText]
  by_cases aligned : image.length % 4 = 0
  · rw [if_pos aligned, if_pos aligned]
    rfl
  · rw [if_neg aligned, if_neg aligned, outputText_truncated]

-----------------------------------------------------------------------------------------
-- Lines of words
-----------------------------------------------------------------------------------------

theorem Yields.report_isOfWord {registers : Registers} {operands : Operands} {action : Action}
    {lines : List Line} (h : Yields registers operands action (.report lines))
    : ∀ line ∈ lines, line.IsOfWord := by
  cases h with
  | printAll base =>
      intro line member
      rcases List.mem_cons.mp member with rfl | member
      · trivial
      · obtain ⟨⟨value, index⟩, _, rfl⟩ := List.mem_map.mp member
        trivial
  | printOne | zeroDivisor | byteIndex | byteValue =>
      exact List.forall_mem_singleton.mpr trivial

theorem Registers.wordEffect_report_isOfWord {registers : Registers} {word : Int}
    {lines : List Line} (h : registers.wordEffect word = .report lines)
    : ∀ line ∈ lines, line.IsOfWord := by
  rw [wordEffect] at h
  cases known : Operation.ofCode? (Fields.ofWord word).opcode with
  | none =>
      rw [known] at h
      obtain rfl := Effect.report.inj h
      exact List.forall_mem_singleton.mpr trivial
  | some operation =>
      rw [known] at h
      dsimp only at h
      cases result : operation.action.effect registers (Fields.ofWord word).operands with
      | error fault =>
          rw [result] at h
          obtain rfl := Effect.report.inj h
          exact List.forall_mem_singleton.mpr trivial
      | ok effect =>
          rw [result] at h
          obtain rfl : effect = .report lines := h
          exact (Action.effect_eq_ok_iff.mp result).report_isOfWord

namespace Machine

theorem step_isOfWord (machine : Machine) (word : Int)
    : ∀ line ∈ (machine.step word).lines, line.IsOfWord := by
  rw [(machine.step_alike_carryOut word).lines]
  obtain ⟨registers, prompt⟩ := machine
  cases effect : registers.wordEffect word with
  | write stores => exact List.forall_mem_nil _
  | report lines => exact Registers.wordEffect_report_isOfWord effect
  | ask question =>
      cases prompt with
      | none => exact List.forall_mem_singleton.mpr trivial
      | some answers => exact accept_isOfWord _ question _

/-- The words of a program write no line about a partial word. -/
theorem steps_isOfWord (machine : Machine) (words : List Int)
    : ∀ line ∈ (machine.steps words).lines, line.IsOfWord := by
  have within
      : (machine.steps words).Within (fun _ => True) Line.IsOfWord fun _ => True := by
    apply steps_within
    · intro word _ state _
      exact ⟨trivial, state.step_isOfWord word, fun _ _ => trivial⟩
    · trivial
  exact within.lines

/-- The words of appended images are executed image by image. -/
theorem steps_words_append {first : Image} (aligned : first.length % 4 = 0) (second : Image)
    (machine : Machine)
    : machine.steps (Image.words (first ++ second))
      = (machine.steps first.words).andThen fun state => state.steps second.words := by
  rw [Image.words_append aligned, steps_append]

end Machine

-----------------------------------------------------------------------------------------
-- Sessions
-----------------------------------------------------------------------------------------

namespace Session

/-- What an execution in a session comes to if the words of the image are not stopped. -/
theorem perform_execute {session : Session} {image : Image}
    (whole : (session.machine.steps image.words).escaped = none)
    : session.perform (.execute (.image image))
      = { session :=
            ⟨(session.machine.steps image.words).machine,
              (session.machine.steps image.words).lines ++ image.tailLines 0⟩
          events := (session.machine.steps image.words).events
          stages := []
          answer :=
            .ok (.text ((session.machine.steps image.words).text ++ image.tailText 0)) } := by
  obtain ⟨state, lines, events, ending⟩ := Machine.execute_of_whole whole
  have response
      : session.perform (.execute (.image image))
        = { session :=
              ⟨(session.machine.execute image).machine, (session.machine.execute image).lines⟩
            events := (session.machine.execute image).events
            stages := []
            answer :=
              answer (session.machine.execute image)
                (.text (session.machine.execute image).text) } := rfl
  have text
      : (session.machine.execute image).text
        = (session.machine.steps image.words).text ++ image.tailText 0 := by
    rw [Outcome.text, lines, outputText_append, outputText_tailLines]
    rfl
  rw [response, answer, ending, state, lines, events, text]

/-- How the response to an image after another one makes the response to both at once. The texts
follow each other, except that the text about a partial word counts from the start of both images.
-/
structure Joined (offset : Nat) (image : Image) (joint earlier later : Response) : Prop where
  state : joint.session.machine = later.session.machine
  events : joint.events = earlier.events ++ later.events
  answers
    : ∃ opening body,
        earlier.answer = .ok (.text opening)
        ∧ later.answer = .ok (.text (body ++ image.tailText 0))
        ∧ joint.answer = .ok (.text (opening ++ body ++ image.tailText offset))

/-- How the response to an image differs from the response to its whole words, which write no line
about a partial word.
-/
structure TailReported (image : Image) (response whole : Response) : Prop where
  state : response.session.machine = whole.session.machine
  events : response.events = whole.events
  lines : response.session.output = whole.session.output ++ image.tailLines 0
  words : ∀ line ∈ whole.session.output, line.IsOfWord
  answers
    : ∃ body,
        whole.answer = .ok (.text body)
        ∧ response.answer = .ok (.text (body ++ image.tailText 0))

theorem perform_execute_tailReported {session : Session} {image : Image}
    (whole : (session.machine.steps image.words).escaped = none)
    : TailReported image (session.perform (.execute (.image image)))
        (session.perform (.execute (.image image.wholePart))) := by
  have whole' := whole
  rw [← image.words_wholePart] at whole'
  have aligned : image.wholePart.length % 4 = 0 := by
    rw [Image.length_wholePart]
    omega
  have none : image.wholePart.tailText 0 = "" := if_pos aligned
  rw [perform_execute whole, perform_execute whole', image.words_wholePart, none,
    Image.tailLines_wholePart, String.append_empty, List.append_nil]
  exact ⟨rfl, rfl, rfl, session.machine.steps_isOfWord _, _, rfl, rfl⟩

/-- The session after the whole words of an image, which no failure stops, executes the rest as if
it had been appended to them.
-/
theorem perform_execute_joined {session : Session} {first second : Image}
    (aligned : first.length % 4 = 0)
    (before : (session.machine.steps first.words).escaped = none)
    (after : ((session.machine.steps first.words).machine.steps second.words).escaped = none)
    : Joined first.length second (session.perform (.execute (.image (first ++ second))))
        (session.perform (.execute (.image first)))
        ((session.perform (.execute (.image first))).session.perform
          (.execute (.image second))) := by
  have steps := session.machine.steps_words_append aligned second
  have joint : (session.machine.steps (Image.words (first ++ second))).escaped = none := by
    rw [steps, Outcome.escaped_andThen before, after]
  have aside : first.tailText 0 = "" := if_pos aligned
  have moved : Image.tailText 0 (first ++ second) = second.tailText first.length := by
    rw [← outputText_tailLines, Image.tailLines_append aligned, outputText_tailLines]
  have text
      : (session.machine.steps (Image.words (first ++ second))).text
        = (session.machine.steps first.words).text
          ++ ((session.machine.steps first.words).machine.steps second.words).text := by
    rw [steps, Outcome.text, Outcome.lines_andThen before, outputText_append]
    rfl
  rw [perform_execute joint, perform_execute before, perform_execute after, aside, moved, text,
    String.append_empty]
  refine ⟨?_, ?_, _, _, rfl, rfl, rfl⟩
  · rw [steps, Outcome.machine_andThen before]
  · rw [steps, Outcome.events_andThen before]

/-- Execution is compositional in the bytes of an image.
Let an image start with whole words. If no failure of the prompt stops it, its execution leaves the
same machine, answers to come included, as that of these words and then of the rest, with the same
events and the same text up to the offset in a line about a partial word. Such a line is written
exactly if the length of the image is no multiple of four, and it is the only effect of the bytes
after the last whole word.
-/
theorem perform_execute_append {first : Image} (aligned : first.length % 4 = 0) (second : Image)
    (session : Session) (whole : (session.machine.execute (first ++ second)).escaped = none)
    : let earlier := session.perform (.execute (.image first))
      let later := earlier.session.perform (.execute (.image second))
      Joined first.length second (session.perform (.execute (.image (first ++ second)))) earlier
        later
      ∧ TailReported second later
          (earlier.session.perform (.execute (.image second.wholePart))) := by
  rw [Machine.escaped_execute_eq_none_iff, Machine.steps_words_append aligned,
    Outcome.escaped_andThen_eq_none_iff] at whole
  obtain ⟨before, after⟩ := whole
  refine ⟨perform_execute_joined aligned before after, perform_execute_tailReported ?_⟩
  rw [perform_execute before]
  exact after

/-- A number that is asked for and printed, and after it a question that ends in a fault and two
bytes of a word: the answers are taken across the cut, and the line about the two bytes counts from
the start of the words before them.
-/
theorem perform_execute_append_prompted
    : let first := Image.ofWords [163858, 163857]
      let second := Image.ofWords [163890] ++ [7, 0]
      let session : Session :=
        ⟨⟨⟨[3, 4, 0, 0]⟩, some [.entered "12", .failed ⟨.badValue, "odd"⟩]⟩, []⟩
      let earlier := session.perform (.execute (.image first))
      let later := earlier.session.perform (.execute (.image second))
      first.length % 4 = 0
      ∧ (session.machine.execute (first ++ second)).escaped = none
      ∧ later.session.machine = ⟨⟨[12, 4, 0, 0]⟩, some []⟩
      ∧ second.tailText 0 = "Error: Truncated word at offset 4 (2 bytes)\n"
      ∧ second.tailText first.length = "Error: Truncated word at offset 12 (2 bytes)\n"
      ∧ Joined first.length second (session.perform (.execute (.image (first ++ second)))) earlier
          later
      ∧ TailReported second later
          (earlier.session.perform (.execute (.image second.wholePart))) := by
  intro first second session earlier later
  have aligned : first.length % 4 = 0 := by decide
  have calm
      : ∀ answers,
          session.machine.prompt = some answers → ∀ answer ∈ answers, ¬ answer.Foreign := by
    rintro _ ⟨⟩ answer member ⟨failure, rfl, stray⟩
    obtain rfl : failure = ⟨.badValue, "odd"⟩ := by simpa using member
    cases stray
  have whole := Machine.execute_whole calm (first ++ second)
  exact ⟨aligned, whole, rfl, by decide +kernel, by decide +kernel,
    perform_execute_append aligned second session whole⟩

end Session

end RegisterMachine
