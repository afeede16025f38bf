/-! Answers to questions.
A machine asks a person through a prompt; here the prompt is the list of the answers to come.
-/

namespace RegisterMachine

/-- The kinds of failure that a prompt can end in. -/
inductive FailureKind where
  /-- A value of the wrong form. -/
  | badValue
  /-- A failed calculation. -/
  | arithmetic
  /-- An index without an element. -/
  | badIndex
  /-- A source text that was not accepted because of a line. -/
  | assembly (lineNumber : Nat)
  /-- Any kind that is none of these, by its name. -/
  | other (name : String)
  deriving DecidableEq, Repr

/-- Failures of the kinds that instructions have themselves are faults of the instruction that
asked; the others stop the run. -/
def FailureKind.isFault : FailureKind → Bool
  | .assembly _ | .other _ => false
  | .badValue | .arithmetic | .badIndex => true

structure PromptFailure where
  kind : FailureKind
  message : String
  deriving DecidableEq, Repr

/-- What a prompt gives back. -/
inductive Answer where
  | entered (text : String)
  | cancelled
  | failed (failure : PromptFailure)
  deriving DecidableEq, Repr

/-- The answers to come, or none at all where nobody can be asked. -/
abbrev Prompt := Option (List Answer)

/-- The next answer and the ones after it. Questions beyond the last answer are cancelled. -/
def nextAnswer : List Answer → Answer × List Answer
  | [] => (.cancelled, [])
  | answer :: rest => (answer, rest)

end RegisterMachine
