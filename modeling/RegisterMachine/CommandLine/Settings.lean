import RegisterMachine.Prompt

/-! Settings of a run that a person can change. -/

namespace RegisterMachine

/-- Whether every log record is shown, and whether questions are put to the person. -/
structure RunSettings where
  verbose : Bool
  interactive : Bool
  deriving DecidableEq, Repr

namespace RunSettings

/-- A run shows few records and asks its questions. -/
def initial : RunSettings :=
  ⟨false, true⟩

def update (settings : RunSettings) (verbose interactive : Option Bool) : RunSettings :=
  ⟨verbose.getD settings.verbose, interactive.getD settings.interactive⟩

/-- The prompt with the given answers, if questions are put at all. -/
def prompt (settings : RunSettings) (answers : List Answer) : Prompt :=
  if settings.interactive then some answers else none

/-- Some prompt exists. -/
def hasPrompt (settings : RunSettings) : Bool :=
  (settings.prompt []).isSome

end RunSettings

end RegisterMachine
