/-! Runs: the longest stretches of a text without a character of some class. -/

namespace RegisterMachine.Text

/-- Puts a run in front of others, unless it is empty. -/
def consRun (run : List Char) (runs : List (List Char)) : List (List Char) :=
  if run = [] then runs else run :: runs

/-- The stretch at the start of a text that holds no boundary, and the runs after it. -/
def scanRuns (isBoundary : Char → Bool) : List Char → List Char × List (List Char)
  | [] => ([], [])
  | c :: rest =>
      let (run, runs) := scanRuns isBoundary rest
      if isBoundary c then ([], consRun run runs) else (c :: run, runs)

/-- The runs of a text in order; boundaries next to each other have no run between them. -/
def runs (isBoundary : Char → Bool) (text : List Char) : List (List Char) :=
  let (run, runs) := scanRuns isBoundary text
  consRun run runs

/-- A boundary at the start of a text belongs to no run. -/
theorem runs_cons_boundary {isBoundary : Char → Bool} {c : Char} (h : isBoundary c = true)
    (text : List Char)
    : runs isBoundary (c :: text) = runs isBoundary text := by
  simp [runs, scanRuns, h, consRun]

end RegisterMachine.Text
