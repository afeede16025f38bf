import RegisterMachine.Text.Runs

/-! Paths of files: components separated by slashes.
Empty components and single dots mean nothing and are left out; two dots stand for the parent of
what precedes them and are kept.
-/

namespace RegisterMachine

/-- The slashes that a path begins with, and its components. -/
structure Path where
  root : String
  parts : List String
  deriving DecidableEq, Repr

namespace Path

/-- The root of a path: nothing, one slash, or exactly two; three and more count as one. -/
def rootOf : List Char → String
  | '/' :: '/' :: '/' :: _ => "/"
  | '/' :: '/' :: _ => "//"
  | '/' :: _ => "/"
  | _ => ""

def ofString (text : String) : Path :=
  { root := rootOf text.toList
    parts := ((Text.runs (· == '/') text.toList).map String.ofList).filter (· ≠ ".") }

def text (path : Path) : String :=
  if path.root = "" ∧ path.parts = [] then "." else path.root ++ "/".intercalate path.parts

/-- The steps of a path; a root is a step of its own. -/
def steps (path : Path) : List String :=
  if path.root = "" then path.parts else path.root :: path.parts

/-- The path that begins where another one ends, unless it has a root of its own. -/
def join (directory path : Path) : Path :=
  if path.root = "" then { directory with parts := directory.parts ++ path.parts } else path

def parent (path : Path) : Path :=
  { path with parts := path.parts.dropLast }

def name (path : Path) : String :=
  path.parts.getLastD ""

/-- Some component holds a null character. -/
def hasNull (path : Path) : Bool :=
  path.parts.any fun part => part.toList.contains '\x00'

/-- A name without its last suffix. A suffix begins with a dot, which is neither the first nor the
last character of the name. -/
def stemOf (name : List Char) : List Char :=
  let suffix := name.reverse.takeWhile (· ≠ '.')
  let rest := (name.reverse.dropWhile (· ≠ '.')).drop 1
  if suffix = [] ∨ rest = [] then name else rest.reverse

def stem (path : Path) : String :=
  String.ofList (stemOf path.name.toList)

end Path

end RegisterMachine
