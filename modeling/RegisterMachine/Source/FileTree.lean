import RegisterMachine.Source.Path
import RegisterMachine.Text.Quoted

/-! Files as a program finds and leaves them.
A file is known by its place, the steps that lead to it. A place is a directory when it was made one
or when a file lies below it; the place without steps is where relative paths begin. Permissions,
links and limits on the length of names are left out.
-/

namespace RegisterMachine

/-- The steps that lead to a file, none of which takes back another one. -/
abbrev Place := List String

/-- Files with their places, and the places of directories that may be empty. -/
structure FileTree where
  files : List (Place × List UInt8)
  directories : List Place

/-- Why a file cannot be read or written at a path. -/
inductive FileProblem where
  | missing
  /-- A file is where a directory is to be made. -/
  | occupied
  | isDirectory
  | notDirectory
  /-- No path of a file holds a null character. -/
  | nullCharacter
  deriving DecidableEq, Repr

/-- A path at which a file cannot be read or written. -/
structure FileError where
  problem : FileProblem
  path : Path
  deriving DecidableEq, Repr

/-- The wording names the problem with its number, and the path. -/
def FileError.message (error : FileError) : String :=
  let path := String.ofList (Text.quote error.path.text.toList)
  match error.problem with
  | .missing => "[Errno 2] No such file or directory: " ++ path
  | .occupied => "[Errno 17] File exists: " ++ path
  | .isDirectory => "[Errno 21] Is a directory: " ++ path
  | .notDirectory => "[Errno 20] Not a directory: " ++ path
  | .nullCharacter => "embedded null byte"

/-- What is found at a place. -/
inductive Found where
  | file (contents : List UInt8)
  | directory
  | nothing

namespace FileTree

/-- A place below another one. -/
def isBelow (above place : Place) : Bool :=
  above.length < place.length && place.take above.length == above

/-- A step that leads out of the tree: to the directory above, or to the root of all paths. -/
def leadsOut (step : String) : Bool :=
  step == ".." || step.startsWith "/"

/-- What a tree holds at a place. Whatever lies outside is a directory, as far as it is known. -/
def find (tree : FileTree) (place : Place) : Found :=
  match tree.files.lookup place with
  | some contents => .file contents
  | none =>
      if place.all leadsOut || tree.directories.contains place
          || tree.files.any fun file => isBelow place file.1 then
        .directory
      else
        .nothing

/-- Takes one more step from a place whose last step comes first. Two dots take back the last step,
unless it leads out itself: above a directory outside is another one, above the root is nothing. -/
def extend : Place → String → Place
  | last :: above, ".." =>
      if last = ".." then ".." :: last :: above
      else if leadsOut last then last :: above
      else above
  | place, step => step :: place

/-- The place that steps lead to, without regard to what is found there. -/
def placeOf (steps : List String) : Place :=
  (steps.foldl extend []).reverse

/-- Follows steps from a place whose last step comes first. Every step is taken in a directory. -/
def follow (tree : FileTree) : Place → List String → Except FileProblem Place
  | place, [] => .ok place.reverse
  | place, step :: steps =>
      match tree.find place.reverse with
      | .directory => tree.follow (extend place step) steps
      | .file _ => .error .notDirectory
      | .nothing => .error .missing

/-- The contents of the file at a path. -/
def read (tree : FileTree) (path : Path) : Except FileError (List UInt8) :=
  if path.hasNull then
    .error ⟨.nullCharacter, path⟩
  else
    match tree.follow [] path.steps with
    | .error problem => .error ⟨problem, path⟩
    | .ok place =>
        match tree.find place with
        | .file contents => .ok contents
        | .directory => .error ⟨.isDirectory, path⟩
        | .nothing => .error ⟨.missing, path⟩

def put (tree : FileTree) (place : Place) (contents : List UInt8) : FileTree :=
  { tree with files := tree.files.filter (fun file => file.1 ≠ place) ++ [(place, contents)] }

/-- Follows steps from a directory whose last step comes first, and makes the directories that are
not there yet. A file in the way takes the place of a directory when its step is the last one or
another directory has just been made; otherwise the steps lead through it. What was made before a
failure stays. -/
def makeDirectories (tree : FileTree) (making : Bool)
    : Place → List String → Except (FileProblem × FileTree) FileTree
  | _, [] => .ok tree
  | place, step :: steps =>
      let next := extend place step
      match tree.find next.reverse with
      | .directory => tree.makeDirectories making next steps
      | .file _ => .error (if making || steps.isEmpty then .occupied else .notDirectory, tree)
      | .nothing =>
          { tree with directories := next.reverse :: tree.directories }.makeDirectories true next
            steps

/-- A file that could not be written, and the tree that the attempt left. -/
structure WriteError where
  error : FileError
  left : FileTree

/-- Writes a file at a path, after making the directories above it. -/
def write (tree : FileTree) (path : Path) (contents : List UInt8) : Except WriteError FileTree :=
  if path.parent.hasNull then
    .error ⟨⟨.nullCharacter, path.parent⟩, tree⟩
  else
    match tree.makeDirectories false [] path.parent.steps with
    | .error (problem, left) => .error ⟨⟨problem, path.parent⟩, left⟩
    | .ok tree =>
        if path.hasNull then
          .error ⟨⟨.nullCharacter, path⟩, tree⟩
        else
          let place := placeOf path.steps
          match tree.find place with
          | .directory => .error ⟨⟨.isDirectory, path⟩, tree⟩
          | _ => .ok (tree.put place contents)

def empty : FileTree :=
  ⟨[], []⟩

/-- A tree with files at the given paths. -/
def ofList (files : List (String × List UInt8)) : FileTree :=
  files.foldl (fun tree (path, contents) => tree.put (placeOf (Path.ofString path).steps) contents)
    empty

/-- The files of a tree that do not lie outside, with the paths of their places. -/
def toList (tree : FileTree) : List (String × List UInt8) :=
  (tree.files.filter fun file => !leadsOut (file.1.headD "")).map fun (place, contents) =>
    ("/".intercalate place, contents)

end FileTree

end RegisterMachine
