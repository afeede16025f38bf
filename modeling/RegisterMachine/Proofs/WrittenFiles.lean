import Mathlib
import RegisterMachine.Source.FileTree

/-! A file that has been written reads back as it was written, and no other file has changed.
The directories on the way are there afterwards, because writing makes those that are missing and
puts no file in the place of a directory.
-/

namespace RegisterMachine

namespace FileTree

variable {tree tree' : FileTree} {place other : Place} {contents : List UInt8}

-----------------------------------------------------------------------------------------
-- Single files
-----------------------------------------------------------------------------------------

theorem lookup_put_self (tree : FileTree) (place : Place) (contents : List UInt8)
    : (tree.put place contents).files.lookup place = some contents := by
  have gone : (tree.files.filter fun file => file.1 ≠ place).lookup place = none := by
    rw [List.lookup_eq_none_iff]
    intro file member
    have different : file.1 ≠ place := of_decide_eq_true (List.mem_filter.mp member).2
    exact bne_iff_ne.mpr different.symm
  rw [put, List.lookup_append, gone]
  simp

/-- Other places keep their files, by induction on the files. -/
theorem lookup_put_of_ne (tree : FileTree) (different : other ≠ place) (contents : List UInt8)
    : (tree.put place contents).files.lookup other = tree.files.lookup other := by
  obtain ⟨files, directories⟩ := tree
  have alone : [(place, contents)].lookup other = none := by
    rw [List.lookup_cons, beq_false_of_ne different]
    rfl
  rw [put, List.lookup_append, alone, Option.or_none]
  dsimp only
  induction files with
  | nil => rfl
  | cons file files ih =>
      obtain ⟨here, bytes⟩ := file
      by_cases same : here = place
      · subst same
        rw [List.filter_cons_of_neg (by simp), ih, List.lookup_cons, beq_false_of_ne different]
      · rw [List.filter_cons_of_pos (by simpa using same), List.lookup_cons, List.lookup_cons, ih]

-----------------------------------------------------------------------------------------
-- Directories
-----------------------------------------------------------------------------------------

theorem find_eq_directory_iff
    : tree.find place = .directory
      ↔ tree.files.lookup place = none
        ∧ ((∀ step ∈ place, leadsOut step = true)
          ∨ place ∈ tree.directories
          ∨ ∃ file ∈ tree.files, isBelow place file.1 = true) := by
  rw [find]
  cases tree.files.lookup place with
  | some contents => simp
  | none =>
      simp only [Bool.or_eq_true, List.all_eq_true, List.contains_iff_mem, List.any_eq_true,
        true_and, or_assoc]
      split
      · next known => exact ⟨fun _ => known, fun _ => rfl⟩
      · next unknown => exact ⟨nofun, fun known => (unknown known).elim⟩

/-- Every directory of a tree is a directory of another one. -/
def Retains (tree tree' : FileTree) : Prop :=
  ∀ place, tree.find place = .directory → tree'.find place = .directory

theorem Retains.trans {tree'' : FileTree} (h : Retains tree tree') (h' : Retains tree' tree'')
    : Retains tree tree'' :=
  fun place directory => h' place (h place directory)

/-- A file takes no place of a directory, and what lies below a directory stays there. -/
theorem retains_put (free : tree.find place ≠ .directory) (contents : List UInt8)
    : Retains tree (tree.put place contents) := by
  intro other directory
  have different : other ≠ place := by
    rintro rfl
    exact free directory
  obtain ⟨noFile, known⟩ := find_eq_directory_iff.mp directory
  refine find_eq_directory_iff.mpr ⟨(lookup_put_of_ne tree different contents).trans noFile, ?_⟩
  refine known.imp_right (Or.imp_right ?_)
  rintro ⟨file, member, below⟩
  by_cases same : file.1 = place
  · exact ⟨(place, contents), by simp [put], same ▸ below⟩
  · exact ⟨file, by simp [put, member, same], below⟩

/-- A tree with one more directory. -/
def withDirectory (tree : FileTree) (place : Place) : FileTree :=
  { tree with directories := place :: tree.directories }

theorem retains_withDirectory (tree : FileTree) (place : Place)
    : Retains tree (tree.withDirectory place) := by
  intro other directory
  rw [find_eq_directory_iff] at directory ⊢
  exact directory.imp_right (Or.imp_right (Or.imp_left (List.mem_cons_of_mem place)))

theorem find_withDirectory (missing : tree.find place = .nothing)
    : (tree.withDirectory place).find place = .directory := by
  refine find_eq_directory_iff.mpr ⟨?_, Or.inr (Or.inl List.mem_cons_self)⟩
  rw [find] at missing
  cases found : tree.files.lookup place with
  | none => exact found
  | some contents => simp [found] at missing

-----------------------------------------------------------------------------------------
-- Steps
-----------------------------------------------------------------------------------------

/-- A step is taken in a directory. -/
theorem follow_cons_eq_ok_iff {start : Place} {step : String} {steps : List String}
    : tree.follow start (step :: steps) = .ok place
      ↔ tree.find start.reverse = .directory
        ∧ tree.follow (extend start step) steps = .ok place := by
  rw [follow]
  cases tree.find start.reverse <;> simp

/-- Steps lead to the same place in every tree with the same directories, by induction on the steps.
-/
theorem Retains.follow {start : Place} {steps : List String} (h : Retains tree tree')
    (reached : tree.follow start steps = .ok place)
    : tree'.follow start steps = .ok place := by
  induction steps generalizing start with
  | nil => exact reached
  | cons step steps ih =>
      obtain ⟨directory, later⟩ := follow_cons_eq_ok_iff.mp reached
      exact follow_cons_eq_ok_iff.mpr ⟨h _ directory, ih later⟩

/-- Steps to a directory can be followed by one more step, by induction on the steps. -/
theorem follow_concat {start : Place} {steps : List String}
    (reached : tree.follow start steps = .ok place) (directory : tree.find place = .directory)
    (last : String)
    : tree.follow start (steps ++ [last])
      = .ok ((steps ++ [last]).foldl extend start).reverse := by
  induction steps generalizing start with
  | nil =>
      obtain rfl : start.reverse = place := Except.ok.inj reached
      exact follow_cons_eq_ok_iff.mpr ⟨directory, rfl⟩
  | cons step steps ih =>
      obtain ⟨above, later⟩ := follow_cons_eq_ok_iff.mp reached
      exact follow_cons_eq_ok_iff.mpr ⟨above, ih later⟩

/-- Making directories keeps the files and all directories, and the steps lead to a directory then.
-/
structure Leads (tree tree' : FileTree) (start : Place) (steps : List String) : Prop where
  files : tree'.files = tree.files
  retains : Retains tree tree'
  reached : tree'.follow start steps = .ok (steps.foldl extend start).reverse
  directory : tree'.find (steps.foldl extend start).reverse = .directory

/-- From a directory, making directories leads on, by induction on the steps. -/
theorem makeDirectories_leads {making : Bool} {start : Place} {steps : List String}
    (directory : tree.find start.reverse = .directory)
    (made : tree.makeDirectories making start steps = .ok tree')
    : Leads tree tree' start steps := by
  induction steps generalizing tree making start with
  | nil =>
      obtain rfl := Except.ok.inj made
      exact ⟨rfl, fun _ h => h, rfl, directory⟩
  | cons step steps ih =>
      rw [makeDirectories] at made
      cases found : tree.find (extend start step).reverse with
      | directory =>
          rw [found] at made
          obtain ⟨files, retains, reached, last⟩ := ih found made
          have whole := follow_cons_eq_ok_iff.mpr ⟨retains _ directory, reached⟩
          exact ⟨files, retains, whole, last⟩
      | file contents =>
          rw [found] at made
          cases made
      | nothing =>
          rw [found] at made
          have more := retains_withDirectory tree (extend start step).reverse
          obtain ⟨files, retains, reached, last⟩ := ih (find_withDirectory found) made
          have whole := follow_cons_eq_ok_iff.mpr ⟨retains _ (more _ directory), reached⟩
          exact ⟨files, more.trans retains, whole, last⟩

-----------------------------------------------------------------------------------------
-- Writing
-----------------------------------------------------------------------------------------

/-- Relative paths begin in a directory. -/
def Rooted (tree : FileTree) : Prop :=
  tree.find [] = .directory

/-- A file has been written: it reads back, and all other files are as before. -/
structure Gains (tree tree' : FileTree) (path : Path) (contents : List UInt8) : Prop where
  read : tree'.read path = .ok contents
  others
    : ∀ place, place ≠ placeOf path.steps → tree'.files.lookup place = tree.files.lookup place

/-- A file can be written at a path. -/
def Writable (tree : FileTree) (path : Path) : Prop :=
  ∀ contents, ∃ after, tree.write path contents = .ok after

/-- A file is written exactly if no component holds a null character, the directories above it can
be made, and there is no directory in its place then.
-/
theorem write_eq_ok_iff {path : Path}
    : tree.write path contents = .ok tree'
      ↔ path.parent.hasNull = false
        ∧ path.hasNull = false
        ∧ ∃ between,
            tree.makeDirectories false [] path.parent.steps = .ok between
            ∧ between.find (placeOf path.steps) ≠ .directory
            ∧ between.put (placeOf path.steps) contents = tree' := by
  rw [write]
  cases path.parent.hasNull with
  | true => simp
  | false =>
      cases tree.makeDirectories false [] path.parent.steps with
      | error failed => simp
      | ok between =>
          cases path.hasNull with
          | true => simp
          | false => cases found : between.find (placeOf path.steps) <;> simp [found]

/-- Whether a file can be written does not depend on what is written. -/
theorem writable_iff {path : Path}
    : tree.Writable path ↔ (tree.write path []).toOption.isSome = true := by
  constructor
  · intro h
    obtain ⟨after, done⟩ := h []
    rw [done]
    rfl
  · intro h contents
    cases done : tree.write path [] with
    | error failed =>
        rw [done] at h
        cases h
    | ok after =>
        obtain ⟨plain, plain', between, made, free, _⟩ := write_eq_ok_iff.mp done
        exact ⟨_, write_eq_ok_iff.mpr ⟨plain, plain', between, made, free, rfl⟩⟩

instance (tree : FileTree) (path : Path) : Decidable (tree.Writable path) :=
  decidable_of_iff _ writable_iff.symm

/-- The steps of a path with parts are those of its parent and its name. -/
theorem steps_eq_concat {path : Path} (parts : path.parts ≠ [])
    : path.steps = path.parent.steps ++ [path.parts.getLast parts] := by
  have split := List.dropLast_append_getLast parts
  rw [Path.steps, Path.steps, Path.parent]
  split
  · exact split.symm
  · rw [List.cons_append, split]

theorem gains_of_write {path : Path} (rooted : tree.Rooted)
    (done : tree.write path contents = .ok tree')
    : Gains tree tree' path contents := by
  obtain ⟨_, plain, between, made, free, rfl⟩ := write_eq_ok_iff.mp done
  have start : tree.find (List.reverse []) = .directory := rooted
  obtain ⟨files, retains, reached, directory⟩ := makeDirectories_leads start made
  have parts : path.parts ≠ [] := by
    intro none
    have same : path.parent = path := by
      obtain ⟨root, parts⟩ := path
      obtain rfl : parts = [] := none
      rfl
    rw [same] at directory
    exact free directory
  have here : between.follow [] path.steps = .ok (placeOf path.steps) := by
    have next := follow_concat reached directory (path.parts.getLast parts)
    rwa [← steps_eq_concat parts] at next
  have there := (retains_put free contents).follow here
  refine ⟨?_, fun place different => ?_⟩
  · rw [read, plain, there]
    simp only [Bool.false_eq_true, if_false, find, lookup_put_self]
  · rw [lookup_put_of_ne between different contents, files]

end FileTree

end RegisterMachine
