import RegisterMachine.Proofs.RunInvariants
import RegisterMachine.Proofs.WordConduct

/-! Over a whole session the registers keep their number and hold signed values.
Commands may come in any order and may end in a failure; what was stored before the failure stays.
-/

namespace RegisterMachine

-----------------------------------------------------------------------------------------
-- Registers
-----------------------------------------------------------------------------------------

/-- Registers of a certain number that all hold signed values. -/
structure Registers.Intact (count : Nat) (registers : Registers) : Prop where
  size : registers.size = count
  signed : ∀ value ∈ registers.cells, IsSigned value

namespace Registers

variable {count : Nat} {registers : Registers}

theorem intact_zeros (size : Int)
    : (zeros size).Intact size.toNat := by
  refine ⟨size_zeros size, fun value member => ?_⟩
  rw [(List.mem_replicate.mp member).2]
  decide

theorem Intact.store (h : registers.Intact count) (index value : Int)
    : (registers.store index value).Intact count := by
  refine ⟨(size_store registers index value).trans h.size, fun held member => ?_⟩
  rcases List.mem_or_eq_of_mem_set member with before | rfl
  · exact h.signed held before
  · exact isSigned_toSigned value

theorem Intact.clear (h : registers.Intact count)
    : registers.clear.Intact count :=
  ⟨(size_clear registers).trans h.size, (intact_zeros registers.size).signed⟩

/-- A property of register files that lasts through every store and through clearing. -/
structure Lasting (Kept : Registers → Prop) : Prop where
  store
    : ∀ {registers}, Kept registers → ∀ index value, Kept (registers.store index value)
  clear : ∀ {registers}, Kept registers → Kept registers.clear

theorem lasting_intact (count : Nat)
    : Lasting (Intact count) :=
  ⟨Intact.store, Intact.clear⟩

theorem lasting_size (count : Nat)
    : Lasting fun registers => registers.size = count :=
  ⟨fun h index value => (size_store _ index value).trans h, (size_clear _).trans⟩

/-- Lists of stores keep what lasts, by induction on the stores. -/
theorem Lasting.storeAll {Kept : Registers → Prop} (lasting : Lasting Kept) (h : Kept registers)
    (stores : List (Int × Int))
    : Kept (registers.storeAll stores) := by
  induction stores generalizing registers with
  | nil => exact h
  | cons store stores ih => exact ih (lasting.store h store.1 store.2)

end Registers

variable {Kept : Registers → Prop}

-----------------------------------------------------------------------------------------
-- Runs
-----------------------------------------------------------------------------------------

/-- A run that leaves registers with a property, whatever it writes and however it ends. -/
abbrev Outcome.Keeps (Kept : Registers → Prop) (outcome : Outcome) : Prop :=
  outcome.Within (fun machine => Kept machine.registers) (fun _ => True) fun _ => True

namespace Machine

variable {machine : Machine}

/-- A word either stores or leaves the registers as they are. -/
theorem step_keeps (lasting : Registers.Lasting Kept) (h : Kept machine.registers) (word : Int)
    : (machine.step word).Keeps Kept := by
  refine ⟨?_, fun _ _ => trivial, fun _ _ => trivial⟩
  cases machine.step_conduct word with
  | completed stores _ _ stored _ _ => exact stored ▸ lasting.storeAll h stores
  | spoke _ kept _ => exact kept ▸ h
  | interrupted _ _ _ _ kept => exact kept ▸ h

theorem execute_keeps (lasting : Registers.Lasting Kept) (h : Kept machine.registers)
    (image : Image)
    : (machine.execute image).Keeps Kept :=
  execute_within (fun word _ _ state => step_keeps lasting state word) (fun _ _ => trivial) h

theorem run_keeps (lasting : Registers.Lasting Kept) (h : Kept machine.registers) (image : Image)
    : (machine.run image).Keeps Kept :=
  run_within (fun word _ _ state => step_keeps lasting state word) (fun _ _ => trivial)
    (lasting.clear h)

theorem runSource_keeps (lasting : Registers.Lasting Kept) (h : Kept machine.registers)
    (source : String)
    : Kept (machine.runSource source).outcome.machine.registers := by
  rw [runSource]
  cases (Assembly.assemble source).result with
  | error failure => cases failure <;> exact lasting.clear h
  | ok image =>
      dsimp only
      rw [SourceRun.machine_ofRun]
      have cleared : Kept (machine.withRegisters machine.registers.clear).registers :=
        lasting.clear h
      exact (run_keeps lasting cleared image).state

end Machine

-----------------------------------------------------------------------------------------
-- Sessions
-----------------------------------------------------------------------------------------

namespace Session

variable {session : Session}

theorem perform_get_of_contains {index : Int}
    (h : session.machine.registers.Contains index)
    : session.perform (.get index)
      = session.reply (.value (session.machine.registers.value index)) := by
  rw [perform, Registers.get, if_pos h]

theorem perform_get_of_missing {index : Int}
    (h : ¬ session.machine.registers.Contains index)
    : session.perform (.get index)
      = session.refuse [] (.index ⟨index, session.machine.registers.size⟩) := by
  rw [perform, Registers.get, if_neg h]

theorem perform_set_of_contains {index : Int} (h : session.machine.registers.Contains index)
    (value : Int)
    : session.perform (.set index value)
      = (session.withRegisters (session.machine.registers.store index value)).reply .done := by
  rw [perform, Registers.set, if_pos h]

theorem perform_set_of_missing {index : Int} (h : ¬ session.machine.registers.Contains index)
    (value : Int)
    : session.perform (.set index value)
      = session.refuse [] (.index ⟨index, session.machine.registers.size⟩) := by
  rw [perform, Registers.set, if_neg h]

/-- A command that needs an image keeps what every image keeps; without an image nothing changes. -/
theorem withImage_keeps {next : Session → List LogRecord → Image → Response}
    (h : Kept session.machine.registers)
    (hnext : ∀ log image, Kept (next session log image).session.machine.registers)
    (program : Program)
    : Kept (session.withImage program next).session.machine.registers := by
  rw [withImage]
  cases program.load.result with
  | error error => exact h
  | ok image => exact hnext _ image

/-- Every command keeps what lasts, by cases on the command. -/
theorem perform_keeps (lasting : Registers.Lasting Kept) (h : Kept session.machine.registers)
    (command : Command)
    : Kept (session.perform command).session.machine.registers := by
  cases command with
  | dump | size => exact h
  | clear => exact lasting.clear h
  | get index =>
      rw [perform]
      split <;> exact h
  | set index value =>
      by_cases contained : session.machine.registers.Contains index
      · rw [perform_set_of_contains contained]
        exact lasting.store h index value
      · rw [perform_set_of_missing contained]
        exact h
  | word word => exact (Machine.step_keeps lasting h word).state
  | line text =>
      rw [perform]
      split
      · exact (Machine.step_keeps lasting h _).state
      · exact h
  | execute program =>
      exact withImage_keeps h (fun _ image => (Machine.execute_keeps lasting h image).state)
        program
  | run program =>
      exact withImage_keeps h (fun _ image => (Machine.run_keeps lasting h image).state) program
  | runFresh program => exact withImage_keeps h (fun _ _ => h) program
  | runSource source => exact Machine.runSource_keeps lasting h source

/-- Gives a session other answers to come. -/
def withPrompt (session : Session) (prompt : Prompt) : Session :=
  { session with machine := { session.machine with prompt := prompt } }

/-- The session after commands, each of them given with the answers that are to come then. -/
def advance (session : Session) : List (Prompt × Command) → Session
  | [] => session
  | (prompt, command) :: commands =>
      ((session.withPrompt prompt).perform command).session.advance commands

/-- Every list of commands keeps what lasts, by induction on the list. -/
theorem advance_keeps (lasting : Registers.Lasting Kept) (h : Kept session.machine.registers)
    (commands : List (Prompt × Command))
    : Kept (session.advance commands).machine.registers := by
  induction commands generalizing session with
  | nil => exact h
  | cons command commands ih =>
      obtain ⟨prompt, command⟩ := command
      have given : Kept (session.withPrompt prompt).machine.registers := h
      exact ih (perform_keeps lasting given command)

theorem size_advance (session : Session) (commands : List (Prompt × Command))
    : (session.advance commands).machine.registers.size = session.machine.registers.size :=
  advance_keeps (Registers.lasting_size session.machine.registers.size) rfl commands

/-- Reading and storing at an index: either both reach the cell with this number, or there is none,
both fail with the same error, and the failed store changes nothing.
-/
inductive Access (session : Session) (index value : Int) : Prop
  | cell {held : Int} (low : 0 ≤ index) (high : index < session.machine.registers.size)
    (found : session.machine.registers.cells[index.toNat]? = some held)
    (read : (session.perform (.get index)).answer = .ok (.value held))
    (done : (session.perform (.set index value)).answer = .ok .done)
    (stored
      : (session.perform (.set index value)).session
        = session.withRegisters
            ⟨session.machine.registers.cells.set index.toNat (toSigned value)⟩)
  | missing (outside : index < 0 ∨ session.machine.registers.size ≤ index)
    (unread
      : (session.perform (.get index)).answer
        = .error (.index ⟨index, session.machine.registers.size⟩))
    (refused
      : (session.perform (.set index value)).answer
        = .error (.index ⟨index, session.machine.registers.size⟩))
    (kept : (session.perform (.set index value)).session = session)

theorem perform_access (session : Session) (index value : Int)
    : session.Access index value := by
  by_cases contained : session.machine.registers.Contains index
  · obtain ⟨low, high⟩ := contained
    have inside : index.toNat < session.machine.registers.cells.length := by
      rw [Registers.size] at high
      omega
    refine .cell low high (List.getElem?_eq_getElem inside) ?_ ?_ ?_
    · rw [perform_get_of_contains ⟨low, high⟩, Registers.value,
        List.getD_eq_getElem?_getD, List.getElem?_eq_getElem inside]
      rfl
    · rw [perform_set_of_contains ⟨low, high⟩]
      rfl
    · rw [perform_set_of_contains ⟨low, high⟩]
      rfl
  · refine .missing (by omega) ?_ ?_ ?_
    · rw [perform_get_of_missing contained]
      rfl
    · rw [perform_set_of_missing contained]
      rfl
    · rw [perform_set_of_missing contained]
      rfl

/-- The registers of a session keep their number and hold signed values.
This holds for registers of any number that start with zeros, after every list of commands with any
answers to come, failures included. Reading and storing reach the same indices at every time, none
of them negative, and a store that fails changes nothing.
-/
theorem registers_intact (size : Int) (prompt : Prompt) (commands : List (Prompt × Command))
    : ((start size prompt).advance commands).machine.registers.size = size.toNat
      ∧ (∀ value ∈ ((start size prompt).advance commands).machine.registers.cells, IsSigned value)
      ∧ ∀ index value, ((start size prompt).advance commands).Access index value := by
  have intact : (start size prompt).machine.registers.Intact size.toNat :=
    Registers.intact_zeros size
  obtain ⟨same, signed⟩ := advance_keeps (Registers.lasting_intact _) intact commands
  exact ⟨same, signed, fun index value => perform_access _ index value⟩

end Session

end RegisterMachine
