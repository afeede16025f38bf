import RegisterMachine.Proofs.Assignments

/-! Bytes of a register are stored one by one.
A store replaces one of the four bytes of a pattern and nothing else, so that stores obey the laws
of a container with four places.
-/

namespace RegisterMachine

-----------------------------------------------------------------------------------------
-- The bytes of a pattern
-----------------------------------------------------------------------------------------

/-- The bytes of the low 32 bits of an integer, counted from the low end. -/
def patternByte (value : Int) (position : Fin 4) : UInt8 :=
  byteAt (toUnsigned value) position

theorem toNat_patternByte (value : Int) (position : Fin 4)
    : ((patternByte value position).toNat : Int)
      = toUnsigned value / 2 ^ (8 * position.val) % 2 ^ 8 :=
  toNat_byteAt (toUnsigned value) position

theorem patternByte_toSigned (value : Int)
    : patternByte (toSigned value) = patternByte value := by
  funext position
  rw [patternByte, toUnsigned_toSigned, patternByte]

/-- The bytes of a pattern make up the pattern. -/
theorem toUnsigned_eq_wordOfBytes (value : Int)
    : toUnsigned value
      = wordOfBytes (patternByte value 0) (patternByte value 1) (patternByte value 2)
          (patternByte value 3) :=
  (wordOfBytes_wordBytes (isWord_toUnsigned value)).symm

/-- The bytes of a register decide what it holds. -/
theorem eq_of_patternByte_eq {a b : Int} (ha : IsSigned a) (hb : IsSigned b)
    (h : patternByte a = patternByte b)
    : a = b := by
  apply eq_of_toUnsigned_eq ha hb
  rw [toUnsigned_eq_wordOfBytes a, toUnsigned_eq_wordOfBytes b, h]

/-- Replacing a byte of a pattern leaves the other three alone, by cases on both places. -/
theorem patternByte_replaceByte (value : Int) (position : Fin 4) (byte : UInt8)
    : patternByte (Arithmetic.replaceByte value position.val byte.toNat)
      = Function.update (patternByte value) position byte := by
  have low := toUnsigned_nonneg value
  have high := toUnsigned_lt value
  have small : (byte.toNat : Int) < 256 := by exact_mod_cast byte.toNat_lt
  funext other
  apply UInt8.toNat_inj.mp
  zify
  rw [Function.update_apply, apply_ite UInt8.toNat, Nat.cast_ite, toNat_patternByte,
    toNat_patternByte]
  rw [Arithmetic.replaceByte_eq value _ (Int.natCast_nonneg _) small]
  simp only [powerOfTwo_eq, Int.toNat_natCast]
  generalize toUnsigned value = pattern at low high
  simp only [patternCount, toUnsigned] at high ⊢
  -- Only for known places are the powers literals, and what is left to show linear.
  fin_cases position <;> fin_cases other <;> simp <;> omega

-----------------------------------------------------------------------------------------
-- Words that store a byte
-----------------------------------------------------------------------------------------

/-- A word that is to store a byte in a register, at a place and with a value that it finds in
registers. Neither of them needs to be in range, and operands may name the same register.
-/
structure Machine.SetsByte (machine : Machine) (register word index byte : Int) : Prop where
  known : Operation.ofCode? (Fields.ofWord word).opcode = some .setByte
  destination : (Fields.ofWord word).operands.first = register
  index : machine.registers.get (Fields.ofWord word).operands.second = .ok index
  byte : machine.registers.get (Fields.ofWord word).operands.third = .ok byte

/-- The place and the value of a byte come from other registers than the one that it is stored in.
-/
def ReadsElsewhere (register word : Int) : Prop :=
  (Fields.ofWord word).operands.second ≠ register
  ∧ (Fields.ofWord word).operands.third ≠ register

namespace Machine.SetsByte

variable {machine : Machine} {register value word word' other index index' byte byte' : Int}
  {position : Fin 4} {content : UInt8}

/-- A store in range replaces the byte. -/
theorem assigns (h : machine.SetsByte register word position.val content.toNat)
    (held : machine.registers.get register = .ok value)
    : ∃ result,
        IsSigned result
        ∧ (machine.step word).Assigns machine register result
        ∧ patternByte result = Function.update (patternByte value) position content := by
  obtain ⟨known, rfl, second, third⟩ := h
  obtain ⟨contained, rfl⟩ := Registers.get_eq_ok_iff.mp held
  obtain ⟨contained', place⟩ := Registers.get_eq_ok_iff.mp second
  obtain ⟨contained'', new⟩ := Registers.get_eq_ok_iff.mp third
  have small := content.toNat_lt
  have rule := Yields.setByte contained contained' contained'' (by omega) (by omega)
  rw [place, new] at rule
  refine ⟨_, isSigned_toSigned _, step_assigns (Registers.wordEffect_of_yields known rule), ?_⟩
  rw [patternByte_toSigned, patternByte_replaceByte]

/-- A store at a place that there is not is refused, whatever the byte is. -/
theorem complains_of_index (h : machine.SetsByte register word index byte)
    (held : machine.registers.get register = .ok value) (outside : index < 0 ∨ 3 < index)
    : (machine.step word).Complains machine "Error: Byte index out of range (0-3)." := by
  obtain ⟨known, rfl, second, third⟩ := h
  obtain ⟨contained, _⟩ := Registers.get_eq_ok_iff.mp held
  obtain ⟨contained', rfl⟩ := Registers.get_eq_ok_iff.mp second
  obtain ⟨contained'', _⟩ := Registers.get_eq_ok_iff.mp third
  have rule := Yields.byteIndex contained contained' contained'' outside
  exact step_complains (Registers.wordEffect_of_yields known rule)

/-- A store of a value that is no byte is refused. -/
theorem complains_of_byte (h : machine.SetsByte register word index byte)
    (held : machine.registers.get register = .ok value) (inside : 0 ≤ index ∧ index ≤ 3)
    (outside : byte < 0 ∨ 255 < byte)
    : (machine.step word).Complains machine "Error: Byte value out of range (0-255)." := by
  obtain ⟨known, rfl, second, third⟩ := h
  obtain ⟨contained, _⟩ := Registers.get_eq_ok_iff.mp held
  obtain ⟨contained', rfl⟩ := Registers.get_eq_ok_iff.mp second
  obtain ⟨contained'', rfl⟩ := Registers.get_eq_ok_iff.mp third
  have rule := Yields.byteValue contained contained' contained'' (by omega) outside
  exact step_complains (Registers.wordEffect_of_yields known rule)

/-- A store that is refused leaves the machine as it was. -/
theorem kept (h : machine.SetsByte register word index byte)
    (held : machine.registers.get register = .ok value)
    (refused : (index < 0 ∨ 3 < index) ∨ byte < 0 ∨ 255 < byte)
    : (machine.step word).machine = machine := by
  by_cases inside : 0 ≤ index ∧ index ≤ 3
  · exact (h.complains_of_byte held inside (refused.resolve_left (by omega))).kept
  · exact (h.complains_of_index held (by omega)).kept

/-- Only the register in which a byte is stored changes. -/
theorem get_step_of_ne (h : machine.SetsByte register word index byte)
    (different : other ≠ register)
    : (machine.step word).machine.registers.get other = machine.registers.get other := by
  apply get_step_of_not_mem
  simp only [Footprint.ofWord, h.known, Operation.footprint, h.destination, List.mem_singleton]
  exact different

/-- A store into the same register leaves the place and the value of another one alone. -/
theorem after (h : machine.SetsByte register word index byte)
    (h' : machine.SetsByte register word' index' byte') (elsewhere : ReadsElsewhere register word)
    : (machine.step word').machine.SetsByte register word index byte := by
  refine ⟨h.known, h.destination, ?_, ?_⟩
  · rw [h'.get_step_of_ne elsewhere.1, h.index]
  · rw [h'.get_step_of_ne elsewhere.2, h.byte]

end Machine.SetsByte

-----------------------------------------------------------------------------------------
-- Runs of stores
-----------------------------------------------------------------------------------------

/-- A word that stores a byte, with the place and the byte that it is to find in registers. -/
structure ByteStore where
  word : Int
  position : Fin 4
  content : UInt8
  deriving DecidableEq, Repr

namespace ByteStore

/-- The bytes of a pattern after some stores, of which the later ones win. -/
def storeAll (stores : List ByteStore) (bytes : Fin 4 → UInt8) : Fin 4 → UInt8 :=
  stores.foldl (fun bytes store => Function.update bytes store.position store.content) bytes

/-- Stores that agree on what each place is to hold bring it there, by induction on the stores. -/
theorem storeAll_apply {contents : Fin 4 → UInt8} {stores : List ByteStore}
    (agree : ∀ store ∈ stores, store.content = contents store.position) (bytes : Fin 4 → UInt8)
    (position : Fin 4)
    : storeAll stores bytes position
      = if ∃ store ∈ stores, store.position = position then contents position
        else bytes position := by
  induction stores generalizing bytes with
  | nil => simp [storeAll]
  | cons store stores ih =>
      obtain ⟨here, later⟩ := List.forall_mem_cons.mp agree
      rw [storeAll, List.foldl_cons, ← storeAll, ih later, Function.update_apply]
      simp only [List.exists_mem_cons_iff]
      by_cases rest : ∃ store ∈ stores, store.position = position
      · rw [if_pos rest, if_pos (Or.inr rest)]
      · by_cases same : position = store.position
        · rw [if_neg rest, if_pos same, if_pos (Or.inl same.symm), here, same]
        · rw [if_neg rest, if_neg same, if_neg (not_or.mpr ⟨fun eq => same eq.symm, rest⟩)]

end ByteStore

namespace Machine

variable {machine : Machine} {register value : Int} {stores : List ByteStore}

/-- A run of stores into one register. Each of them finds its place and its byte in registers when
its turn comes, also in the register that has been stored in.
-/
def SetsBytes (register : Int) (machine : Machine) : List ByteStore → Prop
  | [] => True
  | store :: stores =>
      machine.SetsByte register store.word store.position.val store.content.toNat
      ∧ SetsBytes register (machine.step store.word).machine stores

/-- A run of stores updates the bytes of its register store by store and does nothing else, by
induction on the stores.
-/
theorem SetsBytes.assigns (h : SetsBytes register machine stores)
    (held : machine.registers.get register = .ok value) (signed : IsSigned value)
    : ∃ result,
        IsSigned result
        ∧ (machine.steps (stores.map ByteStore.word)).Assigns machine register result
        ∧ patternByte result = ByteStore.storeAll stores (patternByte value) := by
  induction stores generalizing machine value with
  | nil => exact ⟨value, signed, Outcome.idle_assigns held, rfl⟩
  | cons store stores ih =>
      obtain ⟨here, later⟩ := h
      obtain ⟨between, signed', stored, bytes⟩ := here.assigns held
      obtain ⟨result, signed'', assigned, bytes'⟩ := ih later stored.held signed'
      exact ⟨result, signed'', stored.andThen assigned, by rw [bytes', bytes]; rfl⟩

/-- Stores to all four places make up the value, whatever the register held before. -/
theorem SetsBytes.assigns_all (h : SetsBytes register machine stores)
    (held : machine.registers.get register = .ok value) (signed : IsSigned value)
    {contents : Fin 4 → UInt8}
    (agree : ∀ store ∈ stores, store.content = contents store.position)
    (all : ∀ position, ∃ store ∈ stores, store.position = position)
    : (machine.steps (stores.map ByteStore.word)).Assigns machine register
        (toSigned (wordOfBytes (contents 0) (contents 1) (contents 2) (contents 3))) := by
  obtain ⟨result, signed', assigned, bytes⟩ := h.assigns held signed
  have place (position : Fin 4) : patternByte result position = contents position := by
    rw [bytes, ByteStore.storeAll_apply agree, if_pos (all position)]
  rw [← place, ← place, ← place, ← place, ← toUnsigned_eq_wordOfBytes,
    toSigned_eq_toSigned_iff.mpr (toUnsigned_toUnsigned result), toSigned_eq_self signed']
  exact assigned

-----------------------------------------------------------------------------------------
-- Two stores
-----------------------------------------------------------------------------------------

/-- A place and a value are in range, or a store that finds them is refused. -/
theorem in_range_or_refused (index byte : Int)
    : (∃ (position : Fin 4) (content : UInt8), index = position.val ∧ byte = content.toNat)
      ∨ (index < 0 ∨ 3 < index)
      ∨ byte < 0
      ∨ 255 < byte := by
  by_cases inside : (0 ≤ index ∧ index ≤ 3) ∧ 0 ≤ byte ∧ byte ≤ 255
  · have small : byte.toNat < 256 := by omega
    refine Or.inl ⟨⟨index.toNat, by omega⟩, UInt8.ofNatLT byte.toNat small, ?_, ?_⟩
    · exact (Int.toNat_of_nonneg inside.1.1).symm
    · exact (Int.toNat_of_nonneg inside.2.1).symm
  · omega

/-- A word that asks nothing is followed by the next one. -/
theorem machine_steps_pair {word word' : Int} (silent : ¬ IsInputWord word)
    : (machine.steps [word, word']).machine = ((machine.step word).machine.step word').machine := by
  rw [steps, Outcome.machine_andThen (step_of_silent silent machine).2.2, steps]
  exact congrArg Outcome.machine (Outcome.andThen_idle _)

namespace SetsByte

variable {word word' index index' byte byte' : Int} {position position' : Fin 4}
  {content content' : UInt8}

theorem silent (h : machine.SetsByte register word index byte)
    : ¬ IsInputWord word :=
  fun asks => nomatch h.known.symm.trans asks

/-- Whether another store comes before a refused one or after it makes no difference. -/
theorem steps_comm_of_refused (h : machine.SetsByte register word index byte)
    (h' : machine.SetsByte register word' index' byte') (elsewhere : ReadsElsewhere register word)
    (held : machine.registers.get register = .ok value)
    (refused : (index < 0 ∨ 3 < index) ∨ byte < 0 ∨ 255 < byte)
    : (machine.steps [word, word']).machine = (machine.steps [word', word]).machine := by
  obtain ⟨low, high⟩ := (Registers.get_eq_ok_iff.mp held).1
  have contained : (machine.step word').machine.registers.Contains register := by
    rw [← machine.size_step word'] at high
    exact ⟨low, high⟩
  have held' := Registers.get_eq_of_contains contained
  rw [machine_steps_pair h.silent, machine_steps_pair h'.silent, h.kept held refused,
    (h.after h' elsewhere).kept held' refused]

/-- Two stores in range update the bytes one after the other. -/
theorem steps_assigns (h : machine.SetsByte register word position.val content.toNat)
    (h'
      : (machine.step word).machine.SetsByte register word' position'.val content'.toNat)
    (held : machine.registers.get register = .ok value) (signed : IsSigned value)
    : ∃ result,
        IsSigned result
        ∧ (machine.steps [word, word']).Assigns machine register result
        ∧ patternByte result
          = Function.update (Function.update (patternByte value) position content) position'
              content' := by
  have sets
      : SetsBytes register machine [⟨word, position, content⟩, ⟨word', position', content'⟩] :=
    ⟨h, h', trivial⟩
  exact sets.assigns held signed

/-- Stores at different places can be exchanged, whether or not they are in range. -/
theorem steps_comm (h : machine.SetsByte register word index byte)
    (h' : machine.SetsByte register word' index' byte') (elsewhere : ReadsElsewhere register word)
    (elsewhere' : ReadsElsewhere register word')
    (held : machine.registers.get register = .ok value) (signed : IsSigned value)
    (different : index ≠ index')
    : (machine.steps [word, word']).machine = (machine.steps [word', word]).machine := by
  -- A refused store leaves no trace, so that only two stores in range have to be compared.
  rcases in_range_or_refused index byte with ⟨position, content, rfl, rfl⟩ | refused
  · rcases in_range_or_refused index' byte' with ⟨position', content', rfl, rfl⟩ | refused'
    · obtain ⟨result, fits, assigned, bytes⟩ :=
        h.steps_assigns (h'.after h elsewhere') held signed
      obtain ⟨result', fits', assigned', bytes'⟩ :=
        h'.steps_assigns (h.after h' elsewhere) held signed
      have places : position ≠ position' := fun same => different (by rw [same])
      have same : result = result' := by
        apply eq_of_patternByte_eq fits fits'
        rw [bytes, bytes', Function.update_comm places]
      exact assigned.machine_eq (same ▸ assigned')
    · exact (h'.steps_comm_of_refused h elsewhere' held refused').symm
  · exact h.steps_comm_of_refused h' elsewhere held refused

/-- Storing the byte that is there already changes nothing. -/
theorem machine_step_of_same
    (h : machine.SetsByte register word position.val (patternByte value position).toNat)
    (held : machine.registers.get register = .ok value) (signed : IsSigned value)
    : (machine.step word).machine = machine := by
  obtain ⟨result, fits, assigned, bytes⟩ := h.assigns held
  rw [Function.update_eq_self] at bytes
  obtain rfl : result = value := eq_of_patternByte_eq fits signed bytes
  exact assigned.machine_eq_start held

end SetsByte

/-- Bytes are stored lawfully, whichever registers a word names.
A store in range makes its byte the byte at its place in the pattern of the register and leaves the
other three alone; all else stays as it is. A store at a place that there is not is refused, and so
is the store of a value that is no byte, with a line that says what is wrong, the place first. So
stores at different places can be exchanged if they find their places and bytes in other registers;
the second of two stores at the same place wins; storing the byte that is there already changes
nothing; and stores to all four places, in whatever order, make up the value of their bytes.
-/
theorem byte_store_laws (held : machine.registers.get register = .ok value)
    (signed : IsSigned value)
    : (∀ (word : Int) (position : Fin 4) (content : UInt8),
        machine.SetsByte register word position.val content.toNat
        → ∃ result,
            IsSigned result
            ∧ (machine.step word).Assigns machine register result
            ∧ patternByte result = Function.update (patternByte value) position content)
      ∧ (∀ word index byte : Int,
          machine.SetsByte register word index byte
          → (index < 0 ∨ 3 < index
              → (machine.step word).Complains machine "Error: Byte index out of range (0-3).")
            ∧ (0 ≤ index ∧ index ≤ 3
              → byte < 0 ∨ 255 < byte
              → (machine.step word).Complains machine "Error: Byte value out of range (0-255)."))
      ∧ (∀ word word' index index' byte byte' : Int,
          machine.SetsByte register word index byte
          → machine.SetsByte register word' index' byte'
          → ReadsElsewhere register word
          → ReadsElsewhere register word'
          → index ≠ index'
          → (machine.steps [word, word']).machine = (machine.steps [word', word]).machine)
      ∧ (∀ (word word' : Int) (position : Fin 4) (content content' : UInt8),
          machine.SetsByte register word position.val content.toNat
          → (machine.step word).machine.SetsByte register word' position.val content'.toNat
          → ∃ result,
              IsSigned result
              ∧ (machine.steps [word, word']).Assigns machine register result
              ∧ patternByte result = Function.update (patternByte value) position content')
      ∧ (∀ (word : Int) (position : Fin 4),
          machine.SetsByte register word position.val (patternByte value position).toNat
          → (machine.step word).machine = machine)
      ∧ ∀ (contents : Fin 4 → UInt8) (stores : List ByteStore),
          SetsBytes register machine stores
          → (∀ store ∈ stores, store.content = contents store.position)
          → (∀ position, ∃ store ∈ stores, store.position = position)
          → (machine.steps (stores.map ByteStore.word)).Assigns machine register
              (toSigned
                (wordOfBytes (contents 0) (contents 1) (contents 2) (contents 3))) := by
  refine ⟨?_, ?_, ?_, ?_, ?_, ?_⟩
  · intro word position content sets
    exact sets.assigns held
  · intro word index byte sets
    exact ⟨sets.complains_of_index held, sets.complains_of_byte held⟩
  · intro word word' index index' byte byte' sets sets' elsewhere elsewhere' different
    exact sets.steps_comm sets' elsewhere elsewhere' held signed different
  · intro word word' position content content' sets sets'
    obtain ⟨result, fits, assigned, bytes⟩ := sets.steps_assigns sets' held signed
    rw [Function.update_idem] at bytes
    exact ⟨result, fits, assigned, bytes⟩
  · intro word position sets
    exact sets.machine_step_of_same held signed
  · intro contents stores sets agree all
    exact sets.assigns_all held signed agree all

/-- The bytes 254, 255, 255 and 255 make up -2 in any order, and a register may be the source of a
byte that it holds already.
-/
theorem byte_store_laws_any_order
    : Registers.get ⟨[7, 0, 1, 2, 3, 254, 255, 255, 255]⟩ 0 = .ok 7
      ∧ IsSigned 7
      ∧ (steps ⟨⟨[7, 0, 1, 2, 3, 254, 255, 255, 255]⟩, none⟩
            [58769424, 41959440, 67174416, 50364432]).Assigns
          ⟨⟨[7, 0, 1, 2, 3, 254, 255, 255, 255]⟩, none⟩ 0 (-2)
      ∧ (step ⟨⟨[7, 0, 1, 2, 3, 254, 255, 255, 255]⟩, none⟩ 16400).machine
        = ⟨⟨[7, 0, 1, 2, 3, 254, 255, 255, 255]⟩, none⟩ := by
  have held
      : (Machine.mk ⟨[7, 0, 1, 2, 3, 254, 255, 255, 255]⟩ none).registers.get 0 = .ok 7 := rfl
  have signed : IsSigned 7 := by decide
  obtain ⟨_, _, _, _, same, all⟩ := byte_store_laws held signed
  have made :=
    all ![254, 255, 255, 255]
      [⟨58769424, 2, 255⟩, ⟨41959440, 0, 254⟩, ⟨67174416, 3, 255⟩, ⟨50364432, 1, 255⟩]
      ⟨⟨rfl, rfl, rfl, rfl⟩, ⟨rfl, rfl, rfl, rfl⟩, ⟨rfl, rfl, rfl, rfl⟩, ⟨rfl, rfl, rfl, rfl⟩,
        trivial⟩
      (by decide) (by decide)
  have negative : toSigned (wordOfBytes 254 255 255 255) = -2 := by decide +kernel
  refine ⟨held, signed, ?_, same 16400 0 ⟨rfl, rfl, rfl, rfl⟩⟩
  rw [← negative]
  exact made

end Machine

end RegisterMachine
