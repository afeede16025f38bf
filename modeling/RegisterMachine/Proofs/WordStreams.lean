import RegisterMachine.Proofs.WordFields

/-! Images as streams of words, four bytes to a word with the lowest byte first.
Packing words and reading them undo each other, and a partial word at the end of an image is
reported after all whole ones.
-/

namespace RegisterMachine

namespace Image

-----------------------------------------------------------------------------------------
-- Parts of an image
-----------------------------------------------------------------------------------------

/-- The bytes of the whole words of an image. -/
def wholePart (image : Image) : Image :=
  image.take (4 * (image.length / 4))

theorem length_wholePart (image : Image)
    : image.wholePart.length = 4 * (image.length / 4) := by
  rw [wholePart, List.length_take]
  omega

theorem words_eq_nil {image : Image} (short : image.length < 4)
    : image.words = [] := by
  rcases image with _ | ⟨a, _ | ⟨b, _ | ⟨c, _ | ⟨d, rest⟩⟩⟩⟩
  · rfl
  · rfl
  · rfl
  · rfl
  · simp only [List.length_cons] at short
    omega

/-- Whole words in front of an image are read first, by recursion in steps of a word. -/
theorem words_append {first : Image} (aligned : first.length % 4 = 0) (second : Image)
    : Image.words (first ++ second) = first.words ++ second.words := by
  fun_induction words first with
  | case1 a b c d rest ih =>
      have aligned' : rest.length % 4 = 0 := by
        simp only [List.length_cons] at aligned
        omega
      change wordOfBytes a b c d :: words (rest ++ second) = _
      rw [ih aligned']
      rfl
  | case2 image long =>
      rcases image with _ | ⟨a, _ | ⟨b, _ | ⟨c, _ | ⟨d, rest⟩⟩⟩⟩
      · rfl
      · simp at aligned
      · simp at aligned
      · simp at aligned
      · exact (long a b c d rest rfl).elim

/-- A partial word at the end of an image is not one of its words. -/
theorem words_wholePart (image : Image)
    : image.wholePart.words = image.words := by
  have aligned : image.wholePart.length % 4 = 0 := by
    rw [length_wholePart]
    omega
  have rest : Image.words (image.drop (4 * (image.length / 4))) = [] := by
    apply words_eq_nil
    rw [List.length_drop]
    omega
  have split := words_append aligned (image.drop (4 * (image.length / 4)))
  rw [wholePart, List.take_append_drop, rest, List.append_nil] at split
  exact split.symm

/-- The first bytes of an image, four for each word, hold its first words, by induction on their
number.
-/
theorem words_take (image : Image) (count : Nat)
    : Image.words (image.take (4 * count)) = image.words.take count := by
  induction count generalizing image with
  | zero => rfl
  | succ count ih =>
      rcases image with _ | ⟨a, _ | ⟨b, _ | ⟨c, _ | ⟨d, rest⟩⟩⟩⟩
      · rfl
      · rfl
      · rfl
      · rfl
      · have bytes
            : (a :: b :: c :: d :: rest).take (4 * (count + 1))
              = a :: b :: c :: d :: rest.take (4 * count) := rfl
        rw [bytes, words, words, ih, List.take_succ_cons]

-----------------------------------------------------------------------------------------
-- Reading
-----------------------------------------------------------------------------------------

/-- Reading an image from an offset on: word after word until nothing is left, or until what is left
is too short for a word and is reported. The lowest byte of a word comes first.
-/
inductive ReadsFrom : (offset : Nat) → Image → (words : List Int) → Option Truncation → Prop
  | done {offset} : ReadsFrom offset [] [] none
  | cut {offset rest} (nonempty : rest ≠ []) (short : rest.length < 4)
    : ReadsFrom offset rest [] (some ⟨offset, rest.length⟩)
  | word {offset rest words ending} {a b c d : UInt8}
    (later : ReadsFrom (offset + 4) rest words ending)
    : ReadsFrom offset (a :: b :: c :: d :: rest)
        ((a.toNat + b.toNat * 2 ^ 8 + c.toNat * 2 ^ 16 + d.toNat * 2 ^ 24 : Int) :: words) ending

theorem wordOfBytes_eq (a b c d : UInt8)
    : wordOfBytes a b c d
      = a.toNat + b.toNat * 2 ^ 8 + c.toNat * 2 ^ 16 + d.toNat * 2 ^ 24 := by
  simp only [wordOfBytes, powerOfTwo_eq]

/-- Every image is read to its end, by recursion in steps of a word. -/
theorem readsFrom_words (offset : Nat) (image : Image)
    : ReadsFrom offset image image.words (image.truncationFrom? offset) := by
  fun_induction truncationFrom? offset image with
  | case1 offset a b c d rest ih =>
      rw [words, wordOfBytes_eq]
      exact .word ih
  | case2 offset => exact .done
  | case3 offset rest long nonempty =>
      have short : rest.length < 4 := by
        rcases rest with _ | ⟨a, _ | ⟨b, _ | ⟨c, _ | ⟨d, rest⟩⟩⟩⟩
        · simp
        · simp
        · simp
        · simp
        · exact (long a b c d rest rfl).elim
      rw [words_eq_nil short]
      exact .cut nonempty short

/-- Reading leaves no choice, by induction on what is read. -/
theorem ReadsFrom.eq {offset : Nat} {image : Image} {words : List Int}
    {ending : Option Truncation} (h : ReadsFrom offset image words ending)
    : words = image.words ∧ ending = image.truncationFrom? offset := by
  induction h with
  | done => exact ⟨rfl, rfl⟩
  | @cut offset rest nonempty short =>
      refine ⟨(words_eq_nil short).symm, ?_⟩
      have remainder : rest.length % 4 = rest.length := Nat.mod_eq_of_lt short
      have quotient : rest.length / 4 = 0 := Nat.div_eq_of_lt short
      have nonzero : rest.length ≠ 0 := mt List.eq_nil_of_length_eq_zero nonempty
      rw [truncationFrom?_eq, remainder, quotient, if_neg nonzero]
      rfl
  | word _ ih =>
      obtain ⟨rfl, rfl⟩ := ih
      rw [Image.words, wordOfBytes_eq]
      exact ⟨rfl, rfl⟩

/-- Every word that is read fits into 32 bits, by induction on what is read. -/
theorem ReadsFrom.isWord {offset : Nat} {image : Image} {words : List Int}
    {ending : Option Truncation} (h : ReadsFrom offset image words ending)
    : ∀ word ∈ words, IsWord word := by
  induction h with
  | done | cut => exact List.forall_mem_nil _
  | @word _ _ _ _ a b c d _ ih =>
      refine List.forall_mem_cons.mpr ⟨?_, ih⟩
      have ha := a.toNat_lt
      have hb := b.toNat_lt
      have hc := c.toNat_lt
      have hd := d.toNat_lt
      simp only [IsWord, unsignedMax]
      omega

-----------------------------------------------------------------------------------------
-- Packing
-----------------------------------------------------------------------------------------

/-- The bytes of a word that was made of four bytes are these bytes. -/
theorem wordBytes_wordOfBytes (a b c d : UInt8)
    : wordBytes (wordOfBytes a b c d) = [a, b, c, d] := by
  have ha := a.toNat_lt
  have hb := b.toNat_lt
  have hc := c.toNat_lt
  have hd := d.toNat_lt
  have byte (position : Nat) (x : UInt8)
      (same : wordOfBytes a b c d / 2 ^ (8 * position) % 2 ^ 8 = x.toNat)
      : byteAt (wordOfBytes a b c d) position = x := by
    apply UInt8.toNat_inj.mp
    rw [← toNat_byteAt] at same
    exact_mod_cast same
  rw [wordOfBytes_eq] at byte ⊢
  rw [wordBytes, byte 0 a (by omega), byte 1 b (by omega), byte 2 c (by omega), byte 3 d (by omega)]

theorem ofWords_cons (word : Int) (words : List Int)
    : ofWords (word :: words) = wordBytes word ++ ofWords words :=
  List.flatMap_cons

/-- An image consists of the bytes of the words that are read and of less than a word after them, by
induction on what is read.
-/
theorem ReadsFrom.exists_rest {offset : Nat} {image : Image} {words : List Int}
    {ending : Option Truncation} (h : ReadsFrom offset image words ending)
    : ∃ rest, image = ofWords words ++ rest ∧ rest.length < 4 := by
  induction h with
  | done => exact ⟨[], rfl, by decide⟩
  | @cut _ rest _ short => exact ⟨rest, rfl, short⟩
  | @word _ _ _ _ a b c d _ ih =>
      obtain ⟨rest, rfl, short⟩ := ih
      refine ⟨rest, ?_, short⟩
      rw [← wordOfBytes_eq, ofWords_cons, wordBytes_wordOfBytes]
      rfl

theorem length_words (image : Image)
    : image.words.length = image.length / 4 := by
  obtain ⟨rest, split, short⟩ := (image.readsFrom_words 0).exists_rest
  have length := congrArg List.length split
  rw [List.length_append, length_ofWords] at length
  omega

/-- The words of an image are packed into its bytes up to a partial word at the end. -/
theorem ofWords_words (image : Image)
    : ofWords image.words = image.wholePart := by
  obtain ⟨rest, split, _⟩ := (image.readsFrom_words 0).exists_rest
  have length : 4 * (image.length / 4) = (ofWords image.words).length := by
    rw [length_ofWords, length_words]
  rw [wholePart, length]
  exact (List.prefix_iff_eq_take.mp ⟨rest, split.symm⟩)

theorem pack?_eq_some_iff {words : List Int} {image : Image}
    : pack? words = some image ↔ (∀ word ∈ words, IsWord word) ∧ ofWords words = image := by
  simp only [pack?, List.all_eq_true, decide_eq_true_eq, Option.ite_none_right_eq_some,
    Option.some.injEq]

theorem pack?_eq_none_iff {words : List Int}
    : pack? words = none ↔ ∃ word ∈ words, ¬ IsWord word := by
  simp only [pack?, List.all_eq_true, decide_eq_true_eq, ite_eq_right_iff, reduceCtorEq,
    imp_false, not_forall, exists_prop]

/-- The images that are read without a report are exactly those that words are packed into. -/
theorem pack?_eq_some_iff_readsFrom {words : List Int} {image : Image}
    : pack? words = some image ↔ ReadsFrom 0 image words none := by
  rw [pack?_eq_some_iff]
  constructor
  · intro h
    obtain ⟨fit, rfl⟩ := h
    have read := readsFrom_words 0 (ofWords words)
    rwa [words_ofWords fit, (truncationFrom?_eq_none_iff 0 _).mpr] at read
    rw [length_ofWords]
    omega
  · intro read
    refine ⟨read.isWord, ?_⟩
    obtain ⟨rfl, whole⟩ := read.eq
    have aligned := (truncationFrom?_eq_none_iff 0 image).mp whole.symm
    rw [ofWords_words, wholePart]
    exact List.take_of_length_le (by omega)

/-- Lists of words are packed one after the other. -/
theorem pack?_append (first second : List Int)
    : pack? (first ++ second)
      = (pack? first).bind fun image => (pack? second).map fun later => image ++ later := by
  apply Option.ext
  intro image
  simp only [Option.bind_eq_some_iff, Option.map_eq_some_iff, pack?_eq_some_iff,
    List.forall_mem_append]
  constructor
  · intro h
    obtain ⟨⟨fit, fit'⟩, rfl⟩ := h
    exact ⟨_, ⟨fit, rfl⟩, _, ⟨fit', rfl⟩, List.flatMap_append.symm⟩
  · intro h
    obtain ⟨_, ⟨fit, rfl⟩, _, ⟨fit', rfl⟩, rfl⟩ := h
    exact ⟨⟨fit, fit'⟩, List.flatMap_append⟩

-----------------------------------------------------------------------------------------
-- Packing and reading
-----------------------------------------------------------------------------------------

/-- Packing words and reading them undo each other.
A list of integers is packed exactly if all of them fit into a word, and what it is packed into is
read as the same list without a report. Every image is read as one word for each four of its bytes,
and these words are packed into the image without what is left of it at the end. If anything is left
it is reported after all words, with its offset and its length. The lowest byte of a word comes
first in both directions, so that packed lists follow each other like the lists themselves.
-/
theorem packing_inverts_reading
    : (∀ words,
        (∀ word ∈ words, IsWord word)
        → ∃ image,
            pack? words = some image
            ∧ ReadsFrom 0 image words none
            ∧ image.words = words
            ∧ image.truncation? = none)
      ∧ (∀ words, pack? words = none ↔ ∃ word ∈ words, ¬ IsWord word)
      ∧ (∀ image,
          ReadsFrom 0 image image.words image.truncation?
          ∧ image.words.length = image.length / 4
          ∧ (∀ word ∈ image.words, IsWord word)
          ∧ pack? image.words = some (image.take (image.length - image.length % 4))
          ∧ (image.truncation? = none ↔ image.length % 4 = 0)
          ∧ ∀ error,
              image.truncation? = some error
              → error.message
                = "Truncated word at offset " ++ decimal ↑(4 * (image.length / 4)) ++ " ("
                  ++ decimal ↑(image.length % 4) ++ " bytes)")
      ∧ (∀ words image,
          pack? words = some image ↔ image.words = words ∧ image.length % 4 = 0)
      ∧ ∀ first second,
          pack? (first ++ second)
          = (pack? first).bind fun image => (pack? second).map fun later => image ++ later := by
  refine ⟨fun words fit => ?_, fun words => pack?_eq_none_iff, fun image => ?_, ?_, pack?_append⟩
  · have packed := pack?_eq_some fit
    exact ⟨_, packed, pack?_eq_some_iff_readsFrom.mp packed, words_ofWords fit,
      truncation?_ofWords words⟩
  · have read := image.readsFrom_words 0
    have whole : 4 * (image.length / 4) = image.length - image.length % 4 := by omega
    refine ⟨read, image.length_words, read.isWord, ?_, truncationFrom?_eq_none_iff 0 image, ?_⟩
    · rw [pack?_eq_some read.isWord, ofWords_words, wholePart, whole]
    · intro error reported
      rw [truncation?, truncationFrom?_eq, Option.ite_none_left_eq_some] at reported
      obtain ⟨_, same⟩ := reported
      obtain rfl := Option.some.inj same
      rw [Nat.zero_add]
      rfl
  · intro words image
    rw [pack?_eq_some_iff_readsFrom]
    constructor
    · intro read
      obtain ⟨rfl, whole⟩ := read.eq
      exact ⟨rfl, (truncationFrom?_eq_none_iff 0 image).mp whole.symm⟩
    · intro h
      obtain ⟨rfl, aligned⟩ := h
      have read := image.readsFrom_words 0
      rwa [(truncationFrom?_eq_none_iff 0 image).mpr aligned] at read

end Image

end RegisterMachine
