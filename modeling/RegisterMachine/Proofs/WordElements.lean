import RegisterMachine.Proofs.PaddedWords

/-! The elements of the grammar for single tokens: integers, references to registers, and names.
Each of them goes on as far as it can, and so it finds a word of its own grammar wherever a blank or
the end of the text comes behind it.
-/

namespace RegisterMachine.Assembly

open Text

-----------------------------------------------------------------------------------------
-- Characters of words
-----------------------------------------------------------------------------------------

/-- The characters that a name may consist of. -/
def isNameChar (c : Char) : Bool :=
  c.isAlphanum || c == '_' || c == '$'

theorem unpadded_of_isNameChar {c : Char} (inName : isNameChar c = true)
    : isPadding c = false := by
  rw [Bool.eq_false_iff, ne_eq, isPadding_iff]
  intro blank
  simp only [padding, List.mem_cons, List.not_mem_nil, or_false] at blank
  rcases blank with rfl | rfl | rfl | rfl <;> cases inName

theorem unpadded_of_isDigit {c : Char} (digit : c.isDigit = true)
    : isPadding c = false := by
  apply unpadded_of_isNameChar
  rw [isNameChar, Char.isAlphanum, digit, Bool.or_true, Bool.true_or, Bool.true_or]

section
variable {inside : Char → Bool} {rest : List Char}

/-- A blank ends a run of characters that are no blanks. -/
theorem ends_of_blank (unpadded : ∀ {c}, inside c = true → isPadding c = false)
    (blank : ∀ c ∈ rest.head?, isPadding c = true)
    : ∀ c ∈ rest.head?, inside c = false := by
  intro c head
  rw [Bool.eq_false_iff]
  intro within
  have visible := unpadded within
  rw [blank c head] at visible
  cases visible

/-- A run that something else follows is what is taken from the start of a text. -/
theorem takeWhile_run {run : List Char} (within : ∀ c ∈ run, inside c = true)
    (ends : ∀ c ∈ rest.head?, inside c = false)
    : (run ++ rest).takeWhile inside = run ∧ (run ++ rest).dropWhile inside = rest := by
  rw [List.takeWhile_append_of_pos within, List.dropWhile_append_of_pos within]
  cases rest with
  | nil => exact ⟨List.append_nil run, rfl⟩
  | cons c rest =>
      have other : ¬ inside c = true := by
        rw [ends c rfl]
        exact Bool.false_ne_true
      rw [List.takeWhile_cons_of_neg other, List.dropWhile_cons_of_neg other]
      exact ⟨List.append_nil run, rfl⟩

end

-----------------------------------------------------------------------------------------
-- Integers
-----------------------------------------------------------------------------------------

/-- A sign, if there is one, and all the digits behind it, of which there is at least one. -/
def matchInteger : Element Int := fun text =>
  let (negative, unsigned) := splitSign text
  let digits := unsigned.takeWhile Char.isDigit
  if digits = [] then
    none
  else
    let magnitude : Int := decimalValue digits
    some (if negative then -magnitude else magnitude, unsigned.dropWhile Char.isDigit)

theorem solid_isInteger
    : Solid IsInteger := by
  have row {digits : List Char} (number : IsNumber digits)
      : ∀ c ∈ digits, isPadding c = false :=
    fun c member => unpadded_of_isDigit (number.2 c member)
  constructor
  · intro word value integer
    cases integer with
    | unsigned number => exact number.1
    | plus | minus => exact List.cons_ne_nil _ _
  · intro word value integer
    cases integer with
    | unsigned number => exact row number
    | plus number | minus number => exact List.forall_mem_cons.mpr ⟨by decide, row number⟩

theorem splitSign_of_isDigit {c : Char} (digit : c.isDigit = true) (text : List Char)
    : splitSign (c :: text) = (false, c :: text) := by
  unfold splitSign
  split
  · next same =>
      obtain ⟨rfl, _⟩ := List.cons.inj same
      cases digit
  · next same =>
      obtain ⟨rfl, _⟩ := List.cons.inj same
      cases digit
  · rfl

theorem matchInteger_eq_some_iff {text unsigned rest : List Char} {negative : Bool} {value : Int}
    (sign : splitSign text = (negative, unsigned))
    : matchInteger text = some (value, rest)
      ↔ ∃ digits,
          unsigned = digits ++ rest
          ∧ IsNumber digits
          ∧ (∀ c ∈ rest.head?, c.isDigit = false)
          ∧ (if negative then -(decimalValue digits : Int) else decimalValue digits) = value := by
  simp only [matchInteger, sign]
  constructor
  · intro h
    split at h
    · cases h
    · next some =>
        obtain ⟨rfl, rfl⟩ := Prod.mk.inj (Option.some.inj h)
        obtain ⟨_, _, _, ends⟩ := exists_append_dropWhile Char.isDigit unsigned
        exact ⟨_, List.takeWhile_append_dropWhile.symm,
          ⟨some, fun c member => List.mem_takeWhile_imp member⟩, ends, rfl⟩
  · intro h
    obtain ⟨digits, rfl, number, ends, rfl⟩ := h
    obtain ⟨taken, left⟩ := takeWhile_run number.2 ends
    rw [taken, left, if_neg number.1]

theorem matchInteger_recognizes
    : Recognizes matchInteger IsInteger where
  toSolid := solid_isInteger
  sound := by
    intro text value rest found
    cases sign : splitSign text with
    | mk negative unsigned =>
        obtain ⟨digits, rfl, number, _, rfl⟩ := (matchInteger_eq_some_iff sign).mp found
        -- The three forms of an integer are the three cases of the split.
        unfold splitSign at sign
        split at sign
        · obtain ⟨rfl, rfl⟩ := Prod.mk.inj sign
          exact ⟨_, rfl, .minus number⟩
        · obtain ⟨rfl, rfl⟩ := Prod.mk.inj sign
          exact ⟨_, rfl, .plus number⟩
        · obtain ⟨rfl, rfl⟩ := Prod.mk.inj sign
          exact ⟨_, rfl, .unsigned number⟩
  complete := by
    intro word value rest integer blank
    have ends := ends_of_blank unpadded_of_isDigit blank
    cases integer with
    | plus number => exact (matchInteger_eq_some_iff rfl).mpr ⟨_, rfl, number, ends, rfl⟩
    | minus number => exact (matchInteger_eq_some_iff rfl).mpr ⟨_, rfl, number, ends, rfl⟩
    | unsigned number =>
        obtain ⟨c, digits, rfl⟩ := List.exists_cons_of_ne_nil number.1
        have sign := splitSign_of_isDigit (number.2 c List.mem_cons_self) (digits ++ rest)
        exact (matchInteger_eq_some_iff sign).mpr ⟨_, rfl, number, ends, rfl⟩

/-- The digits behind the sign are those that are taken. -/
theorem leadingDigits_eq_nil_iff (text : List Char)
    : leadingDigits text = [] ↔ matchInteger text = none := by
  simp only [leadingDigits, matchInteger]
  split <;> simp_all

/-- What an integer matches is converted at once, which fails for too many digits. -/
def convertInteger : Element (Except ConversionError Int) := fun text =>
  (matchInteger text).map fun (value, rest) =>
    if Digits.limit < (leadingDigits text).length then
      (.error (.reading (leadingDigits text).length), rest)
    else
      (.ok value, rest)

-----------------------------------------------------------------------------------------
-- References to registers
-----------------------------------------------------------------------------------------

/-- The letter of a register and an index, whether or not there is such a register. -/
inductive IsReference : List Char → Int → Prop
  | intro {letter digits index} (head : IsRegisterLetter letter) (integer : IsInteger digits index)
    : IsReference (letter :: digits) index

/-- A reference to one of the registers, with an index that is not too long. -/
def IsRegister (word : List Char) (index : Int) : Prop :=
  IsReference word index ∧ (∀ count, ¬ Overlong word.tail count) ∧ 0 ≤ index ∧ index ≤ 511

/-- An integer that is not too long. -/
def IsShortInteger (word : List Char) (value : Int) : Prop :=
  IsInteger word value ∧ ∀ count, ¬ Overlong word count

instance (letter : Char) : Decidable (IsRegisterLetter letter) :=
  inferInstanceAs (Decidable (letter = 'R' ∨ letter = 'r'))

/-- An element behind the letter of a register. -/
def behindLetter {α : Type} (element : Element α) : Element α
  | [] => none
  | letter :: text => if IsRegisterLetter letter then element text else none

theorem IsRegisterLetter.unpadded {letter : Char} (h : IsRegisterLetter letter)
    : isPadding letter = false := by
  rcases h with rfl | rfl <;> rfl

theorem isReference_cons_iff {letter : Char} {rest : List Char} {index : Int}
    (head : IsRegisterLetter letter)
    : IsReference (letter :: rest) index ↔ IsInteger rest index := by
  constructor
  · intro h
    cases h with
    | intro _ integer => exact integer
  · exact .intro head

theorem IsReference.unique {word : List Char} {first second : Int}
    (hfirst : IsReference word first) (hsecond : IsReference word second)
    : first = second := by
  cases hfirst with
  | intro head integer => exact integer.unique ((isReference_cons_iff head).mp hsecond)

theorem solid_isReference
    : Solid IsReference where
  nonempty reference := by
    cases reference with
    | intro => exact List.cons_ne_nil _ _
  unpadded reference := by
    cases reference with
    | intro head integer =>
        exact List.forall_mem_cons.mpr ⟨head.unpadded, solid_isInteger.unpadded integer⟩

theorem solid_isShortInteger
    : Solid IsShortInteger where
  nonempty integer := solid_isInteger.nonempty integer.1
  unpadded integer := solid_isInteger.unpadded integer.1

theorem solid_isRegister
    : Solid IsRegister where
  nonempty register := solid_isReference.nonempty register.1
  unpadded register := solid_isReference.unpadded register.1

theorem matchReference_recognizes
    : Recognizes (behindLetter matchInteger) IsReference where
  toSolid := solid_isReference
  sound := by
    intro text index rest found
    cases text with
    | nil => cases found
    | cons letter text =>
        rw [behindLetter] at found
        split at found
        · next head =>
            obtain ⟨digits, rfl, integer⟩ := matchInteger_recognizes.sound found
            exact ⟨_, rfl, .intro head integer⟩
        · cases found
  complete := by
    intro word index rest reference blank
    cases reference with
    | intro head integer =>
        rw [List.cons_append, behindLetter, if_pos head]
        exact matchInteger_recognizes.complete integer blank

-----------------------------------------------------------------------------------------
-- Names of operations
-----------------------------------------------------------------------------------------

def IsName (word : List Char) (operation : Operation) : Prop :=
  word = operation.name.toList

/-- What is left behind a name. The engine is assumed to let no character follow that could make the
name longer: a letter, a digit, an underscore or a dollar sign.
-/
def matchName (name text : List Char) : Option (List Char) :=
  (text.dropPrefix? name).filter fun rest => !rest.head?.any isNameChar

/-- The first operation, in the order of their codes, whose name is found: alternatives are tried in
their order.
-/
def matchOperation : Element Operation := fun text =>
  Operation.all.findSome? fun operation =>
    (matchName operation.name.toList text).map fun rest => (operation, rest)

theorem isNameChar_of_name {operation : Operation} {word : List Char}
    (name : IsName word operation)
    : ∀ c ∈ word, isNameChar c = true := by
  intro c member
  rw [name] at member
  have letter := List.all_eq_true.mp operation.name_letters.2 c member
  rw [isNameChar, Char.isAlphanum, letter, Bool.true_or, Bool.true_or, Bool.true_or]

theorem solid_isName
    : Solid IsName where
  nonempty {word operation} name := by
    rw [name]
    exact operation.name_letters.1
  unpadded name c member := unpadded_of_isNameChar (isNameChar_of_name name c member)

theorem IsName.unique {word : List Char} {first second : Operation} (hfirst : IsName word first)
    (hsecond : IsName word second)
    : first = second := by
  have same : first.name = second.name := String.toList_inj.mp (hfirst.symm.trans hsecond)
  apply Option.some.inj
  rw [← Operation.ofName?_name first, same, Operation.ofName?_name]

theorem matchName_eq_some_iff {name text rest : List Char}
    : matchName name text = some rest
      ↔ text = name ++ rest ∧ ∀ c ∈ rest.head?, isNameChar c = false := by
  have ends : (!rest.head?.any isNameChar) = true ↔ ∀ c ∈ rest.head?, isNameChar c = false := by
    cases rest <;> simp
  rw [matchName, Option.filter_eq_some_iff, List.dropPrefix?_eq_some_iff, ends]
  simp only [beq_iff_eq, exists_eq_right]

/-- The order of the operations does not matter. Since a name ends where its characters do, there is
only one operation whose name can be found.
-/
theorem matchOperation_eq_some_iff {text rest : List Char} {operation : Operation}
    : matchOperation text = some (operation, rest)
      ↔ matchName operation.name.toList text = some rest := by
  have sound {operation : Operation} {rest : List Char}
      (found : matchOperation text = some (operation, rest))
      : matchName operation.name.toList text = some rest := by
    obtain ⟨other, _, tried⟩ := List.exists_of_findSome?_eq_some found
    obtain ⟨_, named, same⟩ := Option.map_eq_some_iff.mp tried
    obtain ⟨rfl, rfl⟩ := Prod.mk.inj same
    exact named
  refine ⟨sound, fun named => ?_⟩
  have some : (matchOperation text).isSome := by
    rw [matchOperation, List.findSome?_isSome_iff]
    exact ⟨operation, by cases operation <;> decide, by rw [named]; rfl⟩
  obtain ⟨⟨other, behind⟩, found⟩ := Option.isSome_iff_exists.mp some
  obtain ⟨cut, ends⟩ := matchName_eq_some_iff.mp named
  obtain ⟨cut', ends'⟩ := matchName_eq_some_iff.mp (sound found)
  obtain ⟨taken, left⟩ := takeWhile_run (isNameChar_of_name (rfl : IsName _ operation)) ends
  obtain ⟨taken', left'⟩ := takeWhile_run (isNameChar_of_name (rfl : IsName _ other)) ends'
  rw [← cut] at taken left
  rw [← cut'] at taken' left'
  obtain rfl : other = operation := IsName.unique taken' taken
  rw [found, ← left, ← left']

theorem matchOperation_recognizes
    : Recognizes matchOperation IsName where
  toSolid := solid_isName
  sound := by
    intro text operation rest found
    exact ⟨_, (matchName_eq_some_iff.mp (matchOperation_eq_some_iff.mp found)).1, rfl⟩
  complete := by
    rintro word operation rest rfl blank
    exact matchOperation_eq_some_iff.mpr
      (matchName_eq_some_iff.mpr ⟨rfl, ends_of_blank unpadded_of_isNameChar blank⟩)

end RegisterMachine.Assembly
