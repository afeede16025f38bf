import RegisterMachine.Proofs.LineGrammar
import RegisterMachine.Proofs.OperandTokens

/-! Texts that hold a single word with padding around it.
A word has no padding inside, so that it is what trimming leaves of its text, and an element of the
grammar finds it as well: blanks are skipped around it, and tabs are expanded in advance.
-/

namespace RegisterMachine.Assembly

open Text

-----------------------------------------------------------------------------------------
-- Padding
-----------------------------------------------------------------------------------------

/-- The characters that may surround a word. -/
def padding : List Char :=
  [' ', '\t', '\r', '\n']

/-- A stretch of padding, which may be empty. -/
def IsMargin (stretch : List Char) : Prop :=
  ∀ c ∈ stretch, c ∈ padding

/-- A text is a word with margins on both sides of it. -/
def IsPadded (text : String) (word : List Char) : Prop :=
  ∃ before after, text.toList = before ++ word ++ after ∧ IsMargin before ∧ IsMargin after

theorem isPadding_iff (c : Char)
    : isPadding c = true ↔ c ∈ padding := by
  simp only [isPadding, padding, Bool.or_eq_true, beq_iff_eq, List.mem_cons, List.not_mem_nil,
    or_false, or_assoc]

theorem isMargin_iff {stretch : List Char}
    : IsMargin stretch ↔ ∀ c ∈ stretch, isPadding c = true := by
  simp only [IsMargin, isPadding_iff]

theorem isMargin_iff_skipBlanks {stretch : List Char}
    : IsMargin stretch ↔ skipBlanks stretch = [] := by
  rw [isMargin_iff, skipBlanks, List.dropWhile_eq_nil_iff]

/-- Skipping blanks leaves off a margin, and nothing more. -/
theorem exists_margin (text : List Char)
    : ∃ before,
        text = before ++ skipBlanks text
        ∧ IsMargin before
        ∧ ∀ c ∈ (skipBlanks text).head?, isPadding c = false := by
  obtain ⟨before, cut, blanks, first⟩ := exists_append_dropWhile isPadding text
  exact ⟨before, cut, isMargin_iff.mpr blanks, first⟩

/-- More padding around a text is trimmed away together with its own. -/
theorem unpad_append {before after : String} (margin : IsMargin before.toList)
    (margin' : IsMargin after.toList) (text : String)
    : unpad (before ++ text ++ after) = unpad text := by
  obtain ⟨front, back, whole, dropped, dropped', first, last⟩ :=
    trim_surrounded isPadding text.toList
  rw [← unpad] at whole first last
  rw [isMargin_iff] at margin margin'
  have around
      : (before ++ text ++ after).toList
        = (before.toList ++ front) ++ unpad text ++ (back ++ after.toList) := by
    rw [String.toList_append, String.toList_append, whole]
    simp only [List.append_assoc]
  rw [unpad, around]
  exact trim_append (List.forall_mem_append.mpr ⟨margin, dropped⟩)
    (List.forall_mem_append.mpr ⟨dropped', margin'⟩) first last

/-- A word without padding inside is what trimming leaves. -/
theorem isPadded_iff {text : String} {word : List Char}
    (unpadded : ∀ c ∈ word, isPadding c = false)
    : IsPadded text word ↔ unpad text = word := by
  constructor
  · intro h
    obtain ⟨before, after, whole, margin, margin'⟩ := h
    rw [unpad, whole]
    exact trim_append (isMargin_iff.mp margin) (isMargin_iff.mp margin')
      (fun c head => unpadded c (List.mem_of_mem_head? head))
      (fun c last => unpadded c (List.mem_of_mem_getLast? last))
  · intro h
    subst h
    obtain ⟨before, after, whole, dropped, dropped', _, _⟩ := trim_surrounded isPadding text.toList
    exact ⟨before, after, whole, isMargin_iff.mpr dropped, isMargin_iff.mpr dropped'⟩

-----------------------------------------------------------------------------------------
-- Words
-----------------------------------------------------------------------------------------

section
variable {α : Type} {grammar : List Char → α → Prop} {text : String} {value : α}

/-- A text holds a word of a grammar, with the value of the word. -/
def Holds (grammar : List Char → α → Prop) (text : String) (value : α) : Prop :=
  ∃ word, IsPadded text word ∧ grammar word value

/-- The words of a grammar can be told from the padding around them. -/
structure Solid (grammar : List Char → α → Prop) : Prop where
  nonempty : ∀ {word value}, grammar word value → word ≠ []
  unpadded : ∀ {word value}, grammar word value → ∀ c ∈ word, isPadding c = false

theorem Solid.holds_iff (solid : Solid grammar)
    : Holds grammar text value ↔ grammar (unpad text) value := by
  constructor
  · intro h
    obtain ⟨word, padded, inside⟩ := h
    rwa [(isPadded_iff (solid.unpadded inside)).mp padded]
  · intro inside
    exact ⟨_, (isPadded_iff (solid.unpadded inside)).mpr rfl, inside⟩

/-- A reader accepts a text that holds a word of a grammar, with the value of the word. A text that
begins with too many digits, whatever follows them, fails in that conversion; any other is rejected
for a cause of one kind. More margins never change what is accepted.
-/
structure ReadsExactly (read : String → Except InstructionError α)
    (grammar : List Char → α → Prop) (long : String → Nat → Prop) (kind : RejectionKind)
    (text : String)
    : Prop where
  accepts : ∀ value, read text = .ok value ↔ Holds grammar text value
  rejects
    : (∀ value, ¬ Holds grammar text value)
      → (∀ count, ¬ long text count)
      → ∃ error, read text = .error error ∧ error.kind = kind
  converts : ∀ count, long text count ↔ read text = .error (.unconverted (.reading count))
  margins
    : ∀ before after value,
        IsMargin before.toList
        → IsMargin after.toList
        → (read (before ++ text ++ after) = .ok value ↔ read text = .ok value)

/-- It is enough to look at trimmed texts. -/
theorem Solid.readsExactly (solid : Solid grammar) {read : String → Except InstructionError α}
    {long : String → Nat → Prop} {kind : RejectionKind}
    (accepts : ∀ text value, read text = .ok value ↔ grammar (unpad text) value)
    (causes
      : ∀ text error,
          read text = .error error
          → error.kind = kind ∨ ∃ count, error = .unconverted (.reading count))
    (converts
      : ∀ text count, long text count ↔ read text = .error (.unconverted (.reading count)))
    (text : String)
    : ReadsExactly read grammar long kind text where
  accepts value := (accepts text value).trans solid.holds_iff.symm
  rejects := by
    intro refused short
    cases answer : read text with
    | ok value => exact (refused value (solid.holds_iff.mpr ((accepts text value).mp answer))).elim
    | error error =>
        refine ⟨error, rfl, (causes text error answer).resolve_right ?_⟩
        rintro ⟨count, rfl⟩
        exact short count ((converts text count).mpr answer)
  converts := converts text
  margins := by
    intro before after value margin margin'
    rw [accepts, accepts, unpad_append margin margin']

end

-----------------------------------------------------------------------------------------
-- Tabs
-----------------------------------------------------------------------------------------

theorem expandTabs_eq_nil_iff {column : Nat} {text : List Char}
    : expandTabs column text = [] ↔ text = [] := by
  cases text with
  | nil => exact iff_of_true rfl rfl
  | cons c text =>
      refine iff_of_false ?_ (List.cons_ne_nil _ _)
      by_cases tab : c = '\t'
      · obtain ⟨_, _, expanded⟩ := expandTabs_tab column text
        rw [tab, expanded]
        exact List.cons_ne_nil _ _
      · obtain ⟨_, expanded⟩ := expandTabs_cons tab column text
        rw [expanded]
        exact List.cons_ne_nil _ _

/-- What a text begins with can be dropped before or after its tabs are expanded, if tabs and spaces
are dropped alike. This goes by induction on the text.
-/
theorem dropWhile_expandTabs (drop : Char → Bool) (alike : drop '\t' = drop ' ') (column : Nat)
    (text : List Char)
    : ∃ later,
        (expandTabs column text).dropWhile drop = expandTabs later (text.dropWhile drop) := by
  induction text generalizing column with
  | nil => exact ⟨column, rfl⟩
  | cons c text ih =>
      by_cases dropped : drop c = true
      · rw [List.dropWhile_cons_of_pos dropped]
        by_cases tab : c = '\t'
        · obtain ⟨width, later, expanded⟩ := expandTabs_tab column text
          have space : drop ' ' = true := by rwa [← alike, ← tab]
          rw [tab, expanded, List.dropWhile_cons_of_pos space,
            List.dropWhile_append_of_pos (List.forall_mem_replicate.mpr (Or.inr space))]
          exact ih later
        · obtain ⟨later, expanded⟩ := expandTabs_cons tab column text
          rw [expanded, List.dropWhile_cons_of_pos dropped]
          exact ih later
      · refine ⟨column, ?_⟩
        rw [List.dropWhile_cons_of_neg dropped]
        by_cases tab : c = '\t'
        · obtain ⟨_, _, expanded⟩ := expandTabs_tab column text
          rw [tab, expanded, List.dropWhile_cons_of_neg (by rwa [← alike, ← tab])]
        · obtain ⟨_, expanded⟩ := expandTabs_cons tab column text
          rw [expanded, List.dropWhile_cons_of_neg dropped]

theorem skipBlanks_expandTabs (column : Nat) (text : List Char)
    : ∃ later, skipBlanks (expandTabs column text) = expandTabs later (skipBlanks text) :=
  dropWhile_expandTabs isPadding (by decide) column text

theorem isMargin_expandTabs {column : Nat} {text : List Char}
    : IsMargin (expandTabs column text) ↔ IsMargin text := by
  obtain ⟨later, exchanged⟩ := skipBlanks_expandTabs column text
  rw [isMargin_iff_skipBlanks, isMargin_iff_skipBlanks, exchanged, expandTabs_eq_nil_iff]

theorem ne_tab {c : Char} (unpadded : isPadding c = false)
    : c ≠ '\t' := by
  rintro rfl
  cases unpadded

/-- A stretch without padding stays as it is, by induction on the stretch. -/
theorem expandTabs_append {stretch : List Char} (unpadded : ∀ c ∈ stretch, isPadding c = false)
    (column : Nat) (text : List Char)
    : ∃ later, expandTabs column (stretch ++ text) = stretch ++ expandTabs later text := by
  induction stretch generalizing column with
  | nil => exact ⟨column, rfl⟩
  | cons c stretch ih =>
      obtain ⟨here, unpadded⟩ := List.forall_mem_cons.mp unpadded
      obtain ⟨next, first⟩ := expandTabs_cons (ne_tab here) column (stretch ++ text)
      obtain ⟨later, whole⟩ := ih unpadded next
      exact ⟨later, by rw [List.cons_append, first, whole, List.cons_append]⟩

/-- A stretch without padding was there before, by induction on the stretch. -/
theorem exists_of_expandTabs_eq_append {stretch rest text : List Char} {column : Nat}
    (unpadded : ∀ c ∈ stretch, isPadding c = false)
    (expanded : expandTabs column text = stretch ++ rest)
    : ∃ later behind, text = stretch ++ behind ∧ expandTabs later behind = rest := by
  induction stretch generalizing column text with
  | nil => exact ⟨column, text, rfl, expanded⟩
  | cons c stretch ih =>
      obtain ⟨here, beyond⟩ := List.forall_mem_cons.mp unpadded
      cases text with
      | nil => cases expanded
      | cons d text =>
          by_cases tab : d = '\t'
          · obtain ⟨_, _, spaces⟩ := expandTabs_tab column text
            rw [tab, spaces] at expanded
            obtain ⟨rfl, _⟩ := List.cons.inj expanded
            cases here
          · obtain ⟨next, first⟩ := expandTabs_cons tab column text
            rw [first] at expanded
            obtain ⟨rfl, tail⟩ := List.cons.inj expanded
            obtain ⟨later, behind, rfl, found⟩ := ih beyond tail
            exact ⟨later, behind, rfl, found⟩

-----------------------------------------------------------------------------------------
-- Elements
-----------------------------------------------------------------------------------------

section
variable {α : Type}

/-- What is found at the start of a text: a value, and the text that is left. -/
abbrev Element (α : Type) := List Char → Option (α × List Char)

/-- The value of an element that takes up a whole text but for the blanks around it. The engine is
assumed to expand tabs first, to skip blanks in front of the element, and to skip them again before
it looks for the end of the text.
-/
def parseWhole? (element : Element α) (text : String) : Option α :=
  match element (skipBlanks (expandTabs 0 text.toList)) with
  | some (value, rest) => if skipBlanks rest = [] then some value else none
  | none => none

/-- An element finds the words of a grammar and nothing else. A word is found if it ends at a blank
or at the end of the text; in front of anything else the element may go on.
-/
structure Recognizes (element : Element α) (grammar : List Char → α → Prop) : Prop
    extends Solid grammar where
  sound
    : ∀ {text value rest},
        element text = some (value, rest)
        → ∃ word, text = word ++ rest ∧ grammar word value
  complete
    : ∀ {word value rest},
        grammar word value
        → (∀ c ∈ rest.head?, isPadding c = true)
        → element (word ++ rest) = some (value, rest)

theorem parseWhole?_eq_some_iff {element : Element α} {text : String} {value : α}
    : parseWhole? element text = some value
      ↔ ∃ rest,
          element (skipBlanks (expandTabs 0 text.toList)) = some (value, rest)
          ∧ IsMargin rest := by
  simp only [isMargin_iff_skipBlanks, parseWhole?]
  cases element (skipBlanks (expandTabs 0 text.toList)) with
  | none => simp
  | some found =>
      obtain ⟨other, rest⟩ := found
      simp [and_comm]

namespace Recognizes

variable {element : Element α} {grammar : List Char → α → Prop} {text : String}

/-- The texts that hold a word are those that the element takes up. Tabs need not be considered,
since a word has none and a margin stays one when they are expanded.
-/
theorem parseWhole?_iff (recognizes : Recognizes element grammar) {value : α}
    : parseWhole? element text = some value ↔ Holds grammar text value := by
  obtain ⟨column, exchanged⟩ := skipBlanks_expandTabs 0 text.toList
  rw [parseWhole?_eq_some_iff, exchanged]
  constructor
  · intro h
    obtain ⟨rest, found, margin⟩ := h
    obtain ⟨word, cut, inside⟩ := recognizes.sound found
    obtain ⟨later, behind, shown, rfl⟩ :=
      exists_of_expandTabs_eq_append (recognizes.unpadded inside) cut
    obtain ⟨before, whole, margin', _⟩ := exists_margin text.toList
    refine ⟨word, ⟨before, behind, ?_, margin', isMargin_expandTabs.mp margin⟩, inside⟩
    rw [List.append_assoc, ← shown, ← whole]
  · intro h
    obtain ⟨word, ⟨before, after, whole, margin, margin'⟩, inside⟩ := h
    have shown : skipBlanks text.toList = word ++ after := by
      obtain ⟨c, stretch, rfl⟩ := List.exists_cons_of_ne_nil (recognizes.nonempty inside)
      have first : ¬ isPadding c = true := by
        rw [recognizes.unpadded inside c List.mem_cons_self]
        exact Bool.false_ne_true
      rw [skipBlanks, whole, List.append_assoc, dropWhile_append_of_all (isMargin_iff.mp margin),
        List.cons_append, List.dropWhile_cons_of_neg first]
    obtain ⟨later, expanded⟩ := expandTabs_append (recognizes.unpadded inside) column after
    rw [shown, expanded]
    have behind : IsMargin (expandTabs later after) := isMargin_expandTabs.mpr margin'
    refine ⟨_, recognizes.complete inside fun c head => ?_, behind⟩
    exact isMargin_iff.mp behind c (List.mem_of_mem_head? head)

/-- An element that takes up a whole text agrees with whatever reads the trimmed text. -/
theorem parseWhole?_eq (recognizes : Recognizes element grammar) {found : Option α}
    (reads : ∀ value, found = some value ↔ grammar (unpad text) value)
    : parseWhole? element text = found := by
  refine Option.ext fun value => ?_
  rw [recognizes.parseWhole?_iff, recognizes.holds_iff]
  exact (reads value).symm

end Recognizes

end

end RegisterMachine.Assembly
