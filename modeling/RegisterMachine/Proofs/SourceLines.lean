import Mathlib
import RegisterMachine.Text.Blank
import RegisterMachine.Text.Lines

/-! The lines of a text, and a line without the blanks around it, described without a scan.
Neither the split into lines nor the removal of blanks leaves a choice.
-/

namespace RegisterMachine

namespace Text

-----------------------------------------------------------------------------------------
-- Character classes
-----------------------------------------------------------------------------------------

/-- The characters that end a line. -/
def lineTerminators : List Char :=
  ['\n', '\x0b', '\x0c', '\r', '\x1c', '\x1d', '\x1e', '\u0085', '\u2028', '\u2029']

/-- The characters that do not show: the line terminators, and all other blanks. -/
def blanks : List Char :=
  lineTerminators
  ++ [ '\t', '\x1f', ' ', '\u00a0', '\u1680', '\u2000', '\u2001', '\u2002', '\u2003', '\u2004',
      '\u2005', '\u2006', '\u2007', '\u2008', '\u2009', '\u200a', '\u202f', '\u205f', '\u3000' ]

/-- A character is in a list exactly when its code point is among those of the list. -/
theorem mem_iff_toNat_mem {c : Char} {list : List Char}
    : c ∈ list ↔ c.toNat ∈ list.map Char.toNat := by
  rw [List.mem_map]
  constructor
  · intro member
    exact ⟨c, member, rfl⟩
  · intro h
    obtain ⟨other, member, same⟩ := h
    rwa [← Char.ext (UInt32.toNat_inj.mp same)]

theorem isLineTerminator_iff (c : Char)
    : isLineTerminator c = true ↔ c ∈ lineTerminators := by
  have points : lineTerminators.map Char.toNat
      = [0x0a, 0x0b, 0x0c, 0x0d, 0x1c, 0x1d, 0x1e, 0x85, 0x2028, 0x2029] := by decide
  rw [mem_iff_toNat_mem, points]
  simp only [isLineTerminator, Bool.or_eq_true, Bool.and_eq_true, decide_eq_true_eq, beq_iff_eq,
    List.mem_cons, List.not_mem_nil, or_false]
  omega

theorem isBlank_iff (c : Char)
    : isBlank c = true ↔ c ∈ blanks := by
  have points : blanks.map Char.toNat
      = [ 0x0a, 0x0b, 0x0c, 0x0d, 0x1c, 0x1d, 0x1e, 0x85, 0x2028, 0x2029, 0x09, 0x1f, 0x20, 0xa0,
          0x1680, 0x2000, 0x2001, 0x2002, 0x2003, 0x2004, 0x2005, 0x2006, 0x2007, 0x2008, 0x2009,
          0x200a, 0x202f, 0x205f, 0x3000 ] := by decide
  rw [mem_iff_toNat_mem, points]
  simp only [isBlank, Bool.or_eq_true, Bool.and_eq_true, decide_eq_true_eq, beq_iff_eq,
    List.mem_cons, List.not_mem_nil, or_false]
  omega

-----------------------------------------------------------------------------------------
-- Lines
-----------------------------------------------------------------------------------------

/-- What ends a line that is followed by a rest: a carriage return with a line feed, or a single
terminator, which is no carriage return that has its line feed ahead.
-/
inductive EndsLine : (ending rest : List Char) → Prop
  | pair {rest} : EndsLine ['\r', '\n'] rest
  | single {c rest} (terminator : c ∈ lineTerminators)
    (alone : c = '\r' → ∀ more, rest ≠ '\n' :: more)
    : EndsLine [c] rest

/-- A text consists of the given lines in this order, each with an ending after it. The last line
may lack the ending, but is not empty then.
-/
inductive HasLines : List Char → List (List Char) → Prop
  | none : HasLines [] []
  | unfinished {line} (nonempty : line ≠ []) (unbroken : ∀ c ∈ line, c ∉ lineTerminators)
    : HasLines line [line]
  | line {line ending rest lines} (unbroken : ∀ c ∈ line, c ∉ lineTerminators)
    (ends : EndsLine ending rest) (later : HasLines rest lines)
    : HasLines (line ++ (ending ++ rest)) (line :: lines)

theorem splitLines_cons_terminator {c : Char} {rest : List Char} (terminator : c ∈ lineTerminators)
    (alone : c = '\r' → ∀ more, rest ≠ '\n' :: more)
    : splitLines (c :: rest) = [] :: splitLines rest := by
  rw [splitLines.eq_3 c rest (fun more hc hrest => alone hc more hrest),
    if_pos ((isLineTerminator_iff c).mpr terminator)]

/-- A character inside a line is put in front of the first line of the rest. -/
theorem splitLines_cons_unbroken {c : Char} {rest : List Char} (unbroken : c ∉ lineTerminators)
    : splitLines (c :: rest)
      = (match splitLines rest with
        | [] => [[c]]
        | line :: lines => (c :: line) :: lines) := by
  have noReturn : ∀ more, c = '\r' → rest = '\n' :: more → False := by
    rintro more rfl
    exact (unbroken (by decide)).elim
  have inside := mt (isLineTerminator_iff c).mp unbroken
  refine ((splitLines.eq_3 c rest noReturn).trans (if_neg inside)).trans ?_
  cases splitLines rest <;> rfl

theorem EndsLine.splitLines_eq {ending rest : List Char} (ends : EndsLine ending rest)
    : splitLines (ending ++ rest) = [] :: splitLines rest := by
  cases ends with
  | pair => exact splitLines.eq_2 rest
  | single terminator alone => exact splitLines_cons_terminator terminator alone

/-- An unbroken line with an ending after it is split off, by induction on the line. -/
theorem splitLines_line {line ending rest : List Char} (unbroken : ∀ c ∈ line, c ∉ lineTerminators)
    (ends : EndsLine ending rest)
    : splitLines (line ++ (ending ++ rest)) = line :: splitLines rest := by
  induction line with
  | nil => exact ends.splitLines_eq
  | cons c line ih =>
      obtain ⟨here, later⟩ := List.forall_mem_cons.mp unbroken
      rw [List.cons_append, splitLines_cons_unbroken here, ih later]

/-- An unbroken text is a line of its own, by induction on the text. -/
theorem splitLines_unfinished {line : List Char} (nonempty : line ≠ [])
    (unbroken : ∀ c ∈ line, c ∉ lineTerminators)
    : splitLines line = [line] := by
  induction line with
  | nil => exact (nonempty rfl).elim
  | cons c line ih =>
      obtain ⟨here, later⟩ := List.forall_mem_cons.mp unbroken
      rw [splitLines_cons_unbroken here]
      by_cases last : line = []
      · rw [last]
        rfl
      · rw [ih last later]

/-- A line of a text can be made longer in front. -/
theorem HasLines.cons {c : Char} {rest line : List Char} {lines : List (List Char)}
    (unbroken : c ∉ lineTerminators) (h : HasLines rest (line :: lines))
    : HasLines (c :: rest) ((c :: line) :: lines) := by
  cases h with
  | unfinished _ later =>
      exact .unfinished (List.cons_ne_nil c _) (List.forall_mem_cons.mpr ⟨unbroken, later⟩)
  | line within ends later =>
      exact .line (List.forall_mem_cons.mpr ⟨unbroken, within⟩) ends later

/-- The split of a text consists of its lines, by the cases of the split. -/
theorem hasLines_splitLines (text : List Char)
    : HasLines text (splitLines text) := by
  fun_induction splitLines text with
  | case1 => exact .none
  | case2 rest ih => exact .line (List.forall_mem_nil _) .pair ih
  | case3 c rest noPair terminator ih =>
      have separator := (isLineTerminator_iff c).mp terminator
      refine .line (List.forall_mem_nil _) (.single separator ?_) ih
      intro feed more same
      exact noPair more feed same
  | case4 c rest _ unbroken empty ih =>
      rw [empty] at ih
      cases ih with
      | none =>
          refine .unfinished (List.cons_ne_nil c []) (List.forall_mem_cons.mpr ⟨?_, by simp⟩)
          exact mt (isLineTerminator_iff c).mpr unbroken
  | case5 c rest _ unbroken line lines split ih =>
      rw [split] at ih
      exact ih.cons (mt (isLineTerminator_iff c).mpr unbroken)

/-- The lines of a text are the only ones of which it consists. -/
theorem hasLines_iff {text : List Char} {lines : List (List Char)}
    : HasLines text lines ↔ lines = splitLines text := by
  constructor
  · intro h
    induction h with
    | none => rfl
    | unfinished nonempty unbroken => exact (splitLines_unfinished nonempty unbroken).symm
    | line unbroken ends _ ih => rw [splitLines_line unbroken ends, ih]
  · intro h
    subst h
    exact hasLines_splitLines text

-----------------------------------------------------------------------------------------
-- Trimmed texts
-----------------------------------------------------------------------------------------

/-- A text is the core with blanks on both sides of it, and the core neither begins nor ends with
a blank.
-/
structure HasCore (text core : List Char) : Prop where
  surrounded
    : ∃ before after,
        text = before ++ core ++ after
        ∧ (∀ c ∈ before, c ∈ blanks)
        ∧ ∀ c ∈ after, c ∈ blanks
  first : ∀ c ∈ core.head?, c ∉ blanks
  last : ∀ c ∈ core.getLast?, c ∉ blanks

variable {drop : Char → Bool}

/-- A text is what is dropped in front of it, all of the class, and a rest that begins with a
character outside the class.
-/
theorem exists_append_dropWhile (drop : Char → Bool) (text : List Char)
    : ∃ before,
        text = before ++ text.dropWhile drop
        ∧ (∀ c ∈ before, drop c = true)
        ∧ ∀ c ∈ (text.dropWhile drop).head?, drop c = false := by
  refine ⟨text.takeWhile drop, List.takeWhile_append_dropWhile.symm, ?_, ?_⟩
  · intro c member
    exact List.mem_takeWhile_imp member
  · intro c first
    have kept := List.head?_dropWhile_not drop text
    rw [Option.mem_def.mp first] at kept
    simpa using kept

theorem dropWhile_append_of_all {before : List Char} (dropped : ∀ c ∈ before, drop c = true)
    (rest : List Char)
    : (before ++ rest).dropWhile drop = rest.dropWhile drop := by
  rw [List.dropWhile_append, List.dropWhile_eq_nil_iff.mpr dropped]
  rfl

/-- A core between dropped characters is left over, by cases on whether there is any core. -/
theorem trim_append {before core after : List Char} (dropped : ∀ c ∈ before, drop c = true)
    (dropped' : ∀ c ∈ after, drop c = true) (first : ∀ c ∈ core.head?, drop c = false)
    (last : ∀ c ∈ core.getLast?, drop c = false)
    : trim drop (before ++ core ++ after) = core := by
  rw [List.append_assoc, trim, dropWhile_append_of_all dropped]
  have back : ∀ c ∈ after.reverse, drop c = true := by
    simpa only [List.mem_reverse] using dropped'
  cases core with
  | nil => rw [List.nil_append, List.dropWhile_eq_nil_iff.mpr dropped']; rfl
  | cons c core =>
      have kept : drop c = false := first c rfl
      have whole := trim_eq_self first last
      rw [trim, List.dropWhile_cons_of_neg (by simp [kept])] at whole
      rw [List.cons_append, List.dropWhile_cons_of_neg (by simp [kept]), ← List.cons_append,
        List.reverse_append, dropWhile_append_of_all back, whole]

/-- Dropping at the front alone leaves the trimmed text with what is dropped behind it. -/
theorem exists_trim_append (drop : Char → Bool) (text : List Char)
    : ∃ after,
        text.dropWhile drop = trim drop text ++ after
        ∧ (∀ c ∈ after, drop c = true)
        ∧ ∀ c ∈ (trim drop text).getLast?, drop c = false := by
  obtain ⟨after, cut, dropped, last⟩ := exists_append_dropWhile drop (text.dropWhile drop).reverse
  refine ⟨after.reverse, ?_, ?_, ?_⟩
  · have same := congrArg List.reverse cut
    rwa [List.reverse_reverse, List.reverse_append] at same
  · simpa only [List.mem_reverse] using dropped
  · simpa only [trim, List.getLast?_reverse] using last

/-- A text is the trimmed text between dropped characters, and cannot be trimmed any further. -/
theorem trim_surrounded (drop : Char → Bool) (text : List Char)
    : ∃ before after,
        text = before ++ trim drop text ++ after
        ∧ (∀ c ∈ before, drop c = true)
        ∧ (∀ c ∈ after, drop c = true)
        ∧ (∀ c ∈ (trim drop text).head?, drop c = false)
        ∧ ∀ c ∈ (trim drop text).getLast?, drop c = false := by
  obtain ⟨before, cut, dropped, first⟩ := exists_append_dropWhile drop text
  obtain ⟨after, front, dropped', last⟩ := exists_trim_append drop text
  refine ⟨before, after, ?_, dropped, dropped', ?_, last⟩
  · rw [List.append_assoc, ← front, ← cut]
  · intro c member
    rw [front] at first
    exact first c (List.mem_head?_append_of_mem_head? member)

/-- Trimming finds the core of a text, and a text has no other core. -/
theorem hasCore_iff {text core : List Char}
    : HasCore text core ↔ core = trim isBlank text := by
  have blank (c : Char) : c ∈ blanks ↔ isBlank c = true := (isBlank_iff c).symm
  have visible (c : Char) : c ∉ blanks ↔ isBlank c = false := by
    rw [blank, Bool.not_eq_true]
  constructor
  · intro h
    obtain ⟨⟨before, after, rfl, dropped, dropped'⟩, first, last⟩ := h
    simp only [blank, Bool.not_eq_true] at dropped dropped' first last
    exact (trim_append dropped dropped' first last).symm
  · intro h
    subst h
    obtain ⟨before, after, whole, dropped, dropped', first, last⟩ := trim_surrounded isBlank text
    simp only [← blank, ← visible] at dropped dropped' first last
    exact ⟨⟨before, after, whole, dropped, dropped'⟩, first, last⟩

end Text

end RegisterMachine
