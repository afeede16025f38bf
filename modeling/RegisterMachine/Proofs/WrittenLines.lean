import RegisterMachine.Assembly.Source
import RegisterMachine.Proofs.DecimalIntegers
import RegisterMachine.Proofs.SourceLines
import RegisterMachine.Proofs.Tokens

/-! Lines written from visible tokens with single spaces between them.
Such a line has nothing to trim, and a text of such lines splits into them again.
-/

namespace RegisterMachine

namespace Text

/-- The characters of ASCII with an appearance of their own, without the comma. -/
def IsVisible (c : Char) : Prop :=
  32 < c.toNat ∧ c.toNat < 127 ∧ c ≠ ','

theorem IsVisible.not_separator {c : Char} (h : IsVisible c)
    : Assembly.isSeparator c = false := by
  rw [Bool.eq_false_iff]
  intro separator
  obtain ⟨low, _, comma⟩ := h
  rw [Assembly.isSeparator_iff] at separator
  simp only [List.mem_cons, List.not_mem_nil, or_false] at separator
  rcases separator with rfl | rfl | rfl | rfl | rfl
  · exact absurd low (by decide)
  · exact absurd low (by decide)
  · exact absurd low (by decide)
  · exact absurd low (by decide)
  · exact comma rfl

theorem IsVisible.not_blank {c : Char} (h : IsVisible c)
    : isBlank c = false := by
  obtain ⟨low, high, _⟩ := h
  simp only [isBlank, Bool.or_eq_false_iff, Bool.and_eq_false_iff, decide_eq_false_iff_not,
    beq_eq_false_iff_ne]
  omega

theorem visible_of_isAlpha {c : Char} (letter : c.isAlpha = true)
    : IsVisible c := by
  have range : 65 ≤ c.toNat ∧ c.toNat ≤ 122 := by
    simp only [Char.isAlpha, Char.isUpper, Char.isLower, Bool.or_eq_true, Bool.and_eq_true,
      decide_eq_true_eq, ge_iff_le, UInt32.le_iff_toNat_le] at letter
    rcases letter with upper | lower
    · exact ⟨upper.1, Nat.le_trans upper.2 (by decide)⟩
    · exact ⟨Nat.le_trans (by decide) lower.1, lower.2⟩
  refine ⟨by omega, by omega, ?_⟩
  intro comma
  subst comma
  cases letter

theorem not_lineTerminator {c : Char} (h : c = ' ' ∨ IsVisible c)
    : isLineTerminator c = false := by
  have range : 32 ≤ c.toNat ∧ c.toNat < 127 := by
    rcases h with rfl | ⟨low, high, _⟩
    · decide
    · omega
  simp only [isLineTerminator, Bool.or_eq_false_iff, Bool.and_eq_false_iff,
    decide_eq_false_iff_not, beq_eq_false_iff_ne]
  omega

/-- Every character of a joined list is the joint or belongs to a member, by induction on the list.
-/
theorem mem_intercalate {joint c : Char} {stretches : List (List Char)}
    (member : c ∈ [joint].intercalate stretches)
    : c = joint ∨ ∃ stretch ∈ stretches, c ∈ stretch := by
  induction stretches with
  | nil => simp at member
  | cons stretch rest ih =>
      cases rest with
      | nil => exact Or.inr ⟨stretch, by simp, by simpa using member⟩
      | cons next rest =>
          rw [List.intercalate_cons_cons] at member
          rcases List.mem_append.mp member with member | later
          · rcases List.mem_append.mp member with here | same
            · exact Or.inr ⟨stretch, List.mem_cons_self, here⟩
            · exact Or.inl (List.mem_singleton.mp same)
          · rcases ih later with same | ⟨other, found, inside⟩
            · exact Or.inl same
            · exact Or.inr ⟨other, List.mem_cons_of_mem stretch found, inside⟩

/-- A joined list begins like its first member. -/
theorem head?_intercalate (joint : Char) {stretch : List Char} (nonempty : stretch ≠ [])
    (rest : List (List Char))
    : ([joint].intercalate (stretch :: rest)).head? = stretch.head? := by
  cases rest with
  | nil => simp
  | cons next rest =>
      rw [List.intercalate_cons_cons, List.append_assoc, List.head?_append_of_ne_nil _ nonempty]

/-- A joined list ends like one of its members, by induction on the list. -/
theorem getLast?_intercalate {joint : Char} {stretches : List (List Char)}
    (nonempty : ∀ stretch ∈ stretches, stretch ≠ []) {c : Char}
    (last : c ∈ ([joint].intercalate stretches).getLast?)
    : ∃ stretch ∈ stretches, c ∈ stretch := by
  induction stretches with
  | nil => simp at last
  | cons stretch rest ih =>
      cases rest with
      | nil => exact ⟨stretch, by simp, by simpa using List.mem_of_mem_getLast? last⟩
      | cons next rest =>
          -- The last character is one of the rest, because the rest is not empty.
          have later : [joint].intercalate (next :: rest) ≠ [] := by
            intro empty
            have filled : next ≠ [] := nonempty next (by simp)
            have same := head?_intercalate joint filled rest
            rw [empty] at same
            exact filled (List.head?_eq_none_iff.mp same.symm)
          rw [List.intercalate_cons_cons, List.getLast?_append_of_ne_nil _ later] at last
          obtain ⟨other, found, inside⟩ :=
            ih (fun other member => nonempty other (List.mem_cons_of_mem stretch member)) last
          exact ⟨other, List.mem_cons_of_mem stretch found, inside⟩

/-- Lines without terminators are found again in the text that they make, by induction on the
lines.
-/
theorem splitLines_unlines {lines : List String}
    (h : ∀ line ∈ lines, ∀ c ∈ line.toList, isLineTerminator c = false)
    : splitLines (unlines lines).toList = lines.map String.toList := by
  rw [toList_unlines]
  induction lines with
  | nil => rfl
  | cons line lines ih =>
      obtain ⟨here, rest⟩ := List.forall_mem_cons.mp h
      have unbroken : ∀ c ∈ line.toList, c ∉ lineTerminators := by
        intro c member terminator
        rw [← isLineTerminator_iff, here c member] at terminator
        cases terminator
      have feed {more : List Char} : EndsLine ['\n'] more := .single (by decide) nofun
      rw [List.flatMap_cons, List.append_assoc, splitLines_line unbroken feed, ih rest,
        List.map_cons]

end Text

namespace Assembly

theorem decimal_visible (value : Int)
    : ∀ c ∈ (decimal value).toList, Text.IsVisible c := by
  have digits : ∀ c ∈ Digits.ofNat 10 value.natAbs, Text.IsVisible c := by
    intro c member
    have digit := (isNumber_ofNat value.natAbs).1.2 c member
    simp only [Char.isDigit, Bool.and_eq_true, decide_eq_true_eq, ge_iff_le,
      UInt32.le_iff_toNat_le] at digit
    refine ⟨Nat.lt_of_lt_of_le (by decide) digit.1, Nat.lt_of_le_of_lt digit.2 (by decide), ?_⟩
    intro comma
    subst comma
    exact absurd digit.1 (by decide)
  intro c member
  simp only [decimal, String.toList_ofList] at member
  split at member
  · rcases List.mem_cons.mp member with rfl | member
    · exact ⟨by decide, by decide, by decide⟩
    · exact digits c member
  · exact digits c member

end Assembly

end RegisterMachine
