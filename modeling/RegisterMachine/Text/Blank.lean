/-! Classes of characters, and trimming.
A text is trimmed at both ends, and its inner blanks stay.
-/

namespace RegisterMachine.Text

/-- A class of characters: ranges of code points, both ends included. -/
abbrev Ranges := List (Nat × Nat)

/-- A character belongs to a class when its code point lies in one of the ranges. -/
def Ranges.contains (table : Ranges) (c : Char) : Bool :=
  table.any fun range => range.1 ≤ c.toNat && c.toNat ≤ range.2

/-- Blanks are the characters with white-space meaning: the ASCII controls from tab to
carriage return and from the file separator up to the space, and the blanks of other blocks. -/
def isBlank (c : Char) : Bool :=
  let n := c.toNat
  (0x09 ≤ n && n ≤ 0x0d) || (0x1c ≤ n && n ≤ 0x20) || n == 0x85 || n == 0xa0 || n == 0x1680
    || (0x2000 ≤ n && n ≤ 0x200a) || n == 0x2028 || n == 0x2029 || n == 0x202f || n == 0x205f
    || n == 0x3000

/-- Removes the longest run of characters of a class at each end of a text. -/
def trim (drop : Char → Bool) (text : List Char) : List Char :=
  ((text.dropWhile drop).reverse.dropWhile drop).reverse

/-- Nothing is removed from a text that begins and ends with characters outside the class. -/
theorem trim_eq_self {drop : Char → Bool} {text : List Char}
    (hfirst : ∀ c ∈ text.head?, drop c = false) (hlast : ∀ c ∈ text.getLast?, drop c = false)
    : trim drop text = text := by
  have hkeep (kept : List Char) (h : ∀ c ∈ kept.head?, drop c = false)
      : kept.dropWhile drop = kept := by
    cases kept with
    | nil => rfl
    | cons c rest => simp [h c rfl]
  have hback : ∀ c ∈ text.reverse.head?, drop c = false := by
    simpa only [List.head?_reverse] using hlast
  rw [trim, hkeep text hfirst, hkeep text.reverse hback, List.reverse_reverse]

end RegisterMachine.Text
