import RegisterMachine.Proofs.Tokens
import RegisterMachine.Proofs.SourceLines

/-! The grammar of a line accepts every text and finds its tokens.
A line is a repetition of tokens and commas up to the end of the text. Tabs are expanded in advance,
and blanks are skipped in front of each element, so that only blanks are left in the end.

This states what is assumed about the engine that runs the grammar: it expands tabs to stops of
eight columns; it skips blanks in front of each element and before the end; of two alternatives it
takes the first that matches; a token is as long as it can be, and a separator leaves no token; and
a repetition goes on while its element matches, and never takes anything back.
-/

namespace RegisterMachine

-----------------------------------------------------------------------------------------
-- Runs
-----------------------------------------------------------------------------------------

namespace Text

variable {isBoundary : Char → Bool}

theorem scanRuns_cons_boundary {c : Char} (h : isBoundary c = true) (text : List Char)
    : scanRuns isBoundary (c :: text) = ([], runs isBoundary text) := by
  simp only [scanRuns, runs, h, if_true]

theorem scanRuns_cons_unbroken {c : Char} (h : isBoundary c = false) (text : List Char)
    : scanRuns isBoundary (c :: text)
      = (c :: (scanRuns isBoundary text).1, (scanRuns isBoundary text).2) := by
  simp only [scanRuns, h, Bool.false_eq_true, if_false]

/-- The runs together are the text without its boundaries, by induction on the split. -/
theorem SplitsInto.flatten_eq {text : List Char} {runs : List (List Char)}
    (h : SplitsInto isBoundary text runs)
    : runs.flatten = text.filter fun c => !isBoundary c := by
  have dropped {gap : List Char} (boundaries : ∀ c ∈ gap, isBoundary c = true)
      : gap.filter (fun c => !isBoundary c) = [] := by
    rw [List.filter_eq_nil_iff]
    intro c member
    rw [boundaries c member]
    decide
  induction h with
  | blank boundaries => exact (dropped boundaries).symm
  | run boundaries _ unbroken _ _ ih =>
      rw [List.flatten_cons, ih, List.filter_append, List.filter_append, dropped boundaries,
        List.nil_append]
      congr 1
      rw [eq_comm, List.filter_eq_self]
      intro c member
      rw [unbroken c member]
      rfl

end Text

namespace Assembly

open Text

-----------------------------------------------------------------------------------------
-- Tabs
-----------------------------------------------------------------------------------------

/-- Puts spaces in the place of each tab, up to the next column that is a multiple of eight. Columns
count from the last line ending on.
-/
def expandTabs (column : Nat) : List Char → List Char
  | [] => []
  | c :: text =>
      if c = '\t' then
        List.replicate (8 - column % 8) ' ' ++ expandTabs (column + (8 - column % 8)) text
      else
        c :: expandTabs (if c = '\n' ∨ c = '\r' then 0 else column + 1) text

/-- There is at least one space in the place of a tab. -/
theorem expandTabs_tab (column : Nat) (text : List Char)
    : ∃ width later,
        expandTabs column ('\t' :: text)
        = ' ' :: (List.replicate width ' ' ++ expandTabs later text) := by
  refine ⟨7 - column % 8, column + (8 - column % 8), ?_⟩
  have some : 8 - column % 8 = (7 - column % 8) + 1 := by omega
  rw [expandTabs, if_pos rfl, ← List.cons_append, ← List.replicate_succ, ← some]

theorem expandTabs_cons {c : Char} (noTab : c ≠ '\t') (column : Nat) (text : List Char)
    : ∃ later, expandTabs column (c :: text) = c :: expandTabs later text :=
  ⟨_, by rw [expandTabs, if_neg noTab]⟩

/-- The spaces in the place of a tab separate tokens as well. This goes by induction on the text. -/
theorem scanRuns_expandTabs (column : Nat) (text : List Char)
    : scanRuns isSeparator (expandTabs column text) = scanRuns isSeparator text := by
  induction text generalizing column with
  | nil => rfl
  | cons c text ih =>
      by_cases tab : c = '\t'
      · obtain ⟨width, later, expanded⟩ := expandTabs_tab column text
        have spaces : ∀ d ∈ List.replicate width ' ', isSeparator d = true :=
          List.forall_mem_replicate.mpr (Or.inr (by decide))
        rw [tab, expanded, scanRuns_cons_boundary (by decide), runs_append_boundaries spaces,
          scanRuns_cons_boundary (by decide), runs, ih]
        rfl
      · obtain ⟨later, expanded⟩ := expandTabs_cons tab column text
        rw [expanded]
        cases hc : isSeparator c with
        | true =>
            rw [scanRuns_cons_boundary hc, scanRuns_cons_boundary hc, runs, ih]
            rfl
        | false => rw [scanRuns_cons_unbroken hc, scanRuns_cons_unbroken hc, ih]

-----------------------------------------------------------------------------------------
-- Elements
-----------------------------------------------------------------------------------------

/-- The tokens that an element of the grammar finds at the start of a text, and what it leaves. -/
structure Piece where
  tokens : List (List Char)
  rest : List Char

def skipBlanks (text : List Char) : List Char :=
  text.dropWhile isPadding

theorem separators_of_blanks {gap : List Char} (blanks : ∀ c ∈ gap, isPadding c = true)
    : ∀ c ∈ gap, isSeparator c = true := by
  intro c member
  rw [isSeparator, blanks c member, Bool.true_or]

/-- The longest stretch without a separator is a token, unless it is empty. -/
def matchToken (text : List Char) : Option Piece :=
  let token := text.takeWhile fun c => !isSeparator c
  if token = [] then none else some ⟨[token], text.dropWhile fun c => !isSeparator c⟩

/-- A comma is dropped. -/
def matchComma : List Char → Option Piece
  | ',' :: rest => some ⟨[], rest⟩
  | _ => none

/-- A token or else a comma. Both skip blanks. -/
def matchItem (text : List Char) : Option Piece :=
  (matchToken (skipBlanks text)).or (matchComma (skipBlanks text))

/-- How a text can start: there is nothing but blanks, or there is a token or a comma behind them.
A token is followed by a separator, unless it is the end of the text.
-/
inductive StartsWith (text : List Char) : Option Piece → Prop
  | blank (blanks : ∀ c ∈ text, isPadding c = true) : StartsWith text none
  | token {gap token rest} (cut : text = gap ++ (token ++ rest))
    (blanks : ∀ c ∈ gap, isPadding c = true) (nonempty : token ≠ [])
    (unbroken : ∀ c ∈ token, isSeparator c = false)
    (longest : ∀ c ∈ rest.head?, isSeparator c = true)
    : StartsWith text (some ⟨[token], rest⟩)
  | comma {gap rest} (cut : text = gap ++ ',' :: rest) (blanks : ∀ c ∈ gap, isPadding c = true)
    : StartsWith text (some ⟨[], rest⟩)

/-- A character that is no separator begins a token, which ends in front of the next separator. -/
theorem exists_token {c : Char} (h : isSeparator c = false) (text : List Char)
    : ∃ token rest,
        matchToken (c :: text) = some ⟨[token], rest⟩
        ∧ c :: text = token ++ rest
        ∧ token ≠ []
        ∧ (∀ d ∈ token, isSeparator d = false)
        ∧ ∀ d ∈ rest.head?, isSeparator d = true := by
  have begun : (c :: text).takeWhile (fun d => !isSeparator d) ≠ [] := by
    rw [List.takeWhile_cons_of_pos (by rw [h]; rfl)]
    exact List.cons_ne_nil _ _
  refine ⟨_, _, if_neg begun, List.takeWhile_append_dropWhile.symm, begun, fun d member => ?_,
    fun d head => ?_⟩
  · simpa using List.mem_takeWhile_imp member
  · have stopped := List.head?_dropWhile_not (fun d => !isSeparator d) (c :: text)
    rw [Option.mem_def.mp head] at stopped
    simpa using stopped

/-- Whatever comes behind the blanks is a comma or begins a token. -/
theorem matchItem_startsWith (text : List Char)
    : StartsWith text (matchItem text) := by
  obtain ⟨gap, cut, blanks, first⟩ := exists_append_dropWhile isPadding text
  rw [matchItem, skipBlanks]
  cases behind : text.dropWhile isPadding with
  | nil =>
      rw [behind, List.append_nil] at cut
      exact .blank (cut ▸ blanks)
  | cons c rest =>
      rw [behind] at cut first
      have visible : isPadding c = false := first c rfl
      cases separates : isSeparator c with
      | true =>
          have comma : c = ',' := by
            rwa [isSeparator, visible, Bool.false_or, beq_iff_eq] at separates
          subst comma
          exact .comma cut blanks
      | false =>
          obtain ⟨token, left, found, split, nonempty, unbroken, longest⟩ :=
            exists_token separates rest
          rw [found]
          exact .token (split ▸ cut) blanks nonempty unbroken longest

/-- An element takes something away, so that its repetition ends. -/
theorem StartsWith.shrinks {text rest : List Char} {tokens : List (List Char)}
    (h : StartsWith text (some ⟨tokens, rest⟩))
    : rest.length < text.length := by
  cases h with
  | token cut _ nonempty =>
      have positive := List.length_pos_of_ne_nil nonempty
      rw [cut, List.length_append, List.length_append]
      omega
  | comma cut =>
      rw [cut, List.length_append, List.length_cons]
      omega

/-- As many elements as can be found one after the other. -/
def matchItems (text : List Char) : Piece :=
  match found : matchItem text with
  | none => ⟨[], text⟩
  | some ⟨tokens, rest⟩ =>
      have : rest.length < text.length := (found ▸ matchItem_startsWith text).shrinks
      let later := matchItems rest
      ⟨tokens ++ later.tokens, later.rest⟩
termination_by text.length

/-- A line is a repetition of elements up to the end of its text, which the engine demands. -/
def parseLine? (text : String) : Option (List String) :=
  let line := matchItems (skipBlanks (expandTabs 0 text.toList))
  if skipBlanks line.rest = [] then some (line.tokens.map String.ofList) else none

/-- The repetition finds the runs of a text and leaves only blanks, by induction on its rounds. -/
theorem matchItems_splits (text : List Char)
    : SplitsInto isSeparator text (matchItems text).tokens
      ∧ ∀ c ∈ (matchItems text).rest, isPadding c = true := by
  fun_induction matchItems text with
  | case1 text found =>
      have starts := matchItem_startsWith text
      rw [found] at starts
      cases starts with
      | blank blanks => exact ⟨.blank (separators_of_blanks blanks), blanks⟩
  | case2 text tokens rest found _ later ih =>
      have starts := matchItem_startsWith text
      rw [found] at starts
      refine ⟨?_, ih.2⟩
      cases starts with
      | @token gap token _ cut blanks nonempty unbroken longest =>
          rw [cut]
          exact .run (separators_of_blanks blanks) nonempty unbroken longest ih.1
      | @comma gap _ cut blanks =>
          rw [cut, splitsInto_iff, runs_append_boundaries (separators_of_blanks blanks),
            runs_cons_boundary (by decide), splitsInto_iff.mp ih.1, List.nil_append]

/-- Every text is a line. -/
theorem parseLine?_eq (text : String)
    : parseLine? text = some (tokenize text) := by
  obtain ⟨gap, cut, blanks, _⟩ := exists_append_dropWhile isPadding (expandTabs 0 text.toList)
  obtain ⟨splits, rest⟩ := matchItems_splits (skipBlanks (expandTabs 0 text.toList))
  have boundaries := separators_of_blanks blanks
  have finished : skipBlanks (matchItems (skipBlanks (expandTabs 0 text.toList))).rest = [] := by
    rw [skipBlanks, List.dropWhile_eq_nil_iff]
    exact rest
  have tokens
      : (matchItems (skipBlanks (expandTabs 0 text.toList))).tokens
        = runs isSeparator text.toList := by
    rw [← splitsInto_iff.mp splits, skipBlanks, ← runs_append_boundaries boundaries, ← cut, runs,
      scanRuns_expandTabs, runs]
  rw [parseLine?, if_pos finished, tokens, tokenize]

-- A tab, commas next to each other and a line ending separate tokens like a single space.
example
    : parseLine? "\tCopy R1,,R2\r\n" = some ["Copy", "R1", "R2"] := by
  rw [parseLine?_eq]
  decide +kernel

-----------------------------------------------------------------------------------------
-- Lines
-----------------------------------------------------------------------------------------

/-- The characters that separate tokens. -/
def separators : List Char :=
  [' ', '\t', '\r', '\n', ',']

/-- A text of separators, which may be empty. -/
def IsSeparation (text : String) : Prop :=
  ∀ c ∈ text.toList, c ∈ separators

/-- A text that is not empty and has no separators. -/
structure IsToken (text : String) : Prop where
  nonempty : text ≠ ""
  unbroken : ∀ c ∈ text.toList, c ∉ separators

theorem isSeparator_eq
    : isSeparator = fun c => decide (c ∈ separators) := by
  funext c
  exact Bool.eq_iff_iff.mpr ((isSeparator_iff c).trans decide_eq_true_iff.symm)

theorem isToken_iff {text : String}
    : IsToken text ↔ text.toList ≠ [] ∧ ∀ c ∈ text.toList, isSeparator c = false := by
  rw [isSeparator_eq, ne_eq, String.toList_eq_nil_iff]
  simp only [decide_eq_false_iff_not]
  exact ⟨fun h => ⟨h.nonempty, h.unbroken⟩, fun h => ⟨h.1, h.2⟩⟩

/-- There is no other way to split a line into tokens. -/
theorem tokenize_eq_of_splits {text : String} {tokens : List String}
    (h : SplitsInto isSeparator text.toList (tokens.map String.toList))
    : tokenize text = tokens := by
  rw [tokenize, splitsInto_iff.mp h, List.map_map]
  simp only [Function.comp_def, String.ofList_toList, List.map_id']

/-- Tokens in this order, each of them with separators behind it and with more in front of all. Only
those behind the last token may be missing. They are found again, by induction on the tokens.
-/
theorem splitsInto_pieces {before : String} {pieces : List (String × String)}
    (around : IsSeparation before)
    (each : ∀ piece ∈ pieces, IsToken piece.1 ∧ IsSeparation piece.2)
    (between : ∀ piece ∈ pieces.dropLast, piece.2 ≠ "")
    : SplitsInto isSeparator
        (before ++ String.join (pieces.map fun piece => piece.1 ++ piece.2)).toList
        ((pieces.map Prod.fst).map String.toList) := by
  have boundaries {text : String} (h : IsSeparation text)
      : ∀ c ∈ text.toList, isSeparator c = true :=
    fun c member => (isSeparator_iff c).mpr (h c member)
  induction pieces generalizing before with
  | nil =>
      rw [List.map_nil, String.join_nil, String.append_empty]
      exact .blank (boundaries around)
  | cons piece pieces ih =>
      obtain ⟨token, gap⟩ := piece
      obtain ⟨⟨here, behind⟩, later⟩ := List.forall_mem_cons.mp each
      obtain ⟨nonempty, unbroken⟩ := isToken_iff.mp here
      rw [List.map_cons, String.join_cons, String.append_assoc, String.toList_append,
        String.toList_append]
      refine .run (boundaries around) nonempty unbroken (fun c head => ?_) (ih behind later ?_)
      · cases pieces with
        | nil =>
            rw [List.map_nil, String.join_nil, String.append_empty] at head
            exact boundaries behind c (List.mem_of_mem_head? head)
        | cons next pieces =>
            have some : gap.toList ≠ [] :=
              String.toList_eq_nil_iff.not.mpr (between (token, gap) List.mem_cons_self)
            rw [String.toList_append, List.head?_append_of_ne_nil _ some] at head
            exact boundaries behind c (List.mem_of_mem_head? head)
      · cases pieces with
        | nil => exact List.forall_mem_nil _
        | cons next pieces =>
            exact fun piece member => between piece (List.mem_cons_of_mem _ member)

/-- Splitting a line into tokens never fails, loses nothing but separators, and can be undone.
The grammar accepts every text. The tokens are the longest stretches of the text without separators,
in order, and together they are all of it but for its separators. Whatever separators stand between
tokens and around them, the tokens are found again, so that the tokens of a text are those of the
line in which single spaces join them.
-/
theorem tokenization_is_exact
    : (∀ text : String,
        parseLine? text = some (tokenize text)
        ∧ SplitsInto (fun c => decide (c ∈ separators)) text.toList
            ((tokenize text).map String.toList)
        ∧ (∀ token ∈ tokenize text, IsToken token)
        ∧ String.join (tokenize text)
          = String.ofList (text.toList.filter fun c => decide (c ∉ separators)))
      ∧ (∀ (before : String) (pieces : List (String × String)),
          IsSeparation before
          → (∀ piece ∈ pieces, IsToken piece.1 ∧ IsSeparation piece.2)
          → (∀ piece ∈ pieces.dropLast, piece.2 ≠ "")
          → tokenize (before ++ String.join (pieces.map fun piece => piece.1 ++ piece.2))
            = pieces.map Prod.fst)
      ∧ ∀ text : String, tokenize (" ".intercalate (tokenize text)) = tokenize text := by
  refine ⟨fun text => ⟨parseLine?_eq text, ?_, fun token member => ?_, ?_⟩,
    fun before pieces around each between => ?_, fun text => ?_⟩
  · exact isSeparator_eq ▸ tokenize_splits text
  · exact isToken_iff.mpr (token_unbroken member)
  · rw [← String.toList_inj, String.toList_join, String.toList_ofList, List.flatMap_def,
      (tokenize_splits text).flatten_eq, isSeparator_eq]
    simp only [decide_not]
  · exact tokenize_eq_of_splits (splitsInto_pieces around each between)
  · exact tokenize_intercalate fun token member => token_unbroken member

end Assembly

end RegisterMachine
