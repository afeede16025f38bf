import RegisterMachine.Proofs.SourceCollection

/-! Manifests in their usual form are read as they are meant.
They have a table with the package and the sources, and every text stands between quotes, with
escapes where it needs them. Whatever the texts are, and whatever blanks and newlines stand between
them, reading gives the texts back.
-/

namespace RegisterMachine.Toml

-----------------------------------------------------------------------------------------
-- Quoted texts
-----------------------------------------------------------------------------------------

/-- A character between quotes. Quotes and backslashes are escaped, and so is what is not plain. -/
def escape (c : Char) : List Char :=
  if c = Text.doubleQuote ∨ c = Text.backslash then [Text.backslash, c]
  else if isPlain c then [c]
  else Text.backslash :: 'u' :: Digits.padded 16 4 c.toNat

/-- A text between quotes. -/
def quoted (text : String) : List Char :=
  Text.doubleQuote :: (text.toList.flatMap escape ++ [Text.doubleQuote])

/-- A character that stands for itself between quotes. -/
def isOrdinary (c : Char) : Bool :=
  isPlain c && c ≠ Text.doubleQuote && c ≠ Text.backslash

/-- A character that is not plain is one of the first few, and four digits give its code point. -/
theorem exists_hexChar {c : Char} (special : ¬ isPlain c = true)
    : ∃ w x y z,
        Digits.padded 16 4 c.toNat = [w, x, y, z]
        ∧ hexChar? [w, x, y, z] = some c
        ∧ [w, x, y, z].all isOrdinary = true := by
  have first
      : ∀ n : Fin 0x20,
          hexChar? (Digits.padded 16 4 n) = some (Char.ofNat n)
          ∧ (Digits.padded 16 4 n).all isOrdinary = true := by
    decide +kernel
  have last
      : hexChar? (Digits.padded 16 4 0x7f) = some '\x7f'
        ∧ (Digits.padded 16 4 0x7f).all isOrdinary = true := by
    decide +kernel
  simp only [isPlain, Bool.or_eq_true, Bool.and_eq_true, decide_eq_true_eq, not_or, not_and,
    ne_eq, Decidable.not_not, beq_iff_eq] at special
  by_cases low : 0x20 ≤ c.toNat
  · obtain rfl := special.2 low
    exact ⟨_, _, _, _, rfl, last⟩
  · have found := first ⟨c.toNat, Nat.lt_of_not_le low⟩
    rw [Char.ofNat_toNat] at found
    exact ⟨_, _, _, _, rfl, found⟩

theorem isOrdinary_iff {c : Char}
    : isOrdinary c = true ↔ isPlain c = true ∧ c ≠ Text.doubleQuote ∧ c ≠ Text.backslash := by
  simp [isOrdinary, and_assoc]

theorem takeBasic?_ordinary {c : Char} (ordinary : isOrdinary c = true) (rest : List Char)
    : takeBasic? (c :: rest) = (takeBasic? rest).map fun (taken, rest) => (c :: taken, rest) := by
  obtain ⟨plain, noQuote, noEscape⟩ := isOrdinary_iff.mp ordinary
  rw [takeBasic?.eq_def]
  split
  · next same => exact (noQuote (List.cons.inj same).1).elim
  · next same => exact (noEscape (List.cons.inj same).1).elim
  · next same =>
      obtain ⟨rfl, rfl⟩ := List.cons.inj same
      rw [if_pos plain]
  · next same => cases same

/-- A character is taken with its escape. -/
theorem takeBasic?_escape (c : Char) (rest : List Char)
    : takeBasic? (escape c ++ rest)
      = (takeBasic? rest).map fun (taken, rest) => (escape c ++ taken, rest) := by
  rw [escape]
  split
  · rfl
  · next unmarked =>
      split
      · next plain =>
          exact takeBasic?_ordinary (isOrdinary_iff.mpr ⟨plain, not_or.mp unmarked⟩) rest
      · next special =>
          obtain ⟨w, x, y, z, digits, _, ordinary⟩ := exists_hexChar special
          simp only [List.all_cons, List.all_nil, Bool.and_true, Bool.and_eq_true] at ordinary
          obtain ⟨hw, hx, hy, hz⟩ := ordinary
          have letter (rest : List Char)
              : takeBasic? (Text.backslash :: 'u' :: rest)
                = (takeBasic? rest).map fun (taken, rest) =>
                    (Text.backslash :: 'u' :: taken, rest) := rfl
          rw [digits]
          simp only [List.cons_append, List.nil_append, letter, takeBasic?_ordinary hw,
            takeBasic?_ordinary hx, takeBasic?_ordinary hy, takeBasic?_ordinary hz, Option.map_map]
          rfl

/-- A character is what its escape stands for. -/
theorem unescape?_escape (c : Char) (rest : List Char)
    : unescape? false .nothing (escape c ++ rest)
      = (unescape? false .nothing rest).map (c :: ·) := by
  rw [escape]
  split
  · next marked => rcases marked with rfl | rfl <;> rfl
  · next unmarked =>
      split
      · rw [List.singleton_append, unescape?.eq_def]
        simp [(not_or.mp unmarked).2]
      · next special =>
          obtain ⟨w, x, y, z, digits, code, _⟩ := exists_hexChar special
          rw [digits]
          simp [unescape?, code, Option.map_eq_bind]

/-- A text between quotes is taken up to the closing quote, by induction on the text. -/
theorem takeBasic?_quoted (text rest : List Char)
    : takeBasic? (text.flatMap escape ++ Text.doubleQuote :: rest)
      = some (text.flatMap escape, rest) := by
  induction text with
  | nil => rfl
  | cons c text ih => rw [List.flatMap_cons, List.append_assoc, takeBasic?_escape, ih]; rfl

/-- Escapes are undone character by character, by induction on the text. -/
theorem unescape?_quoted (text : List Char)
    : unescape? false .nothing (text.flatMap escape) = some text := by
  induction text with
  | nil => rfl
  | cons c text ih => rw [List.flatMap_cons, unescape?_escape, ih]; rfl

theorem quoted_append (text : String) (rest : List Char)
    : quoted text ++ rest
      = '\x22' :: (text.toList.flatMap escape ++ Text.doubleQuote :: rest) := by
  rw [quoted, List.cons_append, List.append_assoc]
  rfl

theorem head_escape_ne (c : Char) (rest : List Char)
    : (escape c ++ rest).head? ≠ some Text.doubleQuote := by
  rw [escape]
  split
  · exact ne_of_beq_false rfl
  · next unmarked =>
      split
      · exact fun same => unmarked (Or.inl (Option.some.inj same))
      · exact ne_of_beq_false rfl

/-- Three quotes in a row would open a text of several lines, but no escape begins with a quote. -/
theorem readText?_quoted (text : String) {rest : List Char}
    (apart : rest.head? ≠ some Text.doubleQuote)
    : readText? (quoted text ++ rest) = some (text.toList, rest) := by
  rw [quoted_append, readText?.eq_def]
  split
  · next same => cases same
  · next behind same =>
      have quotes : text.toList.flatMap escape ++ Text.doubleQuote :: rest
          = Text.doubleQuote :: Text.doubleQuote :: behind :=
        (List.cons.inj same).2
      cases chars : text.toList with
      | nil =>
          rw [chars] at quotes
          obtain ⟨_, rfl⟩ := List.cons.inj quotes
          exact (apart rfl).elim
      | cons c later =>
          rw [chars, List.flatMap_cons, List.append_assoc] at quotes
          exact (head_escape_ne c _ (congrArg List.head? quotes)).elim
  · simp only [readQuoted?, takeBasic?_quoted, bind, Option.bind, unescape?_quoted, pure]

theorem readValue_quoted (fuel : Nat) (text : String) {rest : List Char}
    (apart : rest.head? ≠ some Text.doubleQuote)
    : readValue (fuel + 1) (quoted text ++ rest) = .ok (.text text, rest) := by
  have start (behind : List Char)
      : readValue (fuel + 1) ('\x22' :: behind)
        = (ofOption (readText? ('\x22' :: behind))).map fun (text, rest) =>
            (.text (String.ofList text), rest) := rfl
  have read := readText?_quoted text apart
  rw [quoted_append] at read ⊢
  simp only [start, read, ofOption, Except.map, String.ofList_toList]

-----------------------------------------------------------------------------------------
-- Arrays
-----------------------------------------------------------------------------------------

/-- Blanks and newlines that may stand between the elements of an array. -/
def IsSpacing (gap : List Char) : Prop :=
  ∀ c ∈ gap, isGap c = true ∨ c = '\n'

/-- The elements of an array of texts, with a gap in front of each and a comma behind it. -/
def elementsText (gap : List Char) : List String → List Char
  | [] => gap ++ [']']
  | text :: texts => gap ++ (quoted text ++ ',' :: elementsText gap texts)

/-- Spacing is skipped up to a character that is neither a blank nor a comment, by induction on
it. -/
theorem skipFiller_append {gap : List Char} (spacing : IsSpacing gap) {c : Char} {rest : List Char}
    (visible : isGap c = false ∧ c ≠ '\n' ∧ c ≠ '#')
    : skipFiller false (gap ++ c :: rest) = .ok (c :: rest) := by
  obtain ⟨noGap, noFeed, noComment⟩ := visible
  induction gap with
  | nil => simp [skipFiller, noGap, noFeed, noComment]
  | cons blank gap ih =>
      obtain ⟨here, later⟩ := List.forall_mem_cons.mp spacing
      rw [List.cons_append, skipFiller]
      rcases here with blank | rfl
      · simp [blank, ih later]
      · simp [ih later]

theorem readElements_comma {fuel : Nat} {text rest : List Char} {value : Value}
    (unclosed : text.head? ≠ some ']') (read : readValue fuel text = .ok (value, ',' :: rest))
    : readElements (fuel + 1) text
      = ((skipFiller false rest).bind (readElements fuel)).map fun (values, rest) =>
          (value :: values, rest) := by
  have comma : skipFiller false (',' :: rest) = .ok (',' :: rest) := rfl
  rw [readElements]
  · simp only [read, comma, bind, Except.bind, pure, Except.pure]
    cases skipFiller false rest with
    | error error => rfl
    | ok rest => cases readElements fuel rest <;> rfl
  · rintro rest rfl
    exact unclosed rfl

/-- The elements are read one after the other, by induction on them. Each takes one unit of fuel. -/
theorem readElements_elementsText {gap : List Char} (spacing : IsSpacing gap)
    (texts : List String) (rest : List Char) {fuel : Nat} (enough : texts.length + 2 ≤ fuel)
    : (skipFiller false (elementsText gap texts ++ rest)).bind (readElements fuel)
      = .ok (texts.map .text, rest) := by
  induction texts generalizing fuel with
  | nil =>
      obtain ⟨fuel, rfl⟩ := Nat.exists_eq_add_of_le' enough
      rw [elementsText, List.append_assoc, List.singleton_append,
        skipFiller_append spacing (by decide)]
      rfl
  | cons text texts ih =>
      obtain ⟨fuel, rfl⟩ := Nat.exists_eq_add_of_le' enough
      have later := @ih (fuel + texts.length + 2) (by omega)
      have first
          : readValue (fuel + texts.length + 2)
              (quoted text ++ ',' :: (elementsText gap texts ++ rest))
            = .ok (.text text, ',' :: (elementsText gap texts ++ rest)) :=
        readValue_quoted _ text (ne_of_beq_false rfl)
      rw [elementsText, List.append_assoc, List.append_assoc, List.cons_append]
      rw [quoted_append] at first ⊢
      rw [skipFiller_append spacing (by decide), Except.bind]
      refine (readElements_comma (ne_of_beq_false rfl) first).trans ?_
      rw [later]
      rfl

theorem length_lt_elementsText (gap : List Char) (texts : List String)
    : texts.length < (elementsText gap texts).length := by
  induction texts with
  | nil => simp [elementsText]
  | cons text texts ih =>
      simp only [elementsText, List.length_append, List.length_cons]
      omega

theorem readValue_elementsText {gap : List Char} (spacing : IsSpacing gap)
    (texts : List String) (rest : List Char) {fuel : Nat} (enough : texts.length + 2 ≤ fuel)
    : readValue (fuel + 1) ('[' :: (elementsText gap texts ++ rest))
      = .ok (.array (texts.map .text), rest) := by
  obtain ⟨start, skipped, read⟩ :=
    bind_eq_ok_iff.mp (readElements_elementsText spacing texts rest enough)
  rw [readValue, skipped]
  simp only [bind, Except.bind, read, pure, Except.pure]

-----------------------------------------------------------------------------------------
-- Lines
-----------------------------------------------------------------------------------------

/-- A name without quotes. -/
def IsBareName (name : String) : Prop :=
  name.toList ≠ [] ∧ name.toList.all isBare = true

instance (name : String) : Decidable (IsBareName name) :=
  inferInstanceAs (Decidable (_ ∧ _))

/-- A name without quotes is read up to the first character that belongs to none. -/
theorem readKey_bare {name : String} (bare : IsBareName name) {c : Char} {rest : List Char}
    (ends : isBare c = false) (undotted : (skipGap (c :: rest)).head? ≠ some '.') (fuel : Nat)
    : readKey (fuel + 1) (name.toList ++ c :: rest) = .ok ([name], skipGap (c :: rest)) := by
  obtain ⟨nonempty, all⟩ := bare
  have all := List.all_eq_true.mp all
  have taken : (name.toList ++ c :: rest).takeWhile isBare = name.toList := by
    rw [List.takeWhile_append_of_pos all, List.takeWhile_cons_of_neg (by simp [ends]),
      List.append_nil]
  have left : (name.toList ++ c :: rest).dropWhile isBare = c :: rest := by
    rw [List.dropWhile_append_of_pos all, List.dropWhile_cons_of_neg (by simp [ends])]
  have read : readName (name.toList ++ c :: rest) = .ok (name, c :: rest) := by
    rw [readName, taken]
    split
    · next none => exact (nonempty none).elim
    · rw [left, String.ofList_toList]
  rw [readKey, read]
  simp only [bind, Except.bind]
  split
  · next dot => exact (undotted (by rw [dot]; rfl)).elim
  · rfl

/-- A line has a key or a header. -/
def beginsLine (line : List Char) : Bool :=
  line.head?.any fun c => !isGap c && c ≠ '\n' && c ≠ '#'

/-- A line is read, and then the lines after it. -/
theorem readLines_line {draft draft' : Draft} {line rest : List Char} {fuel : Nat}
    (begins : beginsLine line = true)
    (read : draft.readLine (line ++ '\n' :: rest) = .ok (draft', '\n' :: rest))
    : draft.readLines (fuel + 1) (line ++ '\n' :: rest) = draft'.readLines fuel rest := by
  have feed : skipComment (skipGap ('\n' :: rest)) = .ok ('\n' :: rest) := rfl
  cases line with
  | nil => cases begins
  | cons c line =>
      simp only [beginsLine, List.head?_cons, Option.any_some, Bool.and_eq_true,
        Bool.not_eq_true', decide_eq_true_eq] at begins
      obtain ⟨⟨noGap, noFeed⟩, noComment⟩ := begins
      have start : skipGap (c :: line ++ '\n' :: rest) = c :: line ++ '\n' :: rest :=
        List.dropWhile_cons_of_neg (by simp [noGap])
      have code
          : ¬ (c :: line ++ '\n' :: rest = []
              ∨ (c :: line ++ '\n' :: rest).head? = some '\n'
              ∨ (c :: line ++ '\n' :: rest).head? = some '#') := by
        simp [noFeed, noComment]
      rw [Draft.readLines, start, if_neg code, read]
      simp only [bind, Except.bind, feed]

/-- A name without quotes begins with neither a bracket nor a blank. -/
theorem IsBareName.head {name : String} (bare : IsBareName name)
    : ∃ c later, name.toList = c :: later ∧ c ≠ '[' ∧ isGap c = false := by
  obtain ⟨nonempty, all⟩ := bare
  obtain ⟨c, later, chars⟩ := List.exists_cons_of_ne_nil nonempty
  rw [chars, List.all_cons, Bool.and_eq_true] at all
  refine ⟨c, later, chars, ?_, Bool.eq_false_iff.mpr fun gap => ?_⟩
  · rintro rfl
    exact absurd all.1 (by decide)
  · rw [isGap, Bool.or_eq_true, beq_iff_eq, beq_iff_eq] at gap
    rcases gap with rfl | rfl <;> exact absurd all.1 (by decide)

/-- The header of a table. -/
def headerLine (name : String) : List Char :=
  '[' :: (name.toList ++ [']'])

/-- A key without quotes and its value. -/
def pairLine (name : String) (value : List Char) : List Char :=
  name.toList ++ ' ' :: '=' :: ' ' :: value

theorem readLine_headerLine {draft draft' : Draft} {name : String} (bare : IsBareName name)
    (opened : draft.settle.openTable? [name] = some draft') (rest : List Char)
    : draft.readLine (headerLine name ++ rest) = .ok (draft', rest) := by
  obtain ⟨c, later, chars, single, begins⟩ := bare.head
  have line : headerLine name ++ rest = '[' :: (name.toList ++ ']' :: rest) := by
    rw [headerLine, List.cons_append, List.append_assoc]
    rfl
  have start : skipGap (name.toList ++ ']' :: rest) = name.toList ++ ']' :: rest := by
    rw [chars]
    exact List.dropWhile_cons_of_neg (by simp [begins])
  have key
      : readKey (name.toList ++ ']' :: rest).length (name.toList ++ ']' :: rest)
        = .ok ([name], ']' :: rest) := by
    rw [List.length_append, List.length_cons, ← Nat.add_assoc]
    exact readKey_bare bare (by decide) (ne_of_beq_false rfl) _
  rw [line, Draft.readLine, start, key]
  · simp only [bind, Except.bind, pure, Except.pure, opened, ofOption]
  · intro rest' same
    rw [chars] at same
    exact single (List.cons.inj same).1

theorem readLine_pairLine {draft draft' : Draft} {name : String} {value : Value}
    {text rest : List Char} (bare : IsBareName name)
    (visible : skipGap (text ++ rest) = text ++ rest)
    (read : ∀ fuel, text.length ≤ fuel → readValue (fuel + 1) (text ++ rest) = .ok (value, rest))
    (defined : draft.define? [name] value = some draft')
    : draft.readLine (pairLine name text ++ rest) = .ok (draft', rest) := by
  obtain ⟨c, later, chars, single, _⟩ := bare.head
  have behind : skipGap (' ' :: (text ++ rest)) = text ++ rest := visible
  generalize whole : pairLine name text ++ rest = line
  rw [pairLine, List.append_assoc] at whole
  have key : readKey line.length line = .ok ([name], '=' :: ' ' :: (text ++ rest)) := by
    rw [← whole, List.length_append, List.cons_append, List.length_cons, ← Nat.add_assoc]
    exact readKey_bare bare (by decide) (ne_of_beq_false rfl) _
  have long : text.length ≤ 2 * line.length := by
    simp only [← whole, List.length_append, List.length_cons]
    omega
  have noHeader (rest : List Char) : line ≠ '[' :: rest := by
    rw [← whole, chars]
    exact fun same => single (List.cons.inj same).1
  rw [Draft.readLine, readPair, key]
  · simp only [bind, Except.bind, pure, Except.pure, behind, read _ long, defined, ofOption]
  · exact fun rest => noHeader _
  · exact noHeader

-----------------------------------------------------------------------------------------
-- Manifests
-----------------------------------------------------------------------------------------

/-- A manifest with a package and sources. -/
def manifestText (gap : List Char) (package : String) (sources : List String) : String :=
  String.ofList <|
    headerLine "library"
      ++ '\n' :: (pairLine "package" (quoted package)
      ++ '\n' :: (pairLine "sources" ('[' :: elementsText gap sources)
      ++ ['\n']))

/-- The values of the table of a library with a package and sources. -/
def libraryTable (package : String) (sources : List String) : Table :=
  [("package", .text package), ("sources", .array (sources.map .text))]

/-- A document in which the table of the library has some values so far. -/
def draftOf (library : Table) (frozen : List Key) : Draft :=
  ⟨[("library", .table library)], ["library"], frozen, [["library"]], []⟩

theorem openTable?_library
    : Draft.empty.settle.openTable? ["library"] = some (draftOf [] []) := by
  simp [Draft.openTable?, Draft.settle, Draft.empty, isFrozen, update?, guard, draftOf]

theorem define?_package (package : String)
    : (draftOf [] []).define? ["package"] (.text package)
      = some (draftOf [("package", .text package)] []) := by
  simp [Draft.define?, Draft.pathsOf, isFrozen, insert?, update?, define?, guard, Value.isWhole,
    draftOf]

theorem define?_sources (package : String) (sources : List String)
    : (draftOf [("package", .text package)] []).define? ["sources"] (.array (sources.map .text))
      = some (draftOf (libraryTable package sources) [["library", "sources"]]) := by
  simp [Draft.define?, Draft.pathsOf, isFrozen, insert?, update?, define?, guard, Value.isWhole,
    draftOf, List.lookup, libraryTable]

/-- A manifest is read as it was meant, whatever the texts in it are. -/
theorem read_manifestText {gap : List Char} (spacing : IsSpacing gap) (package : String)
    (sources : List String)
    : read (manifestText gap package sources)
      = .ok [("library", .table (libraryTable package sources))] := by
  have header (rest : List Char)
      : Draft.empty.readLine (headerLine "library" ++ rest) = .ok (draftOf [] [], rest) :=
    readLine_headerLine (by decide) openTable?_library rest
  have first (rest : List Char)
      : (draftOf [] []).readLine (pairLine "package" (quoted package) ++ '\n' :: rest)
        = .ok (draftOf [("package", .text package)] [], '\n' :: rest) :=
    readLine_pairLine (by decide) rfl
      (fun fuel _ => readValue_quoted fuel package (ne_of_beq_false rfl)) (define?_package package)
  have second (rest : List Char)
      : (draftOf [("package", .text package)] []).readLine
          (pairLine "sources" ('[' :: elementsText gap sources) ++ '\n' :: rest)
        = .ok (draftOf (libraryTable package sources) [["library", "sources"]], '\n' :: rest) := by
    refine readLine_pairLine (by decide) rfl (fun fuel enough => ?_) (define?_sources package _)
    have longer := length_lt_elementsText gap sources
    rw [List.length_cons] at enough
    exact readValue_elementsText spacing sources _ (by omega)
  have closed (draft : Draft) (fuel : Nat) : draft.readLines (fuel + 1) [] = .ok draft.values := rfl
  rw [read, manifestText, String.toList_ofList]
  generalize count : List.length _ = n
  obtain ⟨n, rfl⟩ : ∃ m, n = m + 3 := by
    refine ⟨n - 3, ?_⟩
    simp only [List.length_append, List.length_cons] at count
    omega
  exact (readLines_line rfl (header _)).trans
    ((readLines_line rfl (first _)).trans ((readLines_line rfl (second _)).trans (closed _ n)))

-- Other forms are read as well: comments, keys with dots, and values that nothing looks at.
example
    : ((read "version = 1 # first\nlibrary.package = 'core'\nlibrary.sources = []").toOption.bind
        fun manifest => (manifest.lookup "library").bind fun library => library.shown.toOption)
      = some "\x7b'package': 'core', 'sources': []\x7d" := by
  decide +kernel

end RegisterMachine.Toml

namespace RegisterMachine

variable {files : FileTree} {directory : Path} {gap : List Char} {package : String}
  {sources : List String}

/-- A directory with such a manifest declares the sources. -/
theorem declares_of_manifestText (spacing : Toml.IsSpacing gap)
    (written
      : files.readText (FileTree.manifestPath directory)
        = .ok (Toml.manifestText gap package sources))
    : Declares files directory (Toml.libraryTable package sources) (sources.map .text) :=
  ⟨⟨_, ⟨_, written, Toml.read_manifestText spacing package sources⟩, rfl⟩, _, rfl, rfl⟩

/-- The files that such a manifest lists stand in its directory and belong to its package. -/
theorem CommandLine.names_of_manifestText {options : AssembleOptions}
    (given : options.library = some directory) (spacing : Toml.IsSpacing gap)
    (written
      : files.readText (FileTree.manifestPath directory)
        = .ok (Toml.manifestText gap package sources))
    : Names files options
        (sources.map (fun source => .inPackage package (directory.join (.ofString source)))
          ++ options.sources.map .alone) := by
  refine ⟨_, .library given (declares_of_manifestText spacing written), List.rel_append ?_ ?_⟩
  · rw [List.map_map, List.forall₂_map_left_iff, List.forall₂_map_right_iff, List.forall₂_same]
    exact fun source _ => .listed rfl rfl
  · rw [List.forall₂_map_left_iff, List.forall₂_map_right_iff, List.forall₂_same]
    exact fun path _ => .own

end RegisterMachine
