import RegisterMachine.Proofs.Results
import RegisterMachine.Toml.Document

/-! Reading a document never runs out of fuel.
Every reader takes characters from the front of a text and leaves the rest as it is. So texts get
shorter from one value to the next, and with the fuel that the definitions give, one more step
changes no result.
-/

namespace RegisterMachine.Toml

variable {text taken rest : List Char} {value : Value}

theorem suffix_of_cons {c : Char} (left : c :: rest <:+ text)
    : rest <:+ text :=
  (List.suffix_cons c rest).trans left

theorem ofOption_eq_ok_iff {α : Type} {read : Option α} {a : α}
    : ofOption read = .ok a ↔ read = some a := by
  cases read <;> simp [ofOption]

-----------------------------------------------------------------------------------------
-- Quoted texts
-----------------------------------------------------------------------------------------

theorem takeLiteral?_suffix (read : takeLiteral? text = some (taken, rest))
    : rest <:+ text := by
  fun_induction takeLiteral? text generalizing taken <;>
    grind [Option.map_eq_some_iff, List.suffix_cons_iff]

theorem takeLongLiteral?_suffix (read : takeLongLiteral? text = some (taken, rest))
    : rest <:+ text := by
  fun_induction takeLongLiteral? text generalizing taken <;>
    grind [Option.map_eq_some_iff, List.suffix_cons_iff]

theorem takeBasic?_suffix (read : takeBasic? text = some (taken, rest))
    : rest <:+ text := by
  fun_induction takeBasic? text generalizing taken <;>
    grind [Option.map_eq_some_iff, List.suffix_cons_iff]

theorem takeLongBasic?_suffix (read : takeLongBasic? text = some (taken, rest))
    : rest <:+ text := by
  fun_induction takeLongBasic? text generalizing taken <;>
    grind [Option.map_eq_some_iff, List.suffix_cons_iff]

theorem dropNewline_suffix (text : List Char)
    : dropNewline text <:+ text := by
  rw [dropNewline.eq_def]
  split
  · exact List.suffix_cons _ _
  · exact List.suffix_rfl

theorem extraQuotes_suffix (quote : Char) (text : List Char)
    : (extraQuotes quote text).2 <:+ text := by
  rw [extraQuotes.eq_def]
  grind [List.suffix_cons_iff]

theorem readQuoted?_suffix (read : readQuoted? text = some (taken, rest))
    : rest <:+ text := by
  rw [readQuoted?.eq_def] at read
  split at read
  · exact (takeLiteral?_suffix read).trans (List.suffix_cons _ _)
  · simp only [Option.bind_eq_bind, Option.bind_eq_some_iff] at read
    obtain ⟨_, basic, _, _, same⟩ := read
    cases same
    exact (takeBasic?_suffix basic).trans (List.suffix_cons _ _)
  · cases read

theorem readText?_suffix (read : readText? text = some (taken, rest))
    : rest <:+ text := by
  rw [readText?.eq_def] at read
  split at read
  · simp only [Option.bind_eq_bind, Option.bind_eq_some_iff] at read
    obtain ⟨⟨_, behind⟩, long, same⟩ := read
    cases same
    exact (extraQuotes_suffix _ behind).trans <|
      (takeLongLiteral?_suffix long).trans <| (dropNewline_suffix _).trans ⟨[_, _, _], rfl⟩
  · simp only [Option.bind_eq_bind, Option.bind_eq_some_iff] at read
    obtain ⟨⟨_, behind⟩, long, _, _, same⟩ := read
    cases same
    exact (extraQuotes_suffix _ behind).trans <|
      (takeLongBasic?_suffix long).trans <| (dropNewline_suffix _).trans ⟨[_, _, _], rfl⟩
  · exact readQuoted?_suffix read

-----------------------------------------------------------------------------------------
-- Dates and times
-----------------------------------------------------------------------------------------

theorem readTime?_suffix {time : Time} (read : readTime? text = some (time, rest))
    : rest <:+ text := by
  rw [readTime?.eq_def] at read
  split at read
  · simp only [Option.bind_eq_bind, Option.bind_eq_some_iff] at read
    obtain ⟨_, _, _, _, _, _, read⟩ := read
    refine .trans ?_ ⟨[_, _, _, _, _, _, _, _], rfl⟩
    split at read
    · split at read <;> cases read
      · exact List.suffix_rfl
      · exact (List.dropWhile_suffix _).trans (List.suffix_cons _ _)
    · cases read
      exact List.suffix_rfl
  · cases read

theorem readDate?_suffix {date : Date} (read : readDate? text = some (date, rest))
    : rest <:+ text := by
  rw [readDate?.eq_def] at read
  split at read
  · simp only [Option.bind_eq_bind, Option.bind_eq_some_iff] at read
    obtain ⟨_, _, _, _, _, _, read⟩ := read
    cases read
    exact ⟨[_, _, _, _, _, _, _, _, _, _], rfl⟩
  · cases read

theorem readOffset_suffix (text : List Char)
    : (readOffset text).2 <:+ text := by
  rw [readOffset.eq_def]
  grind [List.suffix_cons_iff]

theorem readAfterDate_suffix (date : Date) (text : List Char)
    : (readAfterDate date text).2 <:+ text := by
  rw [readAfterDate.eq_def]
  split
  · split
    · next time behind same =>
        refine (readOffset_suffix behind).trans ?_
        split at same
        · exact (readTime?_suffix same).trans (List.suffix_cons _ _)
        · cases same
    · exact List.suffix_rfl
  · exact List.suffix_rfl

-----------------------------------------------------------------------------------------
-- Numbers
-----------------------------------------------------------------------------------------

theorem takeDigits_suffix (isDigit : Char → Bool) (behindDigit : Bool) (text : List Char)
    : (takeDigits isDigit behindDigit text).2 <:+ text := by
  fun_induction takeDigits isDigit behindDigit text <;> grind [List.suffix_cons_iff]

theorem readPrefixed?_suffix (read : readPrefixed? text = some (value, rest))
    : rest <:+ text := by
  rw [readPrefixed?.eq_def] at read
  grind [Option.bind_eq_some_iff, List.suffix_cons_iff, takeDigits_suffix, List.IsSuffix.trans]

theorem takeSign_suffix (text : List Char)
    : (takeSign text).2 <:+ text := by
  rw [takeSign.eq_def]
  grind [List.suffix_cons_iff]

theorem takeWhole?_suffix (read : takeWhole? text = some (taken, rest))
    : rest <:+ text := by
  rw [takeWhole?.eq_def] at read
  grind [List.suffix_cons_iff, takeDigits_suffix]

theorem takeFraction_suffix (text : List Char)
    : (takeFraction text).2 <:+ text := by
  rw [takeFraction.eq_def]
  grind [List.suffix_cons_iff, takeDigits_suffix]

theorem takeExponent?_suffix {exponent : Int} (read : takeExponent? text = some (exponent, rest))
    : rest <:+ text := by
  rw [takeExponent?.eq_def] at read
  grind [List.suffix_cons_iff, takeDigits_suffix, takeSign_suffix, List.IsSuffix.trans]

theorem readDecimal?_suffix (read : readDecimal? text = some (.ok (value, rest)))
    : rest <:+ text := by
  simp only [readDecimal?, Option.bind_eq_bind, Option.bind_eq_some_iff] at read
  obtain ⟨⟨whole, afterWhole⟩, start, read⟩ := read
  have behind := (takeFraction_suffix afterWhole).trans <|
    (takeWhole?_suffix start).trans (takeSign_suffix text)
  split at read
  · next exponent =>
      cases read
      exact (takeExponent?_suffix exponent).trans behind
  · split at read
    · split at read <;> cases read
      exact behind
    · cases read
      exact behind

theorem readSpecial?_suffix (read : readSpecial? text = some (value, rest))
    : rest <:+ text := by
  have behind := takeSign_suffix text
  simp only [readSpecial?] at read
  split at read
  · next same =>
      cases read
      exact .trans ⟨[_, _, _], rfl⟩ (same ▸ behind)
  · next same =>
      cases read
      exact .trans ⟨[_, _, _], rfl⟩ (same ▸ behind)
  · cases read

-----------------------------------------------------------------------------------------
-- Values
-----------------------------------------------------------------------------------------

theorem readUnquoted_suffix (read : readUnquoted text = .ok (value, rest))
    : rest <:+ text := by
  rw [readUnquoted] at read
  split at read
  · next date =>
      split at read
      · have same : (readAfterDate _ _).2 = rest := congrArg Prod.snd (Except.ok.inj read)
        exact same ▸ (readAfterDate_suffix _ _).trans (readDate?_suffix date)
      · cases read
  · next time _ =>
      cases read
      exact readTime?_suffix time
  · next whole _ _ =>
      cases read
      exact readPrefixed?_suffix whole
  · next decimal _ _ _ => exact readDecimal?_suffix (decimal.trans (congrArg some read))
  · exact readSpecial?_suffix (ofOption_eq_ok_iff.mp read)

theorem readScalar_suffix (read : readScalar text = .ok (value, rest))
    : rest <:+ text := by
  rw [readScalar.eq_def] at read
  split at read
  · cases read
    exact ⟨[_, _, _, _], rfl⟩
  · cases read
    exact ⟨[_, _, _, _, _], rfl⟩
  · split at read
    · obtain ⟨_, quoted, same⟩ := map_eq_ok_iff.mp read
      cases same
      exact readText?_suffix (ofOption_eq_ok_iff.mp quoted)
    · exact readUnquoted_suffix read
  · cases read

theorem skipGap_suffix (text : List Char)
    : skipGap text <:+ text :=
  List.dropWhile_suffix _

theorem skipFiller_suffix {inComment : Bool} (read : skipFiller inComment text = .ok rest)
    : rest <:+ text := by
  fun_induction skipFiller inComment text <;> grind [List.suffix_cons_iff]

theorem readName_suffix {name : String} (read : readName text = .ok (name, rest))
    : rest <:+ text := by
  rw [readName] at read
  split at read
  · obtain ⟨_, quoted, same⟩ := map_eq_ok_iff.mp read
    cases same
    exact readQuoted?_suffix (ofOption_eq_ok_iff.mp quoted)
  · cases read
    exact List.dropWhile_suffix _

theorem readKey_suffix {fuel : Nat} {key : Key} (read : readKey fuel text = .ok (key, rest))
    : rest <:+ text := by
  induction fuel generalizing text key with
  | zero => cases read
  | succ fuel ih =>
      rw [readKey, bind_eq_ok_iff] at read
      obtain ⟨⟨name, after⟩, first, read⟩ := read
      have behind := (skipGap_suffix after).trans (readName_suffix first)
      simp only at read
      split at read
      · next dot =>
          obtain ⟨_, further, same⟩ := bind_eq_ok_iff.mp read
          cases same
          exact (ih further).trans <| (skipGap_suffix _).trans (suffix_of_cons (dot ▸ behind))
      · cases read
        exact behind

/-- The readers of values leave the rest of a text as it is. -/
structure LeavesRest (fuel : Nat) : Prop where
  value
    : ∀ {text value rest}, readValue fuel text = .ok (value, rest) → rest <:+ text
  elements
    : ∀ {text values rest}, readElements fuel text = .ok (values, rest) → rest <:+ text
  inline
    : ∀ {table frozen text entries rest},
        readInline fuel table frozen text = .ok (entries, rest) → rest <:+ text
  pair
    : ∀ {text key value rest}, readPair fuel text = .ok (key, value, rest) → rest <:+ text

/-- By induction on the fuel: what a reader leaves is left by the readers that it calls. -/
theorem leavesRest (fuel : Nat)
    : LeavesRest fuel := by
  induction fuel with
  | zero => constructor <;> (intros; contradiction)
  | succ fuel ih =>
      constructor
      case value =>
        intro text value rest read
        rw [readValue.eq_def] at read
        simp only at read
        split at read
        · simp only [bind_eq_ok_iff] at read
          obtain ⟨start, skipped, _, listed, same⟩ := read
          cases same
          exact (ih.elements listed).trans <|
            (skipFiller_suffix skipped).trans (List.suffix_cons _ _)
        · next after =>
            refine .trans ?_ ((skipGap_suffix after).trans (List.suffix_cons _ _))
            split at read
            · next closed =>
                cases read
                exact closed ▸ List.suffix_cons _ _
            · obtain ⟨_, listed, same⟩ := bind_eq_ok_iff.mp read
              cases same
              exact ih.inline listed
        · exact readScalar_suffix read
      case elements =>
        intro text values rest read
        rw [readElements.eq_def] at read
        simp only at read
        split at read
        · cases read
          exact List.suffix_cons _ _
        · simp only [bind_eq_ok_iff] at read
          obtain ⟨_, first, start, skipped, read⟩ := read
          have left := (skipFiller_suffix skipped).trans (ih.value first)
          split at read
          · cases read
            exact suffix_of_cons left
          · simp only [bind_eq_ok_iff] at read
            obtain ⟨next, skipped', _, others, same⟩ := read
            cases same
            exact (ih.elements others).trans <|
              (skipFiller_suffix skipped').trans (suffix_of_cons left)
          · cases read
      case inline =>
        intro table frozen text entries rest read
        rw [readInline, bind_eq_ok_iff] at read
        obtain ⟨⟨key, value, behind⟩, first, read⟩ := read
        simp only at read
        split at read
        · cases read
        · obtain ⟨table', _, read⟩ := bind_eq_ok_iff.mp read
          have left := (skipGap_suffix behind).trans (ih.pair first)
          split at read
          · next closed =>
              cases read
              exact suffix_of_cons (closed ▸ left)
          · next comma =>
              exact (ih.inline read).trans <|
                (skipGap_suffix _).trans (suffix_of_cons (comma ▸ left))
          · cases read
      case pair =>
        intro text key value rest read
        rw [readPair, bind_eq_ok_iff] at read
        obtain ⟨⟨key', after⟩, named, read⟩ := read
        split at read
        · next same =>
            cases same
            obtain ⟨_, valued, same⟩ := bind_eq_ok_iff.mp read
            cases same
            exact (ih.value valued).trans <|
              (skipGap_suffix _).trans (suffix_of_cons (readKey_suffix named))
        · cases read

-----------------------------------------------------------------------------------------
-- Fuel of values
-----------------------------------------------------------------------------------------

/-- Each name of a key takes a unit of fuel, and a point stands in front of the next one. -/
theorem readKey_succ {fuel : Nat} (enough : text.length ≤ fuel)
    : readKey (fuel + 1) text = readKey fuel text := by
  induction fuel generalizing text with
  | zero =>
      obtain rfl := List.length_eq_zero_iff.mp (Nat.le_zero.mp enough)
      rfl
  | succ fuel ih =>
      rw [readKey, readKey]
      refine bind_congr_ok fun (name, after) first => ?_
      have shorter := ((skipGap_suffix after).trans (readName_suffix first)).length_le
      simp only
      split
      · next rest dot =>
          have behind := (skipGap_suffix rest).length_le
          rw [dot, List.length_cons] at shorter
          rw [ih (by omega)]
      · rfl

/-- One more step changes no result of a reader. A value and the list that begins with it are read
from the same text, so that a character may take two steps. -/
structure Suffices (fuel : Nat) : Prop where
  value
    : ∀ {text}, 2 * text.length < fuel → readValue (fuel + 1) text = readValue fuel text
  elements
    : ∀ {text}, 2 * text.length + 1 < fuel → readElements (fuel + 1) text = readElements fuel text
  inline
    : ∀ {table frozen text},
        2 * text.length + 1 < fuel
        → readInline (fuel + 1) table frozen text = readInline fuel table frozen text
  pair
    : ∀ {text}, 2 * text.length < fuel → readPair (fuel + 1) text = readPair fuel text

/-- By induction on the fuel: the texts that a reader hands on are shorter by a bracket, a comma or
an equals sign. -/
theorem suffices_of_fuel (fuel : Nat)
    : Suffices fuel := by
  induction fuel with
  | zero => constructor <;> (intros; omega)
  | succ fuel ih =>
      constructor
      case value =>
        intro text enough
        rw [readValue.eq_def, readValue.eq_def (fuel + 1)]
        simp only
        split
        · refine bind_congr_ok fun start skipped => ?_
          have shorter := (skipFiller_suffix skipped).length_le
          rw [List.length_cons] at enough
          rw [ih.elements (by omega)]
        · next after =>
            have shorter := (skipGap_suffix after).length_le
            rw [List.length_cons] at enough
            split
            · rfl
            · rw [ih.inline (by omega)]
        · rfl
      case elements =>
        intro text enough
        rw [readElements.eq_def, readElements.eq_def (fuel + 1)]
        simp only
        split
        · rfl
        · rw [ih.value (by omega)]
          refine bind_congr_ok fun (value, behind) first => ?_
          refine bind_congr_ok fun start skipped => ?_
          have shorter :=
            ((skipFiller_suffix skipped).trans ((leavesRest fuel).value first)).length_le
          split
          · rfl
          · refine bind_congr_ok fun start' skipped' => ?_
            have shorter' := (skipFiller_suffix skipped').length_le
            rw [List.length_cons] at shorter
            rw [ih.elements (by omega)]
          · rfl
      case inline =>
        intro table frozen text enough
        rw [readInline, readInline, ih.pair (by omega)]
        refine bind_congr_ok fun (key, value, behind) first => ?_
        have shorter := ((skipGap_suffix behind).trans ((leavesRest fuel).pair first)).length_le
        simp only
        split
        · rfl
        · refine bind_congr_ok fun table' _ => ?_
          split
          · rfl
          · next rest comma =>
              have shorter' := (skipGap_suffix rest).length_le
              rw [comma, List.length_cons] at shorter
              exact ih.inline (by omega)
          · rfl
      case pair =>
        intro text enough
        rw [readPair, readPair]
        refine bind_congr_ok fun (key, after) named => ?_
        have shorter := (readKey_suffix named).length_le
        split
        · next rest same =>
            cases same
            have shorter' := (skipGap_suffix rest).length_le
            rw [List.length_cons] at shorter
            rw [ih.value (by omega)]
        · rfl

/-- The fuel that a line gives to a pair is as good as any other that is enough. -/
theorem readPair_eq_of_enough {fuel : Nat} (enough : 2 * text.length < fuel)
    : readPair fuel text = readPair (2 * text.length + 1) text := by
  induction fuel, enough using Nat.le_induction with
  | base => rfl
  | succ fuel enough ih => exact ((suffices_of_fuel fuel).pair enough).trans ih

theorem readKey_eq_of_enough {fuel : Nat} (enough : text.length ≤ fuel)
    : readKey fuel text = readKey text.length text := by
  induction fuel, enough using Nat.le_induction with
  | base => rfl
  | succ fuel enough ih => exact (readKey_succ enough).trans ih

-----------------------------------------------------------------------------------------
-- Lines
-----------------------------------------------------------------------------------------

theorem skipComment_suffix (read : skipComment text = .ok rest)
    : rest <:+ text := by
  rw [skipComment.eq_def] at read
  split at read
  · next after =>
      have behind := List.dropWhile_suffix (l := after) isPlain
      refine .trans ?_ (List.suffix_cons _ _)
      split at read
      · cases read
        exact List.nil_suffix
      · next same =>
          split at read <;> cases read
          exact same ▸ behind
  · cases read
    exact List.suffix_rfl

namespace Draft

variable {draft draft' : Draft}

theorem readLine_suffix (read : draft.readLine text = .ok (draft', rest))
    : rest <:+ text := by
  rw [readLine.eq_def] at read
  split at read
  · next after =>
      obtain ⟨⟨key, behind⟩, named, read⟩ := bind_eq_ok_iff.mp read
      have left := (readKey_suffix named).trans (skipGap_suffix after)
      split at read
      · next same =>
          cases same
          obtain ⟨_, _, same⟩ := bind_eq_ok_iff.mp read
          cases same
          exact (suffix_of_cons (suffix_of_cons left)).trans ⟨[_, _], rfl⟩
      · cases read
  · next after _ =>
      obtain ⟨⟨key, behind⟩, named, read⟩ := bind_eq_ok_iff.mp read
      have left := (readKey_suffix named).trans (skipGap_suffix after)
      split at read
      · next same =>
          cases same
          obtain ⟨_, _, same⟩ := bind_eq_ok_iff.mp read
          cases same
          exact (suffix_of_cons left).trans (List.suffix_cons _ _)
      · cases read
  · obtain ⟨⟨key, value, behind⟩, pair, read⟩ := bind_eq_ok_iff.mp read
    obtain ⟨_, _, same⟩ := bind_eq_ok_iff.mp read
    cases same
    exact (leavesRest _).pair pair

/-- Each line takes a unit of fuel, and a newline stands in front of the next one. -/
theorem readLines_succ {fuel : Nat} (enough : text.length < fuel)
    : draft.readLines (fuel + 1) text = draft.readLines fuel text := by
  induction fuel generalizing draft text with
  | zero => omega
  | succ fuel ih =>
      have further {draft' : Draft} {behind start : List Char} (left : behind <:+ text)
          (skipped : skipComment (skipGap behind) = .ok ('\n' :: start))
          : draft'.readLines (fuel + 1) start = draft'.readLines fuel start := by
        have shorter :=
          ((skipComment_suffix skipped).trans ((skipGap_suffix behind).trans left)).length_le
        rw [List.length_cons] at shorter
        exact ih (by omega)
      rw [readLines, readLines]
      -- whether there is anything on the line decides only what is left of it
      split <;>
        refine bind_congr_ok fun (draft', behind) line => bind_congr_ok fun after skipped => ?_
      · cases line
        split
        · rfl
        · exact further (skipGap_suffix text) skipped
        · rfl
      · split
        · rfl
        · exact further ((readLine_suffix line).trans (skipGap_suffix text)) skipped
        · rfl

end Draft

/-- More fuel than a document has characters makes no difference. -/
theorem readLines_eq_read {text : String} {fuel : Nat} (enough : text.toList.length < fuel)
    : Draft.empty.readLines fuel text.toList = read text := by
  induction fuel, enough using Nat.le_induction with
  | base => rfl
  | succ fuel enough ih => exact (Draft.readLines_succ enough).trans ih

end RegisterMachine.Toml
