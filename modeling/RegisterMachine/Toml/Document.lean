import RegisterMachine.Toml.Scalars

/-! Documents: tables of named values, in the format TOML 1.0.
A document is a sequence of lines: a key with a value, the header of a table, or the header of a
further table of an array. A key may name a path through tables. Each name is given once: a table is
opened by one header, and what a line or an inline table defines is not extended later.

Values may be nested to any depth; a bound that a platform sets is left out. Fuel bounds the steps
of the readers, and twice the length of a text is enough.
-/

namespace RegisterMachine.Toml

/-- The names on a path through tables. -/
abbrev Key := List String

/-- The rest of a line that holds no more than a comment. -/
def skipComment (text : List Char) : Except DecodeError (List Char) :=
  match text with
  | '#' :: rest =>
      match rest.dropWhile isPlain with
      | [] => .ok []
      | c :: after => if c = '\n' then .ok (c :: after) else .error .malformed
  | text => .ok text

/-- Skips blanks, newlines and comments between the elements of an array. -/
def skipFiller (inComment : Bool) : List Char → Except DecodeError (List Char)
  | [] => .ok []
  | c :: rest =>
      if c = '\n' then skipFiller false rest
      else if inComment then
        if isPlain c then skipFiller true rest else .error .malformed
      else if isGap c then skipFiller false rest
      else if c = '#' then skipFiller true rest
      else .ok (c :: rest)

/-- A character of a name without quotes. -/
def isBare (c : Char) : Bool :=
  c.isAlphanum || c == '_' || c == '-'

/-- One name of a key. -/
def readName : Reader String := fun text =>
  match text.takeWhile isBare with
  | [] => (ofOption (readQuoted? text)).map fun (name, rest) => (String.ofList name, rest)
  | name => .ok (String.ofList name, text.dropWhile isBare)

/-- Names with dots between them, and the blanks behind them. -/
def readKey : (fuel : Nat) → Reader Key
  | 0, _ => .error .malformed
  | fuel + 1, text => do
      let (name, rest) ← readName text
      match skipGap rest with
      | '.' :: rest => do
          let (key, rest) ← readKey fuel (skipGap rest)
          return (name :: key, rest)
      | rest => return ([name], rest)

/-- Changes the table at the end of a path; tables on the way that are missing are made. Only a
header leads into the last table of an array. -/
def update? (intoArrays : Bool) (change : Table → Option Table) : Key → Table → Option Table
  | [], table => change table
  | name :: key, table =>
      let put (value : Value) : Table :=
        table.map fun entry => if entry.1 = name then (name, value) else entry
      match table.lookup name with
      | none =>
          (update? intoArrays change key []).map fun nested => table ++ [(name, .table nested)]
      | some (.table nested) =>
          (update? intoArrays change key nested).map fun nested => put (.table nested)
      | some (.array elements) =>
          match elements.getLast? with
          | some (.table nested) =>
              if intoArrays then
                (update? intoArrays change key nested).map fun nested =>
                  put (.array (elements.dropLast ++ [.table nested]))
              else
                none
          | _ => none
      | some _ => none

/-- Adds a value under a new name. -/
def define? (name : String) (value : Value) (table : Table) : Option Table :=
  match table.lookup name with
  | none => some (table ++ [(name, value)])
  | some _ => none

/-- Adds an empty table to the array with a name. -/
def appendTable? (name : String) (table : Table) : Option Table :=
  match table.lookup name with
  | none => some (table ++ [(name, .array [.table []])])
  | some (.array elements) =>
      some <| table.map fun entry =>
        if entry.1 = name then (name, .array (elements ++ [.table []])) else entry
  | some _ => none

/-- Defines the value at a key. -/
def insert? (intoArrays : Bool) (parent key : Key) (value : Value) (table : Table)
    : Option Table :=
  update? intoArrays (define? (key.getLastD "") value) (parent ++ key.dropLast) table

/-- Some part of a path leads into a value that was defined as a whole. -/
def isFrozen (frozen : List Key) (key : Key) : Bool :=
  frozen.any fun path => path.isPrefixOf key

/-- Arrays and inline tables are not extended after their definition. -/
def Value.isWhole : Value → Bool
  | .array _ | .table _ => true
  | _ => false

mutual

def readValue : (fuel : Nat) → Reader Value
  | 0, _ => .error .malformed
  | fuel + 1, text =>
      match text with
      | '[' :: rest => do
          let (elements, rest) ← readElements fuel (← skipFiller false rest)
          return (.array elements, rest)
      | '{' :: rest =>
          match skipGap rest with
          | '}' :: rest => .ok (.table [], rest)
          | start => do
              let (table, rest) ← readInline fuel [] [] start
              return (.table table, rest)
      | text => readScalar text

/-- The elements of an array up to its closing bracket. -/
def readElements : (fuel : Nat) → Reader (List Value)
  | 0, _ => .error .malformed
  | fuel + 1, text =>
      match text with
      | ']' :: rest => .ok ([], rest)
      | text => do
          let (value, rest) ← readValue fuel text
          match ← skipFiller false rest with
          | ']' :: rest => return ([value], rest)
          | ',' :: rest => do
              let (values, rest) ← readElements fuel (← skipFiller false rest)
              return (value :: values, rest)
          | _ => .error .malformed

/-- The values of an inline table up to its closing brace, after those that it has already. -/
def readInline : (fuel : Nat) → Table → List Key → Reader Table
  | 0, _, _, _ => .error .malformed
  | fuel + 1, table, frozen, text => do
      let (key, value, rest) ← readPair fuel text
      if isFrozen frozen key then
        .error .malformed
      else
        let table ← ofOption (insert? false [] key value table)
        match skipGap rest with
        | '}' :: rest => return (table, rest)
        | ',' :: rest =>
            readInline fuel table (if value.isWhole then key :: frozen else frozen) (skipGap rest)
        | _ => .error .malformed

/-- A key, an equals sign, and a value. -/
def readPair : (fuel : Nat) → List Char → Except DecodeError (Key × Value × List Char)
  | 0, _ => .error .malformed
  | fuel + 1, text => do
      match ← readKey text.length text with
      | (key, '=' :: rest) => do
          let (value, rest) ← readValue fuel (skipGap rest)
          return (key, value, rest)
      | _ => .error .malformed

end

/-- A document as far as it has been read: its values, the table of the last header, the paths of
values that were defined as a whole, the paths of tables that no header opens any more, and those
that none will open after the next header. -/
structure Draft where
  values : Table
  header : Key
  frozen : List Key
  declared : List Key
  pending : List Key

namespace Draft

def empty : Draft :=
  ⟨[], [], [], [], []⟩

/-- The tables named by the keys of the last section are closed. -/
def settle (draft : Draft) : Draft :=
  { draft with declared := draft.pending ++ draft.declared, pending := [] }

/-- Opens a table. -/
def openTable? (draft : Draft) (key : Key) : Option Draft := do
  guard (!draft.declared.contains key && !isFrozen draft.frozen key)
  let values ← update? true some key draft.values
  return { draft with values := values, header := key, declared := key :: draft.declared }

/-- Opens a further table of an array. What was said about its earlier tables no longer counts. -/
def openElement? (draft : Draft) (key : Key) : Option Draft := do
  guard (!isFrozen draft.frozen key)
  let values ← update? true (appendTable? (key.getLastD "")) key.dropLast draft.values
  return {
    draft with
    values := values
    header := key
    frozen := draft.frozen.filter fun path => !key.isPrefixOf path
    declared := key :: draft.declared.filter fun path => !key.isPrefixOf path
  }

/-- The paths of the tables that a key leads through below the table of the last header. -/
def pathsOf (draft : Draft) (key : Key) : List Key :=
  (List.range (key.length - 1)).map fun n => draft.header ++ key.take (n + 1)

/-- Defines a value in the table of the last header. -/
def define? (draft : Draft) (key : Key) (value : Value) : Option Draft := do
  let paths := draft.pathsOf key
  guard (!paths.any draft.declared.contains)
  guard (!isFrozen draft.frozen (draft.header ++ key.dropLast))
  let values ← insert? true draft.header key value draft.values
  return {
    draft with
    values := values
    frozen := if value.isWhole then (draft.header ++ key) :: draft.frozen else draft.frozen
    pending := paths ++ draft.pending
  }

/-- Reads the header of a table or of an element of an array, or a key with a value. -/
def readLine (draft : Draft) (text : List Char) : Except DecodeError (Draft × List Char) :=
  match text with
  | '[' :: '[' :: rest => do
      match ← readKey rest.length (skipGap rest) with
      | (key, ']' :: ']' :: rest) => return (← ofOption (draft.settle.openElement? key), rest)
      | _ => .error .malformed
  | '[' :: rest => do
      match ← readKey rest.length (skipGap rest) with
      | (key, ']' :: rest) => return (← ofOption (draft.settle.openTable? key), rest)
      | _ => .error .malformed
  | text => do
      let (key, value, rest) ← readPair (2 * text.length + 2) text
      return (← ofOption (draft.define? key value), rest)

/-- Reads the lines of a text, and gives the values at its end. -/
def readLines : (fuel : Nat) → Draft → List Char → Except DecodeError Table
  | 0, _, _ => .error .malformed
  | fuel + 1, draft, text => do
      let start := skipGap text
      let (draft, rest) ←
        if start = [] ∨ start.head? = some '\n' ∨ start.head? = some '#' then
          .ok (draft, start)
        else
          draft.readLine start
      match ← skipComment (skipGap rest) with
      | [] => return draft.values
      | '\n' :: rest => readLines fuel draft rest
      | _ => .error .malformed

end Draft

/-- The values of a document. -/
def read (text : String) : Except DecodeError Table :=
  Draft.empty.readLines (text.toList.length + 1) text.toList

end RegisterMachine.Toml
