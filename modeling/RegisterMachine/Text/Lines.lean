/-! Lines of a text, and texts as byte strings.
Every line ends with a terminator, except that the last one may lack it; a carriage return with
a line feed after it is one terminator.
-/

namespace RegisterMachine.Text

/-- Line terminators: line feed, vertical tab, form feed, carriage return, the three separator
controls, next line, and the line and paragraph separators. -/
def isLineTerminator (c : Char) : Bool :=
  let n := c.toNat
  (0x0a ≤ n && n ≤ 0x0d) || (0x1c ≤ n && n ≤ 0x1e) || n == 0x85 || n == 0x2028 || n == 0x2029

/-- The lines of a text without their terminators. A terminator at the end starts no line. -/
def splitLines : List Char → List (List Char)
  | [] => []
  | '\r' :: '\n' :: rest => [] :: splitLines rest
  | c :: rest =>
      if isLineTerminator c then
        [] :: splitLines rest
      else
        match splitLines rest with
        | [] => [[c]]
        | line :: lines => (c :: line) :: lines

/-- Writes each carriage return, with the line feed after it if there is one, as a line feed. -/
def unifyNewlines : List Char → List Char
  | [] => []
  | '\r' :: '\n' :: rest => '\n' :: unifyNewlines rest
  | c :: rest => (if c = '\r' then '\n' else c) :: unifyNewlines rest

/-- The lines of a text whose only terminator is the line feed. -/
def splitLineFeeds : List Char → List (List Char)
  | [] => []
  | c :: rest =>
      if c = '\n' then
        [] :: splitLineFeeds rest
      else
        match splitLineFeeds rest with
        | [] => [[c]]
        | line :: lines => (c :: line) :: lines

/-- Each line followed by a line feed. -/
def unlines (lines : List String) : String :=
  String.ofList (lines.flatMap fun line => line.toList ++ ['\n'])

theorem toList_unlines (lines : List String)
    : (unlines lines).toList = lines.flatMap fun line => line.toList ++ ['\n'] := by
  simp [unlines]

theorem unlines_append (first second : List String)
    : unlines (first ++ second) = unlines first ++ unlines second := by
  simp [unlines, List.flatMap_append, String.ofList_append]

/-- The text that a byte string encodes, if it is valid UTF-8. A byte order mark is a character
like any other. -/
def decodeUtf8? (bytes : List UInt8) : Option String :=
  String.fromUTF8? ⟨bytes.toArray⟩

/-- The byte string that encodes a text. -/
def encodeUtf8 (text : String) : List UInt8 :=
  text.toUTF8.data.toList

end RegisterMachine.Text
