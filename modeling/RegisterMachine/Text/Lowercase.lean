import RegisterMachine.Text.LetterCase

/-! Lower-case form of a text.
Two letters do not map by themselves alone: the dotted capital I becomes two characters, and the
capital sigma has a form for the end of a word.
-/

namespace RegisterMachine.Text

/-- The first character that is not passed over has a case. -/
def facesCased (text : List Char) : Bool :=
  match text.find? fun c => !caseIgnorable.contains c with
  | some c => cased.contains c
  | none => false

/-- The lower-case form of a character between the text before it, nearest character first, and
the text after it. A sigma ends a word when it has a cased character behind it and none ahead. -/
def lowerBetween (before : List Char) (c : Char) (after : List Char) : List Char :=
  if c = '\u03a3' then
    [if facesCased before && !facesCased after then '\u03c2' else '\u03c3']
  else if c = '\u0130' then
    ['i', '\u0307']
  else
    [lowerChar c]

/-- The lower-case form of the rest of a text, given what stands before it in reverse. -/
def lowerAfter (before : List Char) : List Char → List Char
  | [] => []
  | c :: rest => lowerBetween before c rest ++ lowerAfter (c :: before) rest

/-- The lower-case form of a text. -/
def lowercase (text : List Char) : List Char :=
  lowerAfter [] text

end RegisterMachine.Text
