import RegisterMachine.Digits
import RegisterMachine.Text.Unprintable

/-! Quoted form of a text, in which every character is visible.
The delimiter is the single quote unless the text holds one and no double quote.
-/

namespace RegisterMachine.Text

def singleQuote : Char := '\x27'

def doubleQuote : Char := '\x22'

/-- The escape mark. -/
def backslash : Char := '\x5c'

/-- A hexadecimal escape is as short as the code point allows: two, four or eight digits. -/
def hexEscape (c : Char) : List Char :=
  let n := c.toNat
  if n < 0x100 then backslash :: 'x' :: Digits.padded 16 2 n
  else if n < 0x10000 then backslash :: 'u' :: Digits.padded 16 4 n
  else backslash :: 'U' :: Digits.padded 16 8 n

/-- One character between delimiters: the delimiter and the escape mark are escaped, the common
controls have letters, other unprintable characters have their code points. -/
def quoteChar (delimiter c : Char) : List Char :=
  if c = delimiter ∨ c = backslash then [backslash, c]
  else if c = '\n' then [backslash, 'n']
  else if c = '\r' then [backslash, 'r']
  else if c = '\t' then [backslash, 't']
  else if unprintable.contains c then hexEscape c
  else [c]

/-- The delimiter that needs fewer escapes in a text, the single quote by preference. -/
def delimiterOf (text : List Char) : Char :=
  if text.contains singleQuote && !text.contains doubleQuote then doubleQuote else singleQuote

/-- The quoted form of a text, delimiters included. -/
def quote (text : List Char) : List Char :=
  let delimiter := delimiterOf text
  delimiter :: (text.flatMap (quoteChar delimiter) ++ [delimiter])

end RegisterMachine.Text
