import RegexEngine.Text.Visibility

/-!
# Quoted text in messages

A character or a text between quotation marks, written so that every character shows: the common
controls have short escapes, the mark in use and the backslash are escaped, and a character without
a shape of its own is given by its number.
-/

namespace RegexEngine.Quoted

/-- A character without a shape, by its number in hexadecimal. -/
def byNumber (c : Char) : List Char :=
  ['\\', 'u', '{'] ++ Nat.toDigits 16 c.toNat ++ ['}']

/-- How one character is written between two `mark`s. -/
def encode (mark c : Char) : List Char :=
  if c = '\x00' then ['\\', '0']
  else if c = '\t' then ['\\', 't']
  else if c = '\r' then ['\\', 'r']
  else if c = '\n' then ['\\', 'n']
  else if c = '\\' ∨ c = mark then ['\\', c]
  else if Visibility.isVisible c then [c]
  else byNumber c

def char (c : Char) : String :=
  String.ofList ('\'' :: encode '\'' c ++ ['\''])

def text (s : String) : String :=
  String.ofList ('"' :: s.toList.flatMap (encode '"') ++ ['"'])

end RegexEngine.Quoted
