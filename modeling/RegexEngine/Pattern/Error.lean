import RegexEngine.Text.Quoted

/-!
# What can be wrong with a pattern

A fault has a cause and the byte offset in the pattern that shows it.
-/

namespace RegexEngine

namespace PatternError

inductive Cause where
  | unclosedGroup
  /-- A closing parenthesis has no group to close. -/
  | strayClose
  | reversedRange (lo hi : Char)
  /-- A quantifier has nothing before it that can be repeated. -/
  | danglingQuantifier
  | tooManyGroups
  /-- A backreference names a group that the pattern does not have. -/
  | unknownBackreference (index : Nat)
  /-- A backslash stands before a character that has no such meaning. -/
  | unknownEscape (c : Char)
  | incompleteEscape
  | unclosedClass
  /-- The bounds between braces cannot be read, are too large or in the wrong order. -/
  | badRepetition
  /-- A group opens in a way that has no meaning. -/
  | unknownGroup
  /-- The program for the pattern, or the work to write it, would be too large. -/
  | tooLarge
deriving Repr, DecidableEq

def Cause.message : Cause → String
  | .unclosedGroup => "unmatched '('"
  | .strayClose => "unmatched ')'"
  | .reversedRange lo hi => "invalid character range " ++ Quoted.char lo ++ "-" ++ Quoted.char hi
  | .danglingQuantifier => "quantifier has nothing to repeat"
  | .tooManyGroups => "more than 9 capturing groups"
  | .unknownBackreference index => "invalid backreference \\" ++ toString index
  | .unknownEscape c => "invalid escape sequence \\" ++ c.toString
  | .incompleteEscape => "incomplete escape sequence"
  | .unclosedClass => "unterminated character class"
  | .badRepetition => "invalid counted repetition"
  | .unknownGroup => "unknown group construct after '(?'"
  | .tooLarge => "compiled pattern is too large"

end PatternError

/-- A fault in a pattern and the byte offset that shows it. -/
structure PatternError where
  cause : PatternError.Cause
  offset : Nat
deriving Repr, DecidableEq

def PatternError.message (e : PatternError) : String :=
  "syntax error at offset " ++ toString e.offset ++ ": " ++ e.cause.message

end RegexEngine
