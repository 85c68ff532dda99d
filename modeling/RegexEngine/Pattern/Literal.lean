/-!
# Literal text in patterns

Which characters mean something in a pattern, and how to write a text so that none of them does.
-/

namespace RegexEngine.Pattern

/-- The characters that mean something outside classes. -/
def metacharacters : List Char :=
  ['.', '*', '+', '?', '(', ')', '[', ']', '{', '}', '^', '$', '|', '\\']

/-- Whether a character means something outside classes. -/
def isMeta (c : Char) : Bool := metacharacters.contains c

/-- The pattern that stands for exactly these characters: each one with a meaning gets a
backslash. -/
def escapeChars (cs : List Char) : List Char :=
  cs.flatMap fun c => if isMeta c then ['\\', c] else [c]

def escape (text : String) : String := String.ofList (escapeChars text.toList)

end RegexEngine.Pattern
