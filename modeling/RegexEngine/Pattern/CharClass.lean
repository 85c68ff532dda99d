import RegexEngine.Text.CaseMapping

/-!
# Character classes

The sets of characters that a bracketed class or a shorthand such as `\d` stands for. Shorthands
speak of ASCII alone; when case is ignored, a character belongs to a class if it or one of its two
case forms does, and only then is the class's own negation applied.
-/

namespace RegexEngine

inductive Shorthand where
  | digit
  | word
  | space
deriving Repr, DecidableEq

namespace Shorthand

/-- Decimal digits; letters, digits and the underscore; blanks and line ends. -/
def contains : Shorthand → Char → Bool
  | .digit, c => c.isDigit
  | .word, c => c.isAlphanum || c == '_'
  | .space, c => c == ' ' || c == '\t' || c == '\n' || c == '\x0b' || c == '\x0c' || c == '\r'

end Shorthand

inductive ClassItem where
  /-- All characters from `lo` to `hi`, both included. -/
  | range (lo hi : Char)
  /-- A named set, or all characters outside it. -/
  | shorthand (set : Shorthand) (negated : Bool)
deriving Repr, DecidableEq

namespace ClassItem

def single (c : Char) : ClassItem := .range c c

def contains : ClassItem → Char → Bool
  | .range lo hi, c => lo ≤ c && c ≤ hi
  | .shorthand set negated, c => set.contains c != negated

end ClassItem

/-- A set of characters: the union of its items, or what lies outside it. -/
structure CharClass where
  items : List ClassItem
  negated : Bool
deriving Repr, DecidableEq

namespace CharClass

/-- Whether some item holds the character itself. -/
def lists (cls : CharClass) (c : Char) : Bool :=
  cls.items.any (·.contains c)

/-- Whether some item holds the character or, if case is ignored, one of its case forms. -/
def covers (cls : CharClass) (ignoreCase : Bool) (c : Char) : Bool :=
  cls.lists c ||
    (ignoreCase && (cls.lists (CaseMapping.lower c) || cls.lists (CaseMapping.upper c)))

def accepts (cls : CharClass) (ignoreCase : Bool) (c : Char) : Bool :=
  cls.covers ignoreCase c != cls.negated

end CharClass

end RegexEngine
