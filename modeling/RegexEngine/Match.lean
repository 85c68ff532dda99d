import RegexEngine.Pattern.Node
import RegexEngine.Text.Cursor

/-!
# Matches

Where a pattern matches a text, and what its groups hold there.
-/

namespace RegexEngine

/-- A match: the whole stretch and the stretches of the capturing groups, numbered from 1. A group
that took no part has none. -/
structure Match where
  whole : Span
  groups : Vector (Option Span) maxGroups
deriving Repr, DecidableEq

namespace Match

/-- The stretch of a group; number 0 is the whole match. -/
def group? (m : Match) : Nat → Option Span
  | 0 => some m.whole
  | i + 1 => m.groups[i]?.join

end Match

end RegexEngine
