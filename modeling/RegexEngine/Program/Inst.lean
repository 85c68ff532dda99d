import RegexEngine.Pattern.CharClass

/-!
# Programs

What a pattern is compiled to: a list of instructions for a machine with one position in a text,
slots for the ends of groups and registers for the rounds of loops.
-/

namespace RegexEngine

/-- An instruction. Unless it says otherwise the machine goes on with the next one. -/
inductive Inst where
  | char (c : Char)
  | oneOf (cls : CharClass)
  | any
  /-- Go on at `first`; should that fail, at `second`. -/
  | split (first second : Nat)
  | jump (target : Nat)
  /-- Note the position in a slot. Slot `2 * i` begins group `i` and slot `2 * i + 1` ends it. -/
  | save (slot : Nat)
  /-- Fail unless at the start of the text. -/
  | atStart
  /-- Fail unless at the end of the text. -/
  | atEnd
  /-- Test what follows, up to the matching `leave`, without moving; `resume` comes after it. -/
  | enter (positive : Bool) (resume : Nat)
  /-- The body of a test has succeeded. -/
  | leave
  /-- Read the text that a group holds. -/
  | backreference (index : Nat)
  /-- Note the position in a register. -/
  | mark (register : Nat)
  /-- Fail if the position is the one noted in the register. -/
  | check (register : Nat)
  | accept
deriving Repr, DecidableEq

/-- A program and what a search has to know about it. -/
structure Program where
  code : Array Inst
  groups : Nat
  /-- How many registers `mark` and `check` use. -/
  registers : Nat
  /-- Whether characters are compared without regard to case. -/
  ignoreCase : Bool
  /-- Only the start of the text can match. -/
  anchored : Bool
deriving Repr, DecidableEq

end RegexEngine
