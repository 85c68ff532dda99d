import RegexEngine.Pattern.CharClass

/-!
# Patterns as trees

What a pattern says, freed from how it is written. `Node.nullable` over-approximates the nodes that
can succeed without reading a character.
-/

namespace RegexEngine

/-- The highest number a capturing group may carry. -/
def maxGroups : Nat := 9

/-- How often something is repeated, and whether more rounds are tried before fewer. -/
structure Quantifier where
  min : Nat
  /-- None stands for no bound. -/
  max : Option Nat
  greedy : Bool
deriving Repr, DecidableEq

inductive Node where
  | char (c : Char)
  /-- Any character but the line feed. -/
  | any
  | oneOf (cls : CharClass)
  | sequence (parts : List Node)
  /-- The first branch that leads to success. -/
  | choice (branches : List Node)
  | repeated (body : Node) (quantifier : Quantifier)
  /-- A group that holds its parts together. -/
  | group (body : Node)
  /-- A group whose latest stretch of text is remembered under its index. -/
  | capture (index : Nat) (body : Node)
  /-- The text that the capturing group of that index holds. -/
  | backreference (index : Nat)
  | atStart
  | atEnd
  /-- A test whether the body matches from here on, or does not; it reads nothing. -/
  | look (positive : Bool) (body : Node)
deriving Repr, Inhabited

namespace Node

mutual

/-- Whether the node can succeed without reading a character. A backreference counts, since what it
refers to may be empty. -/
def nullable : Node → Bool
  | char _ | any | oneOf _ => false
  | sequence parts => allNullable parts
  | choice branches => anyNullable branches
  | repeated body quantifier => quantifier.min == 0 || nullable body
  | group body | capture _ body => nullable body
  | backreference _ | atStart | atEnd | look _ _ => true

def allNullable : List Node → Bool
  | [] => true
  | node :: nodes => nullable node && allNullable nodes

def anyNullable : List Node → Bool
  | [] => false
  | node :: nodes => nullable node || anyNullable nodes

end

theorem allNullable_eq_all (nodes : List Node) : allNullable nodes = nodes.all nullable := by
  induction nodes with
  | nil => rfl
  | cons node nodes ih => simp [allNullable, ih]

theorem anyNullable_eq_any (nodes : List Node) : anyNullable nodes = nodes.any nullable := by
  induction nodes with
  | nil => rfl
  | cons node nodes ih => simp [anyNullable, ih]

/-- Tests of a position are not repeated; everything else may be. -/
def repeatable : Node → Bool
  | atStart | atEnd | look _ _ => false
  | _ => true

end Node

/-- A whole pattern: its tree and how many capturing groups it has. -/
structure Pattern where
  root : Node
  groups : Nat
deriving Repr

end RegexEngine
