import RegexEngine.Pattern.Quantifier
import RegexEngine.Proofs.Patterns.Groups

/-!
# Trees in normal form

Many trees mean the same. The normal ones are those that a text can stand for: what a group encloses
is a branch or a choice of branches, the parts of a branch are atoms or repeated atoms, and the
capturing groups are numbered in the order in which they open.
-/

namespace RegexEngine

/-! ## Shapes -/

namespace Node

/-- Whether the node is a part of its own, neither made of other parts nor repeated. -/
def isAtom : Node → Bool
  | sequence _ | choice _ | repeated _ _ => false
  | _ => true

/-- Whether the node is an atom, or a repetition of one that may be repeated. -/
def isPart : Node → Bool
  | repeated body _ => body.isAtom && body.repeatable
  | node => node.isAtom

def isSequence : Node → Bool
  | sequence _ => true
  | _ => false

/-- Whether the node is a branch or a choice. -/
def isBody : Node → Bool
  | sequence _ | choice _ => true
  | _ => false

end Node

/-! ## Leaves -/

/-- Whether the bounds are in order and not too large. -/
def Quantifier.normal (q : Quantifier) : Bool :=
  decide (q.min ≤ maxBound) && q.max.all fun max => decide (q.min ≤ max) && decide (max ≤ maxBound)

/-- Whether the ends of a range are in order. -/
def ClassItem.normal : ClassItem → Bool
  | .range lo hi => decide (lo ≤ hi)
  | .shorthand _ _ => true

@[simp] theorem ClassItem.normal_single (c : Char) : (ClassItem.single c).normal = true :=
  decide_eq_true (Char.le_refl c)

def CharClass.normal (cls : CharClass) : Bool :=
  !cls.items.isEmpty && cls.items.all ClassItem.normal

/-! ## Trees -/

namespace Node

mutual

/-- Whether everything in the tree has the shape it should have at its place. -/
def normal : Node → Bool
  | sequence parts => parts.all isPart && allNormal parts
  | choice branches => decide (2 ≤ branches.length) && branches.all isSequence && allNormal branches
  | repeated body q => body.isAtom && body.repeatable && q.normal && normal body
  | group body | capture _ body | look _ body => body.isBody && normal body
  | oneOf cls => cls.normal
  | char _ | any | backreference _ | atStart | atEnd => true

def allNormal : List Node → Bool
  | [] => true
  | node :: nodes => normal node && allNormal nodes

end

end Node

/-- Says that a pattern is in normal form. -/
structure Pattern.Normal (pattern : Pattern) : Prop where
  body : pattern.root.isBody = true
  root : pattern.root.normal = true
  numbered : pattern.root.captures = List.range' 1 pattern.groups
  few : pattern.groups ≤ maxGroups
  known : ∀ i ∈ pattern.root.references, 1 ≤ i ∧ i ≤ pattern.groups

end RegexEngine
