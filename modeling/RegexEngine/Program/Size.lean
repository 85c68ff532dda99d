import RegexEngine.Pattern.Node

/-!
# How large a program gets

What can be said about the code of a node before it is written: whether there is any
(`Node.emitsNothing`) and how many instructions it takes (`Node.size`). `Node.shape` finds these
facts and `Node.nullable` in one pass over the node (`Node.shape_eq`).
-/

namespace RegexEngine

/-- How many instructions a repetition takes, if its body takes `body` and a round of a loop is
guarded by another `guard`: the required copies, then a loop with its split and its jump, or the
optional copies with a split each. -/
def Quantifier.codeSize (q : Quantifier) (body guard : Nat) : Nat :=
  q.min * body +
    match q.max with
    | none => body + guard + 2
    | some max => (max - q.min) * (body + 1)

/-- How many instructions guard the rounds of a loop: a mark and a check, if a round could read
nothing. -/
def guardSize (nullable : Bool) : Nat := if nullable then 2 else 0

namespace Node

mutual

/-- Whether the node is compiled to no instruction at all. -/
def emitsNothing : Node → Bool
  | sequence parts => allEmitNothing parts
  | group body => emitsNothing body
  | repeated body q => q.max == some 0 || emitsNothing body
  | _ => false

def allEmitNothing : List Node → Bool
  | [] => true
  | node :: nodes => emitsNothing node && allEmitNothing nodes

end

theorem allEmitNothing_eq_all (nodes : List Node) :
    allEmitNothing nodes = nodes.all emitsNothing := by
  induction nodes with
  | nil => rfl
  | cons node nodes ih => simp [allEmitNothing, ih]

mutual

def size : Node → Nat
  | char _ | any | oneOf _ | backreference _ | atStart | atEnd => 1
  | sequence parts => sequenceSize parts
  | choice branches => choiceSize branches
  | repeated body q =>
    if body.emitsNothing then 0 else q.codeSize (size body) (guardSize body.nullable)
  | group body => size body
  | capture _ body | look _ body => size body + 2

def sequenceSize : List Node → Nat
  | [] => 0
  | node :: nodes => size node + sequenceSize nodes

/-- How many instructions branches take: every branch but the last is preceded by a split and
followed by a jump. -/
def choiceSize : List Node → Nat
  | [] => 0
  | node :: nodes =>
    match nodes with
    | [] => size node
    | _ :: _ => size node + 2 + choiceSize nodes

end

end Node

/-! ## All in one pass -/

/-- What is known of a node's code before it is written. -/
structure Shape where
  size : Nat
  nullable : Bool
  emitsNothing : Bool
deriving Repr, DecidableEq

namespace Node

mutual

def shape : Node → Shape
  | char _ | any | oneOf _ => ⟨1, false, false⟩
  | backreference _ | atStart | atEnd => ⟨1, true, false⟩
  | sequence parts => sequenceShape parts
  | choice branches => choiceShape branches
  | repeated body q =>
    let inner := shape body
    ⟨if inner.emitsNothing then 0 else q.codeSize inner.size (guardSize inner.nullable),
     q.min == 0 || inner.nullable, q.max == some 0 || inner.emitsNothing⟩
  | group body => shape body
  | capture _ body =>
    let inner := shape body
    ⟨inner.size + 2, inner.nullable, false⟩
  | look _ body => ⟨(shape body).size + 2, true, false⟩

def sequenceShape : List Node → Shape
  | [] => ⟨0, true, true⟩
  | node :: nodes =>
    let first := shape node
    let others := sequenceShape nodes
    ⟨first.size + others.size, first.nullable && others.nullable,
     first.emitsNothing && others.emitsNothing⟩

def choiceShape : List Node → Shape
  | [] => ⟨0, false, false⟩
  | node :: nodes =>
    let first := shape node
    match nodes with
    | [] => ⟨first.size, first.nullable, false⟩
    | _ :: _ =>
      let others := choiceShape nodes
      ⟨first.size + 2 + others.size, first.nullable || others.nullable, false⟩

end

mutual

theorem shape_eq (node : Node) : node.shape = ⟨node.size, node.nullable, node.emitsNothing⟩ := by
  match node with
  | char _ | any | oneOf _ | backreference _ | atStart | atEnd => rfl
  | sequence parts => simp [shape, size, nullable, emitsNothing, sequenceShape_eq parts]
  | choice branches => simp [shape, size, nullable, emitsNothing, choiceShape_eq branches]
  | repeated body q => simp [shape, size, nullable, emitsNothing, shape_eq body]
  | group body => simp [shape, size, nullable, emitsNothing, shape_eq body]
  | capture _ body => simp [shape, size, nullable, emitsNothing, shape_eq body]
  | look _ body => simp [shape, size, nullable, emitsNothing, shape_eq body]

theorem sequenceShape_eq (nodes : List Node) :
    sequenceShape nodes = ⟨sequenceSize nodes, allNullable nodes, allEmitNothing nodes⟩ := by
  match nodes with
  | [] => rfl
  | node :: nodes =>
    simp [sequenceShape, sequenceSize, allNullable, allEmitNothing, shape_eq node,
      sequenceShape_eq nodes]

theorem choiceShape_eq (nodes : List Node) :
    choiceShape nodes = ⟨choiceSize nodes, anyNullable nodes, false⟩ := by
  match nodes with
  | [] => rfl
  | [node] => simp [choiceShape, choiceSize, anyNullable, shape_eq node]
  | node :: other :: nodes =>
    rw [choiceShape, choiceShape_eq (other :: nodes)]
    simp [choiceSize, anyNullable, shape_eq node]

end

end Node

end RegexEngine
