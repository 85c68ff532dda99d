import RegexEngine.Pattern.Node

/-!
# Groups and what refers to them

The numbers of the capturing groups of a tree, in the order in which the groups open, and the
numbers that its backreferences name.
-/

namespace RegexEngine.Node

mutual

/-- The numbers of the capturing groups, in the order in which they open. -/
def captures : Node → List Nat
  | sequence parts => capturesOfAll parts
  | choice branches => capturesOfAll branches
  | repeated body _ | group body | look _ body => captures body
  | capture index body => index :: captures body
  | char _ | any | oneOf _ | backreference _ | atStart | atEnd => []

def capturesOfAll : List Node → List Nat
  | [] => []
  | node :: nodes => captures node ++ capturesOfAll nodes

end

mutual

/-- The numbers that backreferences name, from left to right. -/
def references : Node → List Nat
  | sequence parts => referencesOfAll parts
  | choice branches => referencesOfAll branches
  | repeated body _ | group body | capture _ body | look _ body => references body
  | backreference index => [index]
  | char _ | any | oneOf _ | atStart | atEnd => []

def referencesOfAll : List Node → List Nat
  | [] => []
  | node :: nodes => references node ++ referencesOfAll nodes

end

theorem capturesOfAll_eq_flatMap (nodes : List Node) :
    capturesOfAll nodes = nodes.flatMap captures := by
  induction nodes with
  | nil => rfl
  | cons node nodes ih => rw [capturesOfAll, ih, List.flatMap_cons]

theorem referencesOfAll_eq_flatMap (nodes : List Node) :
    referencesOfAll nodes = nodes.flatMap references := by
  induction nodes with
  | nil => rfl
  | cons node nodes ih => rw [referencesOfAll, ih, List.flatMap_cons]

end RegexEngine.Node
