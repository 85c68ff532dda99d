import Mathlib
import RegexEngine.Proofs.Code.Attempts
import RegexEngine.Proofs.Code.Ceilings
import RegexEngine.Proofs.Code.Operands
import RegexEngine.Proofs.Search.FirstAnswer

/-!
# Code with more guards

A loop notes where each of its rounds began and checks that it has moved, if a round could read
nothing. A compiler that asks no questions would do so in every loop. `Node.blockWith` is the code
of a node under either policy, laid out as `Node.block` is: without the flag it is the same code
(`Node.blockWith_false`), and `Pattern.compileWith` without the flag is the compiler
(`Pattern.compileWith_false`). With the flag every loop that is written has its guard, which makes
the code longer and moves most of its addresses and registers.
-/

namespace RegexEngine

namespace Node

variable {always : Bool}

/-- Whether the rounds of a loop over this body are guarded: always, or if one could read
nothing. -/
def guards (always : Bool) (body : Node) : Bool := always || body.nullable

mutual

def sizeWith (always : Bool) : Node → Nat
  | char _ | any | oneOf _ | backreference _ | atStart | atEnd => 1
  | sequence parts => sequenceSizeWith always parts
  | choice branches => choiceSizeWith always branches
  | repeated body q =>
    if body.emitsNothing then 0
    else q.codeSize (sizeWith always body) (guardSize (body.guards always))
  | group body => sizeWith always body
  | capture _ body | look _ body => sizeWith always body + 2

def sequenceSizeWith (always : Bool) : List Node → Nat
  | [] => 0
  | node :: nodes => sizeWith always node + sequenceSizeWith always nodes

def choiceSizeWith (always : Bool) : List Node → Nat
  | [] => 0
  | node :: nodes =>
    match nodes with
    | [] => sizeWith always node
    | _ :: _ => sizeWith always node + 2 + choiceSizeWith always nodes

end

mutual

/-- How many registers the loops of a node use: one for each that is guarded. -/
def registersWith (always : Bool) : Node → Nat
  | sequence parts => registersOfAllWith always parts
  | choice branches => registersOfAllWith always branches
  | repeated body q =>
    if body.emitsNothing then 0
    else
      q.min * registersWith always body +
        match q.max with
        | none => registersWith always body + if body.guards always then 1 else 0
        | some max => (max - q.min) * registersWith always body
  | group body | capture _ body | look _ body => registersWith always body
  | _ => 0

def registersOfAllWith (always : Bool) : List Node → Nat
  | [] => 0
  | node :: nodes => registersWith always node + registersOfAllWith always nodes

end

mutual

/-- The code of a node that begins at `base` and uses registers from `register` on, with a guard in
every loop or only where one is needed. -/
def blockWith (always : Bool) (base register : Nat) : Node → List Inst
  | char c => [.char c]
  | any => [.any]
  | oneOf cls => [.oneOf cls]
  | backreference index => [.backreference index]
  | atStart => [.atStart]
  | atEnd => [.atEnd]
  | sequence parts => sequenceBlockWith always base register parts
  | choice branches =>
    choiceBlockWith always (base + choiceSizeWith always branches) base register branches
  | group body => blockWith always base register body
  | capture index body =>
    .save (2 * index) :: (blockWith always (base + 1) register body ++ [.save (2 * index + 1)])
  | look positive body =>
    .enter positive (base + body.sizeWith always + 2) ::
      (blockWith always (base + 1) register body ++ [.leave])
  | repeated body q =>
    let size := body.sizeWith always
    let registers := body.registersWith always
    if body.emitsNothing then []
    else
      copies (fun base register => blockWith always base register body) size registers q.min base
          register ++
        let base := base + q.min * size
        let register := register + q.min * registers
        match q.max with
        | some max =>
          let exit := base + (max - q.min) * (size + 1)
          copies
            (fun base register =>
              .choose q.greedy (base + 1) exit :: blockWith always (base + 1) register body)
            (size + 1) registers (max - q.min) base register
        | none =>
          .choose q.greedy (base + 1) (base + size + guardSize (body.guards always) + 2) ::
            if body.guards always then
              .mark register ::
                (blockWith always (base + 2) (register + 1) body ++ [.check register, .jump base])
            else
              blockWith always (base + 1) register body ++ [.jump base]

def sequenceBlockWith (always : Bool) (base register : Nat) : List Node → List Inst
  | [] => []
  | node :: nodes =>
    blockWith always base register node ++
      sequenceBlockWith always (base + node.sizeWith always) (register + node.registersWith always)
        nodes

def choiceBlockWith (always : Bool) (exit base register : Nat) : List Node → List Inst
  | [] => []
  | node :: nodes =>
    match nodes with
    | [] => blockWith always base register node
    | _ :: _ =>
      .split (base + 1) (base + node.sizeWith always + 2) ::
        (blockWith always (base + 1) register node ++ .jump exit ::
          choiceBlockWith always exit (base + node.sizeWith always + 2)
            (register + node.registersWith always) nodes)

end

/-! ## How long the code is -/

mutual

theorem length_blockWith (base register : Nat) (node : Node) :
    (node.blockWith always base register).length = node.sizeWith always := by
  match node with
  | char _ | any | oneOf _ | backreference _ | atStart | atEnd => rfl
  | sequence parts => rw [blockWith, sizeWith, length_sequenceBlockWith base register parts]
  | choice branches => rw [blockWith, sizeWith, length_choiceBlockWith _ base register branches]
  | group body => rw [blockWith, sizeWith, length_blockWith base register body]
  | capture _ body => simp [blockWith, sizeWith, length_blockWith _ register body]
  | look _ body => simp [blockWith, sizeWith, length_blockWith _ register body]
  | repeated body q =>
    have inner := fun base register => length_blockWith base register body
    rw [blockWith, sizeWith, Quantifier.codeSize]
    dsimp only
    split
    · rfl
    · rw [List.length_append, length_copies inner]
      cases q.max with
      | none =>
        dsimp only
        rw [List.length_cons, guardSize]
        split
        · rw [List.length_cons, List.length_append, inner]
          rfl
        · rw [List.length_append, inner]
          rfl
      | some max =>
        dsimp only
        rw [length_copies]
        intro base register
        rw [List.length_cons, inner]

theorem length_sequenceBlockWith (base register : Nat) (nodes : List Node) :
    (sequenceBlockWith always base register nodes).length = sequenceSizeWith always nodes := by
  match nodes with
  | [] => rfl
  | node :: nodes =>
    rw [sequenceBlockWith, sequenceSizeWith, List.length_append, length_blockWith _ _ node,
      length_sequenceBlockWith _ _ nodes]

theorem length_choiceBlockWith (exit base register : Nat) (nodes : List Node) :
    (choiceBlockWith always exit base register nodes).length = choiceSizeWith always nodes := by
  match nodes with
  | [] => rfl
  | [node] => rw [choiceBlockWith, choiceSizeWith, length_blockWith _ _ node]
  | node :: other :: nodes =>
    rw [choiceBlockWith, choiceSizeWith, List.length_cons, List.length_append, List.length_cons,
      length_blockWith _ _ node, length_choiceBlockWith _ _ _ (other :: nodes)]
    omega

end

/-! ## Guards where they are needed -/

theorem guards_false (body : Node) : body.guards false = body.nullable := rfl

mutual

theorem sizeWith_false (node : Node) : node.sizeWith false = node.size := by
  match node with
  | char _ | any | oneOf _ | backreference _ | atStart | atEnd => rfl
  | sequence parts => rw [sizeWith, size, sequenceSizeWith_false parts]
  | choice branches => rw [sizeWith, size, choiceSizeWith_false branches]
  | group body | capture _ body | look _ body => rw [sizeWith, size, sizeWith_false body]
  | repeated body q => rw [sizeWith, size, sizeWith_false body, guards_false]

theorem sequenceSizeWith_false (nodes : List Node) :
    sequenceSizeWith false nodes = sequenceSize nodes := by
  match nodes with
  | [] => rfl
  | node :: nodes =>
    rw [sequenceSizeWith, sequenceSize, sizeWith_false node, sequenceSizeWith_false nodes]

theorem choiceSizeWith_false (nodes : List Node) :
    choiceSizeWith false nodes = choiceSize nodes := by
  match nodes with
  | [] => rfl
  | [node] => exact sizeWith_false node
  | node :: other :: nodes =>
    rw [choiceSizeWith, choiceSize, sizeWith_false node, choiceSizeWith_false (other :: nodes)]

end

mutual

theorem registersWith_false (node : Node) : node.registersWith false = node.registers := by
  match node with
  | char _ | any | oneOf _ | backreference _ | atStart | atEnd => rfl
  | sequence parts => rw [registersWith, registers, registersOfAllWith_false parts]
  | choice branches => rw [registersWith, registers, registersOfAllWith_false branches]
  | group body | capture _ body | look _ body =>
    rw [registersWith, registers, registersWith_false body]
  | repeated body q =>
    rw [registersWith, registers, registersWith_false body]
    rfl

theorem registersOfAllWith_false (nodes : List Node) :
    registersOfAllWith false nodes = registersOfAll nodes := by
  match nodes with
  | [] => rfl
  | node :: nodes =>
    rw [registersOfAllWith, registersOfAll, registersWith_false node,
      registersOfAllWith_false nodes]

end

mutual

theorem blockWith_false (base register : Nat) (node : Node) :
    node.blockWith false base register = node.block base register := by
  match node with
  | char _ | any | oneOf _ | backreference _ | atStart | atEnd => rfl
  | sequence parts => rw [blockWith, block, sequenceBlockWith_false base register parts]
  | choice branches =>
    rw [blockWith, block, choiceSizeWith_false, choiceBlockWith_false _ base register branches]
  | group body => rw [blockWith, block, blockWith_false base register body]
  | capture _ body => rw [blockWith, block, blockWith_false _ register body]
  | look _ body => rw [blockWith, block, blockWith_false _ register body, sizeWith_false]
  | repeated body q =>
    have inner := fun base register => blockWith_false base register body
    simp only [blockWith, block, inner, sizeWith_false, registersWith_false]
    rfl

theorem sequenceBlockWith_false (base register : Nat) (nodes : List Node) :
    sequenceBlockWith false base register nodes = sequenceBlock base register nodes := by
  match nodes with
  | [] => rfl
  | node :: nodes =>
    rw [sequenceBlockWith, sequenceBlock, blockWith_false _ _ node, sizeWith_false,
      registersWith_false, sequenceBlockWith_false _ _ nodes]

theorem choiceBlockWith_false (exit base register : Nat) (nodes : List Node) :
    choiceBlockWith false exit base register nodes = choiceBlock exit base register nodes := by
  match nodes with
  | [] => rfl
  | [node] => exact blockWith_false base register node
  | node :: other :: nodes =>
    rw [choiceBlockWith, choiceBlock, blockWith_false _ _ node, sizeWith_false,
      registersWith_false, choiceBlockWith_false _ _ _ (other :: nodes)]

end

end Node

/-- What comes behind a node's block under either policy. -/
theorem Program.Holds.behindWith {program : Program} {always : Bool} {node : Node}
    {base entry register : Nat} {rest : List Inst}
    (h : program.Holds base (node.blockWith always entry register ++ rest)) :
    program.Holds (base + node.sizeWith always) rest := by
  have behind := h.right
  rwa [Node.length_blockWith] at behind

/-! ## Whole programs -/

namespace Pattern

/-- The program of a pattern with a guard in every loop that is written, or only in those that need
one. It is refused under the same ceilings as any program: for the code, and for the nodes that are
visited while it is written. -/
def compileWith (always : Bool) (pattern : Pattern) (ignoreCase : Bool) :
    Except PatternError Program :=
  let code := (pattern.root.blockWith always 0 0 ++ [Inst.accept]).toArray
  if code.size ≤ maxProgramLength ∧ pattern.root.visits ≤ maxCompileVisits then
    .ok {
      code
      groups := pattern.groups
      registers := pattern.root.registersWith always
      ignoreCase
      anchored := beginsAtStart code }
  else .error ⟨.tooLarge, 0⟩

variable {pattern : Pattern} {ignoreCase always : Bool} {program : Program}

theorem compileWith_false (pattern : Pattern) (ignoreCase : Bool) :
    pattern.compileWith false ignoreCase = pattern.compile ignoreCase := by
  have size : (pattern.root.block 0 0 ++ [Inst.accept]).toArray.size = pattern.root.size + 1 := by
    simp [Node.length_block]
  unfold compileWith
  dsimp only
  rw [Node.blockWith_false, Node.registersWith_false, size]
  rcases compile_cases pattern ignoreCase with ⟨⟨program, compiled⟩, fits⟩ | ⟨failed, above⟩
  · rw [if_pos fits, compiled]
    have code : program.code = (pattern.root.block 0 0 ++ [Inst.accept]).toArray := by
      rw [← code_of_compile compiled, Array.toArray_toList]
    rw [← code, ← registers_of_compile compiled, ← groups_of_compile compiled,
      ← ignoreCase_of_compile compiled, ← Program.anchored_of_compile compiled]
  · rw [if_neg (by omega), failed]

section

variable (h : pattern.compileWith always ignoreCase = .ok program)
include h

theorem program_of_compileWith :
    program.code = (pattern.root.blockWith always 0 0 ++ [Inst.accept]).toArray ∧
      program.registers = pattern.root.registersWith always ∧ program.ignoreCase = ignoreCase := by
  unfold compileWith at h
  dsimp only at h
  split at h
  · cases h
    exact ⟨rfl, rfl, rfl⟩
  · cases h

theorem holds_of_compileWith :
    program.Holds 0 (pattern.root.blockWith always 0 0 ++ [.accept]) := by
  intro i inst eq
  rw [Nat.zero_add, (program_of_compileWith h).1, List.getElem?_toArray]
  exact eq

end

end Pattern

end RegexEngine
