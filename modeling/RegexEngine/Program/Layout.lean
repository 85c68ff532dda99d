import RegexEngine.Fallible
import RegexEngine.Program.Emitter

/-!
# The layout of code

`Node.block` says what code a node has where it begins at a given address and may use registers from
a given number on; nothing else has a say in it. Its length is the node's size
(`Node.length_block`), and writing a node, when it succeeds, appends exactly that block and hands
out exactly the node's registers (`Node.grows_emit`), so a compiled pattern's code is known
(`Pattern.code_of_compile`).
-/

namespace RegexEngine

/-- So many copies of a block, each `size` instructions and `registers` registers behind the one
before. -/
def copies (block : Nat → Nat → List Inst) (size registers : Nat) : Nat → Nat → Nat → List Inst
  | 0, _, _ => []
  | n + 1, base, register =>
    block base register ++ copies block size registers n (base + size) (register + registers)

theorem length_copies {block : Nat → Nat → List Inst} {size registers : Nat}
    (h : ∀ base register, (block base register).length = size) (n base register : Nat) :
    (copies block size registers n base register).length = n * size := by
  induction n generalizing base register with
  | zero => rw [copies, List.length_nil, Nat.zero_mul]
  | succ n ih => rw [copies, List.length_append, h, ih, Nat.succ_mul, Nat.add_comm]

namespace Node

mutual

/-- How many registers the loops of a node use, those of every copy included. -/
def registers : Node → Nat
  | sequence parts => registersOfAll parts
  | choice branches => registersOfAll branches
  | repeated body q =>
    if body.emitsNothing then 0
    else
      q.min * registers body +
        match q.max with
        | none => registers body + if body.nullable then 1 else 0
        | some max => (max - q.min) * registers body
  | group body | capture _ body | look _ body => registers body
  | _ => 0

def registersOfAll : List Node → Nat
  | [] => 0
  | node :: nodes => registers node + registersOfAll nodes

end

mutual

/-- The code of a node that begins at `base` and uses registers from `register` on. -/
def block (base register : Nat) : Node → List Inst
  | char c => [.char c]
  | any => [.any]
  | oneOf cls => [.oneOf cls]
  | backreference index => [.backreference index]
  | atStart => [.atStart]
  | atEnd => [.atEnd]
  | sequence parts => sequenceBlock base register parts
  | choice branches => choiceBlock (base + choiceSize branches) base register branches
  | group body => block base register body
  | capture index body =>
    .save (2 * index) :: (block (base + 1) register body ++ [.save (2 * index + 1)])
  | look positive body =>
    .enter positive (base + body.size + 2) :: (block (base + 1) register body ++ [.leave])
  | repeated body q =>
    if body.emitsNothing then []
    else
      copies (fun base register => block base register body) body.size body.registers q.min base
          register ++
        let base := base + q.min * body.size
        let register := register + q.min * body.registers
        match q.max with
        | some max =>
          let exit := base + (max - q.min) * (body.size + 1)
          copies
            (fun base register =>
              .choose q.greedy (base + 1) exit :: block (base + 1) register body)
            (body.size + 1) body.registers (max - q.min) base register
        | none =>
          .choose q.greedy (base + 1) (base + body.size + guardSize body.nullable + 2) ::
            if body.nullable then
              .mark register ::
                (block (base + 2) (register + 1) body ++ [.check register, .jump base])
            else
              block (base + 1) register body ++ [.jump base]

def sequenceBlock (base register : Nat) : List Node → List Inst
  | [] => []
  | node :: nodes =>
    block base register node ++
      sequenceBlock (base + node.size) (register + node.registers) nodes

/-- The code of branches that all go on at `exit`. -/
def choiceBlock (exit base register : Nat) : List Node → List Inst
  | [] => []
  | node :: nodes =>
    match nodes with
    | [] => block base register node
    | _ :: _ =>
      .split (base + 1) (base + node.size + 2) ::
        (block (base + 1) register node ++ .jump exit ::
          choiceBlock exit (base + node.size + 2) (register + node.registers) nodes)

end

/-! ## How long the code is -/

mutual

theorem length_block (base register : Nat) (node : Node) :
    (node.block base register).length = node.size := by
  match node with
  | char _ | any | oneOf _ | backreference _ | atStart | atEnd => rfl
  | sequence parts => rw [block, size, length_sequenceBlock base register parts]
  | choice branches => rw [block, size, length_choiceBlock _ base register branches]
  | group body => rw [block, size, length_block base register body]
  | capture _ body => simp [block, size, length_block _ register body]
  | look _ body => simp [block, size, length_block _ register body]
  | repeated body q =>
    have inner := fun base register => length_block base register body
    rw [block, size, Quantifier.codeSize]
    split
    · rfl
    · rw [List.length_append, length_copies inner]
      cases q.max with
      | none =>
        dsimp only
        rw [List.length_cons, guardSize]
        split
        · rw [List.length_cons, List.length_append, inner]
          rfl
        · rw [List.length_append, inner]
          rfl
      | some max =>
        dsimp only
        rw [length_copies]
        intro base register
        rw [List.length_cons, inner]

theorem length_sequenceBlock (base register : Nat) (nodes : List Node) :
    (sequenceBlock base register nodes).length = sequenceSize nodes := by
  match nodes with
  | [] => rfl
  | node :: nodes =>
    rw [sequenceBlock, sequenceSize, List.length_append, length_block _ _ node,
      length_sequenceBlock _ _ nodes]

theorem length_choiceBlock (exit base register : Nat) (nodes : List Node) :
    (choiceBlock exit base register nodes).length = choiceSize nodes := by
  match nodes with
  | [] => rfl
  | [node] => rw [choiceBlock, choiceSize, length_block _ _ node]
  | node :: other :: nodes =>
    rw [choiceBlock, choiceSize, List.length_cons, List.length_append, List.length_cons,
      length_block _ _ node, length_choiceBlock _ _ _ (other :: nodes)]
    omega

end

end Node

/-! ## What writing adds -/

namespace Emitter

/-- Says that `e'` is `e` with `added` behind its code and `count` more registers handed out. -/
structure Grows (e e' : Emitter) (added : List Inst) (count : Nat) : Prop where
  code : e'.code.toList = e.code.toList ++ added
  registers : e'.registers = e.registers + count

theorem Grows.pc {e e' : Emitter} {added : List Inst} {count : Nat}
    (h : Grows e e' added count) : e'.pc = e.pc + added.length := by
  rw [Emitter.pc, Emitter.pc, ← Array.length_toList, h.code, List.length_append,
    Array.length_toList]

theorem Grows.trans {e e' e'' : Emitter} {added added' : List Inst} {count count' : Nat}
    (h : Grows e e' added count) (h' : Grows e' e'' added' count') :
    Grows e e'' (added ++ added') (count + count') :=
  ⟨by rw [h'.code, h.code, List.append_assoc], by rw [h'.registers, h.registers, Nat.add_assoc]⟩

theorem grows_refl (e : Emitter) : Grows e e [] 0 := ⟨(List.append_nil _).symm, rfl⟩

theorem grows_visit {e e' : Emitter} (h : e.visit = .ok e') : Grows e e' [] 0 := by
  obtain ⟨-, rfl⟩ := visit_eq_ok_iff.1 h
  exact ⟨(List.append_nil _).symm, rfl⟩

theorem grows_push {e e' : Emitter} {inst : Inst} (h : e.push inst = .ok e') :
    Grows e e' [inst] 0 := by
  obtain ⟨-, rfl⟩ := push_eq_ok_iff.1 h
  exact ⟨Array.toList_push, rfl⟩

theorem grows_allocate (e : Emitter) : Grows e e.allocate [] 1 :=
  ⟨(List.append_nil _).symm, rfl⟩

theorem grows_times {e e' : Emitter} {write : Emitter → Except PatternError Emitter}
    (block : Nat → Nat → List Inst) (size registers : Nat)
    (length : ∀ base register, (block base register).length = size)
    (once : ∀ e e', write e = .ok e' → Grows e e' (block e.pc e.registers) registers)
    (n : Nat) (h : times write n e = .ok e') :
    Grows e e' (copies block size registers n e.pc e.registers) (n * registers) := by
  induction n generalizing e with
  | zero =>
    cases h
    rw [Nat.zero_mul]
    exact grows_refl _
  | succ n ih =>
    obtain ⟨next, h₁, h₂⟩ := bind_eq_ok_iff.1 h
    have first := once _ _ h₁
    have others := ih h₂
    rw [first.pc, length, first.registers] at others
    rw [Nat.succ_mul, Nat.add_comm (n * registers)]
    exact first.trans others

end Emitter

namespace Node

open Emitter

theorem grows_leaf {e e' : Emitter} {inst : Inst} (h : (do (← e.visit).push inst) = .ok e') :
    Grows e e' [inst] 0 := by
  obtain ⟨e₁, h₁, h⟩ := bind_eq_ok_iff.1 h
  exact (grows_visit h₁).trans (grows_push h)

mutual

/-- Writing a node appends its block and hands out its registers. -/
theorem grows_emit (node : Node) (e e' : Emitter) (h : node.emit e = .ok e') :
    Grows e e' (node.block e.pc e.registers) node.registers := by
  match node with
  | char _ | any | oneOf _ | backreference _ | atStart | atEnd => exact grows_leaf h
  | group body =>
    obtain ⟨e₁, h₁, h⟩ := bind_eq_ok_iff.1 h
    have visited := grows_visit h₁
    have inner := grows_emit body e₁ e' h
    rw [visited.pc, visited.registers] at inner
    simpa [block, registers] using visited.trans inner
  | sequence parts =>
    obtain ⟨e₁, h₁, h⟩ := bind_eq_ok_iff.1 h
    have visited := grows_visit h₁
    have inner := grows_emitSequence parts e₁ e' h
    rw [visited.pc, visited.registers] at inner
    simpa [block, registers] using visited.trans inner
  | choice branches =>
    obtain ⟨e₁, h₁, h⟩ := bind_eq_ok_iff.1 h
    have visited := grows_visit h₁
    have inner := grows_emitChoice _ branches e₁ e' h
    rw [visited.pc, visited.registers] at inner
    simpa [block, registers, choiceShape_eq] using visited.trans inner
  | capture index body =>
    obtain ⟨e₁, h₁, h⟩ := bind_eq_ok_iff.1 h
    obtain ⟨e₂, h₂, h⟩ := bind_eq_ok_iff.1 h
    obtain ⟨e₃, h₃, h⟩ := bind_eq_ok_iff.1 h
    have opened := (grows_visit h₁).trans (grows_push h₂)
    have inner := grows_emit body e₂ e₃ h₃
    rw [opened.pc, opened.registers] at inner
    simpa [block, registers] using (opened.trans inner).trans (grows_push h)
  | look positive body =>
    obtain ⟨e₁, h₁, h⟩ := bind_eq_ok_iff.1 h
    obtain ⟨e₂, h₂, h⟩ := bind_eq_ok_iff.1 h
    obtain ⟨e₃, h₃, h⟩ := bind_eq_ok_iff.1 h
    have visited := grows_visit h₁
    have opened := visited.trans (grows_push h₂)
    have inner := grows_emit body e₂ e₃ h₃
    rw [opened.pc, opened.registers] at inner
    simpa [block, registers, shape_eq, visited.pc] using
      (opened.trans inner).trans (grows_push h)
  | repeated body q =>
    have length := fun base register => length_block base register body
    have once := fun e e' => grows_emit body e e'
    obtain ⟨e₁, h₁, h⟩ := bind_eq_ok_iff.1 h
    have visited := grows_visit h₁
    simp only [shape_eq] at h
    simp only [block, registers]
    split at h
    · rename_i nothing
      cases h
      simpa [nothing] using visited
    · rename_i something
      simp only [something]
      obtain ⟨e₂, h₂, h⟩ := bind_eq_ok_iff.1 h
      have repeated := grows_times _ _ _ length once _ h₂
      rw [visited.pc, visited.registers] at repeated
      have required := visited.trans repeated
      have pc := required.pc
      have register := required.registers
      simp [length_copies length] at pc register
      split at h
      · rename_i max hm
        have optional := grows_times
          (fun base register =>
            .choose q.greedy (base + 1) (e₂.pc + (max - q.min) * (body.size + 1)) ::
              block (base + 1) register body)
          (body.size + 1) body.registers (by simp [length])
          (by
            intro e e' h
            obtain ⟨e₃, h₃, h⟩ := bind_eq_ok_iff.1 h
            have pushed := grows_push h₃
            have inner := once _ _ h
            rw [pushed.pc, pushed.registers] at inner
            simpa using pushed.trans inner)
          _ h
        rw [pc, register] at optional
        simpa [hm] using required.trans optional
      · rename_i hm
        obtain ⟨e₃, h₃, h⟩ := bind_eq_ok_iff.1 h
        have pushed := grows_push h₃
        split at h
        · rename_i nullable
          obtain ⟨e₄, h₄, h⟩ := bind_eq_ok_iff.1 h
          obtain ⟨e₅, h₅, h⟩ := bind_eq_ok_iff.1 h
          obtain ⟨e₆, h₆, h⟩ := bind_eq_ok_iff.1 h
          have opened := (pushed.trans (grows_allocate e₃)).trans (grows_push h₄)
          have inner := once _ _ h₅
          have openedPc := opened.pc
          have openedRegister := opened.registers
          have pushedRegister := pushed.registers
          simp at openedPc openedRegister pushedRegister
          have whole := required.trans
            ((opened.trans inner).trans ((grows_push h₆).trans (grows_push h)))
          rw [openedPc, openedRegister, pushedRegister, pc, register] at whole
          simpa [hm, nullable, Nat.add_comm] using whole
        · rename_i solid
          obtain ⟨e₄, h₄, h⟩ := bind_eq_ok_iff.1 h
          have inner := once _ _ h₄
          rw [pushed.pc, pushed.registers] at inner
          have whole := required.trans ((pushed.trans inner).trans (grows_push h))
          simp [pc, register] at whole
          simpa [hm, solid] using whole

theorem grows_emitSequence (nodes : List Node) (e e' : Emitter)
    (h : emitSequence nodes e = .ok e') :
    Grows e e' (sequenceBlock e.pc e.registers nodes) (registersOfAll nodes) := by
  match nodes with
  | [] =>
    cases h
    exact grows_refl _
  | node :: nodes =>
    obtain ⟨e₁, h₁, h⟩ := bind_eq_ok_iff.1 h
    have first := grows_emit node e e₁ h₁
    have others := grows_emitSequence nodes e₁ e' h
    rw [first.pc, first.registers, length_block] at others
    exact first.trans others

theorem grows_emitChoice (exit : Nat) (nodes : List Node) (e e' : Emitter)
    (h : emitChoice exit nodes e = .ok e') :
    Grows e e' (choiceBlock exit e.pc e.registers nodes) (registersOfAll nodes) := by
  match nodes with
  | [] =>
    cases h
    exact grows_refl _
  | [node] => simpa [choiceBlock, registersOfAll] using grows_emit node e e' h
  | node :: other :: nodes =>
    obtain ⟨e₁, h₁, h⟩ := bind_eq_ok_iff.1 h
    obtain ⟨e₂, h₂, h⟩ := bind_eq_ok_iff.1 h
    obtain ⟨e₃, h₃, h⟩ := bind_eq_ok_iff.1 h
    have opened := grows_push h₁
    have inner := grows_emit node _ _ h₂
    rw [opened.pc, opened.registers] at inner
    have first := (opened.trans inner).trans (grows_push h₃)
    have others := grows_emitChoice exit (other :: nodes) e₃ e' h
    rw [first.pc, first.registers] at others
    have whole := first.trans others
    rw [choiceBlock, registersOfAll]
    simp [length_block, shape_eq] at whole
    simp only [Nat.add_assoc] at whole ⊢
    exact whole

end

end Node

/-! ## Whole programs -/

namespace Pattern

theorem grows_of_compile {pattern : Pattern} {ignoreCase : Bool} {program : Program}
    (h : pattern.compile ignoreCase = .ok program) :
    program.code.toList = pattern.root.block 0 0 ++ [.accept] ∧
      program.registers = pattern.root.registers := by
  obtain ⟨e₁, h₁, h⟩ := bind_eq_ok_iff.1 h
  obtain ⟨e₂, h₂, h⟩ := bind_eq_ok_iff.1 h
  cases h
  have whole := (Node.grows_emit pattern.root .empty e₁ h₁).trans (Emitter.grows_push h₂)
  exact ⟨whole.code, whole.registers.trans (Nat.zero_add _)⟩

/-- A compiled pattern's code is its block at the first address, and `accept` behind it. -/
theorem code_of_compile {pattern : Pattern} {ignoreCase : Bool} {program : Program}
    (h : pattern.compile ignoreCase = .ok program) :
    program.code.toList = pattern.root.block 0 0 ++ [.accept] := (grows_of_compile h).1

theorem size_of_compile {pattern : Pattern} {ignoreCase : Bool} {program : Program}
    (h : pattern.compile ignoreCase = .ok program) :
    program.code.size = pattern.root.size + 1 := by
  rw [← Array.length_toList, code_of_compile h, List.length_append, Node.length_block,
    List.length_singleton]

/-- A compiled pattern has a register for every loop that could read nothing. -/
theorem registers_of_compile {pattern : Pattern} {ignoreCase : Bool} {program : Program}
    (h : pattern.compile ignoreCase = .ok program) :
    program.registers = pattern.root.registers := (grows_of_compile h).2

end Pattern

end RegexEngine
