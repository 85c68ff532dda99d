import RegexEngine.Proofs.Code.Nesting
import RegexEngine.Proofs.Code.Origins
import RegexEngine.Proofs.Grammar.Normality

/-!
# What code names

The code of a node names the groups and the references of that node and no others
(`Node.mentions_block`), and it marks each of its registers in one place (`Node.marks_block`). So
the operands of a compiled pattern that was read from a text are in range
(`Pattern.inRange_of_compile`).
-/

namespace RegexEngine

namespace Inst

/-- Says that the groups that an instruction notes and reads are among the given ones. -/
def Mentions (captures references : List Nat) : Inst → Prop
  | .save slot => slot / 2 ∈ captures
  | .backreference i => i ∈ references
  | _ => True

/-- The register in which an instruction notes the position. -/
def mark? : Inst → Option Nat
  | .mark register => some register
  | _ => none

/-- Says that an instruction names only slots, groups and registers that there are. -/
def InRange (program : Program) : Inst → Prop
  | .save slot =>
    slot < Machine.slotCount ∧ (slot % 2 = 0 → slot + 1 < Machine.slotCount)
  | .backreference i => 1 ≤ i ∧ i ≤ program.groups ∧ 2 * i + 1 < Machine.slotCount
  | .mark register | .check register => register < program.registers
  | _ => True

theorem Mentions.mono {captures captures' references references' : List Nat} {inst : Inst}
    (h : inst.Mentions captures references) (more : captures ⊆ captures')
    (more' : references ⊆ references') : inst.Mentions captures' references' := by
  cases inst with
  | save => exact more h
  | backreference => exact more' h
  | _ => trivial

theorem mark?_choose (greedy : Bool) (first second : Nat) :
    (Inst.choose greedy first second).mark? = none := by
  cases greedy <;> rfl

end Inst

/-! ## Copies -/

section

variable {block : Nat → Nat → List Inst} {size registers : Nat}

theorem filterMap_mark_copies
    (once : ∀ base register,
      (block base register).filterMap Inst.mark? = List.range' register registers)
    (n base register : Nat) :
    (copies block size registers n base register).filterMap Inst.mark? =
      List.range' register (n * registers) := by
  induction n generalizing base register with
  | zero => rw [Nat.zero_mul]; rfl
  | succ n ih =>
    rw [copies, List.filterMap_append, once, ih, List.range'_append_1, Nat.succ_mul, Nat.add_comm]

end

namespace Node

/-! ## Groups -/

/-- The groups and references of a node are among those of the node above it. -/
theorem captures_of_mem_children {node child : Node} (h : child ∈ node.children) :
    child.captures ⊆ node.captures ∧ child.references ⊆ node.references := by
  cases node with
  | sequence nodes | choice nodes =>
    simp only [captures, references, capturesOfAll_eq_flatMap, referencesOfAll_eq_flatMap]
    constructor <;> exact fun i mem => List.mem_flatMap.2 ⟨child, h, mem⟩
  | repeated body | group body | look _ body =>
    obtain rfl := List.mem_singleton.1 h
    exact ⟨List.Subset.refl _, List.Subset.refl _⟩
  | capture i body =>
    obtain rfl := List.mem_singleton.1 h
    exact ⟨List.subset_cons_self _ _, List.Subset.refl _⟩
  | _ => cases h

theorem mentions_of_writes {node : Node} {inst : Inst} (h : node.Writes inst) :
    inst.Mentions node.captures node.references := by
  cases node with
  | backreference i =>
    obtain rfl : inst = .backreference i := h
    exact List.mem_singleton_self i
  | capture i body =>
    have known : i ∈ (capture i body).captures := List.mem_cons_self
    rcases h with rfl | rfl
    · rwa [Inst.Mentions, Nat.mul_div_cancel_left i Nat.two_pos]
    · rwa [Inst.Mentions, show (2 * i + 1) / 2 = i by omega]
  | choice =>
    rcases h with ⟨_, _, rfl⟩ | ⟨_, rfl⟩ <;> trivial
  | repeated =>
    rcases h with ⟨_, _, rfl⟩ | ⟨_, rfl⟩ | ⟨_, rfl | rfl⟩ <;> trivial
  | look =>
    rcases h with ⟨_, rfl⟩ | rfl <;> trivial
  | sequence | group => cases h
  | _ =>
    cases h
    trivial

theorem mentions_block (base register : Nat) (node : Node) :
    ∀ inst ∈ node.block base register, inst.Mentions node.captures node.references := by
  intro inst mem
  obtain ⟨part, below, writes⟩ := written_block base register node inst mem
  have among : ∀ part ∈ node.nodes,
      part.captures ⊆ node.captures ∧ part.references ⊆ node.references := by
    apply forall_mem_nodes
    · intro upper h child mem
      have lower := captures_of_mem_children mem
      exact ⟨List.Subset.trans lower.1 h.1, List.Subset.trans lower.2 h.2⟩
    · exact ⟨List.Subset.refl _, List.Subset.refl _⟩
  exact (mentions_of_writes writes).mono (among part below).1 (among part below).2

/-! ## Registers -/

mutual

/-- A block marks its registers, each in one place and in their order. -/
theorem marks_block (base register : Nat) (node : Node) :
    (node.block base register).filterMap Inst.mark? = List.range' register node.registers := by
  match node with
  | char _ | any | oneOf _ | backreference _ | atStart | atEnd => rfl
  | sequence parts => exact marks_sequenceBlock base register parts
  | choice branches => exact marks_choiceBlock _ base register branches
  | group body => exact marks_block base register body
  | capture _ body | look _ body =>
    rw [block, List.filterMap_cons_none rfl, List.filterMap_append,
      marks_block (base + 1) register body]
    exact List.append_nil _
  | repeated body q =>
    have once := fun base register => marks_block base register body
    rw [block, registers]
    split
    · rfl
    · rw [List.filterMap_append, filterMap_mark_copies once]
      cases q.max with
      | some max =>
        dsimp only
        rw [filterMap_mark_copies, List.range'_append_1]
        intro base register
        rw [List.filterMap_cons_none (Inst.mark?_choose _ _ _), once]
      | none =>
        dsimp only
        rw [List.filterMap_cons_none (Inst.mark?_choose _ _ _), ← List.range'_append_1]
        congr 1
        cases body.nullable with
        | true =>
          rw [if_pos rfl, if_pos rfl, List.filterMap_cons_some (f := Inst.mark?) rfl,
            List.filterMap_append, once, List.range'_succ]
          exact congrArg _ (List.append_nil _)
        | false =>
          rw [if_neg Bool.false_ne_true, if_neg Bool.false_ne_true, List.filterMap_append, once]
          exact List.append_nil _

theorem marks_sequenceBlock (base register : Nat) (nodes : List Node) :
    (sequenceBlock base register nodes).filterMap Inst.mark? =
      List.range' register (registersOfAll nodes) := by
  match nodes with
  | [] => rfl
  | node :: nodes =>
    rw [sequenceBlock, registersOfAll, List.filterMap_append, marks_block _ _ node,
      marks_sequenceBlock _ _ nodes, List.range'_append_1]

theorem marks_choiceBlock (exit base register : Nat) (nodes : List Node) :
    (choiceBlock exit base register nodes).filterMap Inst.mark? =
      List.range' register (registersOfAll nodes) := by
  match nodes with
  | [] => rfl
  | [node] =>
    rw [choiceBlock, marks_block _ _ node]
    rfl
  | node :: other :: nodes =>
    have others := marks_choiceBlock exit (base + node.size + 2) (register + node.registers)
      (other :: nodes)
    rw [choiceBlock, registersOfAll, List.filterMap_cons_none rfl, List.filterMap_append,
      List.filterMap_cons_none rfl, marks_block _ _ node, others, List.range'_append_1]

end

end Node

/-! ## Whole programs -/

namespace Pattern

variable {pattern : Pattern} {ignoreCase : Bool} {program : Program} {pc pc' register : Nat}
  {inst : Inst}

theorem groups_of_compile (h : pattern.compile ignoreCase = .ok program) :
    program.groups = pattern.groups := by
  obtain ⟨e₁, -, h⟩ := bind_eq_ok_iff.1 h
  obtain ⟨e₂, -, h⟩ := bind_eq_ok_iff.1 h
  cases h
  rfl

theorem marks_of_compile (h : pattern.compile ignoreCase = .ok program) :
    program.code.toList.filterMap Inst.mark? = List.range' 0 program.registers := by
  rw [code_of_compile h, registers_of_compile h, List.filterMap_append, Node.marks_block]
  exact List.append_nil _

theorem lt_of_mark (h : pattern.compile ignoreCase = .ok program)
    (code : program.code[pc]? = some (.mark register)) : register < program.registers := by
  have mem : register ∈ program.code.toList.filterMap Inst.mark? := by
    rw [← Array.getElem?_toList] at code
    exact List.mem_filterMap.2 ⟨_, List.mem_of_getElem? code, rfl⟩
  rw [marks_of_compile h, List.mem_range'_1] at mem
  omega

/-- No two marks note their position in one register. -/
theorem eq_of_marks (h : pattern.compile ignoreCase = .ok program)
    (code : program.code[pc]? = some (.mark register))
    (code' : program.code[pc']? = some (.mark register)) : pc = pc' := by
  have nodup : (program.code.toList.filterMap Inst.mark?).Nodup := by
    rw [marks_of_compile h]
    exact List.nodup_range'
  rw [List.Nodup, List.pairwise_filterMap] at nodup
  rw [← Array.getElem?_toList] at code code'
  obtain ⟨lt, eq⟩ := List.getElem?_eq_some_iff.1 code
  obtain ⟨lt', eq'⟩ := List.getElem?_eq_some_iff.1 code'
  have apart := List.pairwise_iff_getElem.1 nodup
  rcases Nat.lt_trichotomy pc pc' with before | same | behind
  · exact absurd rfl (apart pc pc' lt lt' before _ (congrArg _ eq) _ (congrArg _ eq'))
  · exact same
  · exact absurd rfl (apart pc' pc lt' lt behind _ (congrArg _ eq') _ (congrArg _ eq))

theorem mentions_of_compile (h : pattern.compile ignoreCase = .ok program)
    (code : program.code[pc]? = some inst) :
    inst.Mentions pattern.root.captures pattern.root.references := by
  rw [← Array.getElem?_toList, code_of_compile h] at code
  rcases List.mem_append.1 (List.mem_of_getElem? code) with mem | mem
  · exact Node.mentions_block 0 0 pattern.root inst mem
  · rw [List.mem_singleton.1 mem]
    trivial

theorem inRange_of_compile (normal : pattern.Normal)
    (h : pattern.compile ignoreCase = .ok program) (code : program.code[pc]? = some inst) :
    inst.InRange program := by
  have mentions := mentions_of_compile h code
  cases inst with
  | save slot =>
    have mem : slot / 2 ∈ pattern.root.captures := mentions
    rw [normal.numbered, List.mem_range'_1] at mem
    have few := normal.few
    simp only [Inst.InRange, Machine.slotCount, maxGroups] at few ⊢
    omega
  | backreference i =>
    obtain ⟨positive, le⟩ := normal.known i mentions
    have few := normal.few
    simp only [Inst.InRange, Machine.slotCount, maxGroups, groups_of_compile h] at few ⊢
    omega
  | mark register => exact lt_of_mark h code
  | check register =>
    obtain ⟨outer, inside, -⟩ := (nested_of_compile h code).fits
    obtain ⟨mark, -, marks, -⟩ := Program.exists_mark (inside ▸ List.mem_cons_self)
    exact lt_of_mark h marks
  | _ => trivial

end Pattern

end RegexEngine
