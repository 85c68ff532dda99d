import RegexEngine.Program.Layout

/-!
# Where instructions come from

A node writes a few instructions itself and leaves the rest to the nodes below it. Every instruction
of a node's code is written by one of its nodes (`Node.written_block`). What can be said about an
instruction by itself, wherever it stands, therefore needs no look at the code again, only one at
the tree (`Node.forall_mem_nodes`): a compiled pattern accepts at its end only
(`Pattern.accept_of_compile_iff`), and decides no test if the pattern has none
(`Pattern.leave_of_compile`).
-/

namespace RegexEngine

theorem forall_mem_copies {P : Inst → Prop} {block : Nat → Nat → List Inst} {size registers : Nat}
    (once : ∀ base register, ∀ inst ∈ block base register, P inst) (n base register : Nat) :
    ∀ inst ∈ copies block size registers n base register, P inst := by
  induction n generalizing base register with
  | zero => exact nofun
  | succ n ih => exact List.forall_mem_append.2 ⟨once base register, ih _ _⟩

namespace Node

/-! ## Nodes of a tree -/

/-- The nodes right below a node. -/
def children : Node → List Node
  | sequence parts => parts
  | choice branches => branches
  | repeated body _ | group body | capture _ body | look _ body => [body]
  | char _ | any | oneOf _ | backreference _ | atStart | atEnd => []

mutual

/-- The node and all nodes below it. -/
def nodes : Node → List Node
  | sequence parts => sequence parts :: nodesOfAll parts
  | choice branches => choice branches :: nodesOfAll branches
  | repeated body q => repeated body q :: nodes body
  | group body => group body :: nodes body
  | capture index body => capture index body :: nodes body
  | look positive body => look positive body :: nodes body
  | node => [node]

def nodesOfAll : List Node → List Node
  | [] => []
  | node :: others => nodes node ++ nodesOfAll others

end

mutual

/-- What passes from a node to those right below it holds of all nodes if it holds of the root. -/
theorem forall_mem_nodes {P : Node → Prop}
    (down : ∀ node, P node → ∀ child ∈ node.children, P child) (node : Node) (h : P node) :
    ∀ part ∈ node.nodes, P part := by
  match node with
  | char _ | any | oneOf _ | backreference _ | atStart | atEnd =>
    exact List.forall_mem_singleton.2 h
  | sequence parts =>
    exact List.forall_mem_cons.2 ⟨h, forall_mem_nodesOfAll down parts (down _ h)⟩
  | choice branches =>
    exact List.forall_mem_cons.2 ⟨h, forall_mem_nodesOfAll down branches (down _ h)⟩
  | repeated body _ | group body | capture _ body | look _ body =>
    have below := down _ h body (List.mem_singleton_self body)
    exact List.forall_mem_cons.2 ⟨h, forall_mem_nodes down body below⟩

theorem forall_mem_nodesOfAll {P : Node → Prop}
    (down : ∀ node, P node → ∀ child ∈ node.children, P child) (given : List Node)
    (h : ∀ node ∈ given, P node) : ∀ part ∈ nodesOfAll given, P part := by
  match given with
  | [] => exact nofun
  | node :: others =>
    obtain ⟨first, behind⟩ := List.forall_mem_cons.1 h
    exact List.forall_mem_append.2
      ⟨forall_mem_nodes down node first, forall_mem_nodesOfAll down others behind⟩

end

/-! ## Who writes an instruction -/

/-- Says that an instruction is among those that a node writes itself. -/
def Writes (inst : Inst) : Node → Prop
  | char c => inst = .char c
  | any => inst = .any
  | oneOf cls => inst = .oneOf cls
  | backreference index => inst = .backreference index
  | atStart => inst = .atStart
  | atEnd => inst = .atEnd
  | sequence _ | group _ => False
  | choice _ => (∃ first second, inst = .split first second) ∨ ∃ target, inst = .jump target
  | repeated _ _ =>
    (∃ first second, inst = .split first second) ∨ (∃ target, inst = .jump target) ∨
      ∃ register, inst = .mark register ∨ inst = .check register
  | capture index _ => inst = .save (2 * index) ∨ inst = .save (2 * index + 1)
  | look positive _ => (∃ resume, inst = .enter positive resume) ∨ inst = .leave

/-- Says that one of the nodes writes the instruction. -/
def Written (nodes : List Node) (inst : Inst) : Prop := ∃ node ∈ nodes, node.Writes inst

variable {inst : Inst} {node : Node} {fewer more : List Node}

theorem Written.mono (h : Written fewer inst) (sub : fewer ⊆ more) :
    Written more inst := by
  obtain ⟨node, mem, writes⟩ := h
  exact ⟨node, sub mem, writes⟩

theorem written_head (h : node.Writes inst) : Written (node :: more) inst :=
  ⟨node, List.mem_cons_self, h⟩

theorem written_tail (h : Written more inst) : Written (node :: more) inst :=
  h.mono (List.subset_cons_self _ _)

theorem writes_choose (body : Node) (q : Quantifier) (greedy : Bool) (first second : Nat) :
    (repeated body q).Writes (.choose greedy first second) := by
  cases greedy <;> exact .inl ⟨_, _, rfl⟩

mutual

theorem written_block (base register : Nat) (node : Node) :
    ∀ inst ∈ node.block base register, Written node.nodes inst := by
  match node with
  | char _ | any | oneOf _ | backreference _ | atStart | atEnd =>
    exact List.forall_mem_singleton.2 (written_head rfl)
  | sequence parts =>
    intro inst mem
    exact written_tail (written_sequenceBlock base register parts inst mem)
  | choice branches => exact written_choiceBlock _ base register branches branches
  | group body =>
    intro inst mem
    exact written_tail (written_block base register body inst mem)
  | capture index body =>
    have inner := written_block (base + 1) register body
    rw [block, nodes]
    refine List.forall_mem_cons.2 ⟨written_head (.inl rfl), List.forall_mem_append.2 ⟨?_, ?_⟩⟩
    · exact fun inst mem => written_tail (inner inst mem)
    · exact List.forall_mem_singleton.2 (written_head (.inr rfl))
  | look positive body =>
    have inner := written_block (base + 1) register body
    rw [block, nodes]
    refine List.forall_mem_cons.2
      ⟨written_head (.inl ⟨_, rfl⟩), List.forall_mem_append.2 ⟨?_, ?_⟩⟩
    · exact fun inst mem => written_tail (inner inst mem)
    · exact List.forall_mem_singleton.2 (written_head (.inr rfl))
  | repeated body q =>
    have once (base register : Nat) (inst : Inst) (mem : inst ∈ body.block base register) :
        Written (repeated body q :: body.nodes) inst :=
      written_tail (written_block base register body inst mem)
    have chosen (first second : Nat) :
        Written (repeated body q :: body.nodes) (.choose q.greedy first second) :=
      written_head (writes_choose body q _ _ _)
    rw [block, nodes]
    split
    · exact nofun
    · refine List.forall_mem_append.2 ⟨forall_mem_copies once _ _ _, ?_⟩
      cases q.max with
      | some max =>
        refine forall_mem_copies ?_ _ _ _
        exact fun base register => List.forall_mem_cons.2 ⟨chosen _ _, once _ register⟩
      | none =>
        have jump (target : Nat) : Written (repeated body q :: body.nodes) (.jump target) :=
          written_head (.inr (.inl ⟨_, rfl⟩))
        refine List.forall_mem_cons.2 ⟨chosen _ _, ?_⟩
        split
        · refine List.forall_mem_cons.2 ⟨?_, List.forall_mem_append.2 ⟨once _ _, ?_⟩⟩
          · exact written_head (.inr (.inr ⟨_, .inl rfl⟩))
          · exact List.forall_mem_cons.2 ⟨written_head (.inr (.inr ⟨_, .inr rfl⟩)),
              List.forall_mem_singleton.2 (jump _)⟩
        · exact List.forall_mem_append.2 ⟨once _ _, List.forall_mem_singleton.2 (jump _)⟩

theorem written_sequenceBlock (base register : Nat) (parts : List Node) :
    ∀ inst ∈ sequenceBlock base register parts, Written (nodesOfAll parts) inst := by
  match parts with
  | [] => exact nofun
  | node :: parts =>
    have first := written_block base register node
    have others := written_sequenceBlock (base + node.size) (register + node.registers) parts
    refine List.forall_mem_append.2 ⟨?_, ?_⟩
    · exact fun inst mem => (first inst mem).mono (List.subset_append_left _ _)
    · exact fun inst mem => (others inst mem).mono (List.subset_append_right _ _)

theorem written_choiceBlock (exit base register : Nat) (branches all : List Node) :
    ∀ inst ∈ choiceBlock exit base register branches,
      Written (choice all :: nodesOfAll branches) inst := by
  match branches with
  | [] => exact nofun
  | [node] =>
    have only := written_block base register node
    intro inst mem
    refine written_tail ((only inst mem).mono ?_)
    simp [nodesOfAll]
  | node :: other :: branches =>
    have first := written_block (base + 1) register node
    have others := written_choiceBlock exit (base + node.size + 2) (register + node.registers)
      (other :: branches) all
    rw [choiceBlock]
    refine List.forall_mem_cons.2 ⟨written_head (.inl ⟨_, _, rfl⟩), List.forall_mem_append.2
      ⟨?_, List.forall_mem_cons.2 ⟨written_head (.inr ⟨_, rfl⟩), ?_⟩⟩⟩
    · intro inst mem
      exact written_tail ((first inst mem).mono (List.subset_append_left _ _))
    · intro inst mem
      exact (others inst mem).mono (List.cons_subset_cons _ (List.subset_append_right _ _))

end

/-- Accepting is left to the end of a program. -/
theorem not_writes_accept (node : Node) : ¬ node.Writes .accept := by
  cases node <;> simp [Writes]

theorem exists_look_of_writes (h : node.Writes .leave) :
    ∃ positive body, node = look positive body := by
  cases node with
  | look positive body => exact ⟨positive, body, rfl⟩
  | _ => simp [Writes] at h

end Node

/-! ## Whole programs -/

namespace Pattern

variable {pattern : Pattern} {ignoreCase : Bool} {program : Program} {pc : Nat} {inst : Inst}

theorem written_of_compile (h : pattern.compile ignoreCase = .ok program)
    (code : program.code[pc]? = some inst) (other : inst ≠ .accept) :
    Node.Written pattern.root.nodes inst := by
  rw [← Array.getElem?_toList, code_of_compile h] at code
  rcases List.mem_append.1 (List.mem_of_getElem? code) with mem | mem
  · exact Node.written_block 0 0 pattern.root inst mem
  · exact absurd (List.mem_singleton.1 mem) other

/-- A program accepts behind the code of the pattern's root, and nowhere else. -/
theorem accept_of_compile_iff (h : pattern.compile ignoreCase = .ok program) :
    program.code[pc]? = some .accept ↔ pc = pattern.root.size := by
  have length := Node.length_block 0 0 pattern.root
  rw [← Array.getElem?_toList, code_of_compile h]
  constructor
  · intro code
    rcases Nat.lt_or_ge pc pattern.root.size with before | behind
    · rw [List.getElem?_append_left (length ▸ before)] at code
      obtain ⟨node, -, writes⟩ := Node.written_block 0 0 pattern.root _ (List.mem_of_getElem? code)
      exact absurd writes node.not_writes_accept
    · have inside := (List.getElem?_eq_some_iff.1 code).1
      rw [List.length_append, length, List.length_singleton] at inside
      omega
  · rintro rfl
    rw [List.getElem?_append_right (Nat.le_of_eq length), length, Nat.sub_self]
    rfl

theorem leave_of_compile (h : pattern.compile ignoreCase = .ok program)
    (code : program.code[pc]? = some .leave) :
    ∃ positive body, .look positive body ∈ pattern.root.nodes := by
  obtain ⟨node, mem, writes⟩ := written_of_compile h code nofun
  obtain ⟨positive, body, rfl⟩ := Node.exists_look_of_writes writes
  exact ⟨positive, body, mem⟩

end Pattern

end RegexEngine
