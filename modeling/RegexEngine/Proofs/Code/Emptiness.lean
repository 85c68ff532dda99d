import Mathlib
import RegexEngine.Proofs.Code.Blocks
import RegexEngine.Proofs.Grammar.WellFormed

/-!
# Nodes without code

A repetition whose body has no code is not written at all, and whether a body has code is asked
before it is written. The answer is exact on trees that are read from a text: a node is said to have
no code just if its block is empty (`Node.block_eq_nil_iff`), and then it is nullable and takes no
register (`Node.ForetellsCode`). So whatever is written as a loop or as an optional copy has a body:
what a jump leads back over and what a choice may pass over holds an instruction that does more than
choose and guard (`Program.SubstantialAt`), in every compiled pattern
(`Pattern.foretellsCode_of_parse`).
-/

namespace RegexEngine

namespace Node

mutual

/-- A node without code is nullable: there is nothing that could read. -/
theorem nullable_of_emitsNothing (node : Node) (proper : node.Proper)
    (nothing : node.emitsNothing = true) : node.nullable = true := by
  match node with
  | char _ | any | oneOf _ | backreference _ | atStart | atEnd | choice _ | capture _ _
  | look _ _ => cases nothing
  | sequence parts => exact allNullable_of_allEmitNothing parts proper nothing
  | group body => exact nullable_of_emitsNothing body proper nothing
  | repeated body q =>
    rw [nullable, Bool.or_eq_true]
    rw [emitsNothing, Bool.or_eq_true] at nothing
    rcases nothing with bound | nothing
    · have ordered := proper.1 0 (eq_of_beq bound)
      exact .inl (beq_iff_eq.2 (Nat.le_zero.1 ordered))
    · exact .inr (nullable_of_emitsNothing body proper.2 nothing)

theorem allNullable_of_allEmitNothing (nodes : List Node) (proper : AllProper nodes)
    (nothing : allEmitNothing nodes = true) : allNullable nodes = true := by
  match nodes with
  | [] => rfl
  | node :: nodes =>
    obtain ⟨first, others⟩ := Bool.and_eq_true_iff.1 nothing
    exact Bool.and_eq_true_iff.2 ⟨nullable_of_emitsNothing node proper.1 first,
      allNullable_of_allEmitNothing nodes proper.2 others⟩

end

mutual

/-- A node without code takes no room and no register. -/
theorem size_of_emitsNothing (node : Node) (proper : node.Proper)
    (nothing : node.emitsNothing = true) : node.size = 0 ∧ node.registers = 0 := by
  match node with
  | char _ | any | oneOf _ | backreference _ | atStart | atEnd | choice _ | capture _ _
  | look _ _ => cases nothing
  | sequence parts => exact sizes_of_allEmitNothing parts proper nothing
  | group body => exact size_of_emitsNothing body proper nothing
  | repeated body q =>
    rw [size, registers]
    split
    · exact ⟨rfl, rfl⟩
    · rename_i something
      rw [emitsNothing, Bool.or_eq_true, beq_iff_eq, or_iff_left something] at nothing
      have min : q.min = 0 := Nat.le_zero.1 (proper.1 0 nothing)
      simp [Quantifier.codeSize, nothing, min]

theorem sizes_of_allEmitNothing (nodes : List Node) (proper : AllProper nodes)
    (nothing : allEmitNothing nodes = true) :
    sequenceSize nodes = 0 ∧ registersOfAll nodes = 0 := by
  match nodes with
  | [] => exact ⟨rfl, rfl⟩
  | node :: nodes =>
    obtain ⟨first, others⟩ := Bool.and_eq_true_iff.1 nothing
    obtain ⟨size, registers⟩ := size_of_emitsNothing node proper.1 first
    obtain ⟨sizes, registersAll⟩ := sizes_of_allEmitNothing nodes proper.2 others
    rw [sequenceSize, registersOfAll, size, registers, sizes, registersAll]
    exact ⟨rfl, rfl⟩

end

end Node

/-! ## Instructions that do something -/

/-- Whether the instruction only chooses between ways or guards a round. -/
def Inst.steers : Inst → Bool
  | .split _ _ | .mark _ | .check _ => true
  | _ => false

theorem exists_mem_copies {P : Inst → Prop} {block : Nat → Nat → List Inst} {size registers : Nat}
    (once : ∀ base register, ∃ inst ∈ block base register, P inst) {n : Nat} (some_copy : n ≠ 0)
    (base register : Nat) : ∃ inst ∈ copies block size registers n base register, P inst := by
  obtain ⟨n, rfl⟩ := Nat.exists_eq_succ_of_ne_zero some_copy
  obtain ⟨inst, mem, holds⟩ := once base register
  exact ⟨inst, List.mem_append_left _ mem, holds⟩

namespace Node

mutual

/-- A node that has code does something, besides choosing and guarding. -/
theorem exists_mem_block (node : Node) (normal : node.normal = true)
    (something : node.emitsNothing = false) (base register : Nat) :
    ∃ inst ∈ node.block base register, inst.steers = false := by
  match node with
  | char _ | any | oneOf _ | backreference _ | atStart | atEnd | capture _ _ | look _ _ =>
    exact ⟨_, List.mem_cons_self, rfl⟩
  | sequence parts =>
    rw [Node.normal, Bool.and_eq_true] at normal
    exact exists_mem_sequenceBlock parts normal.2 something base register
  | choice branches =>
    rw [Node.normal, Bool.and_eq_true, Bool.and_eq_true, decide_eq_true_iff] at normal
    match branches with
    | [] | [_] => simp at normal
    | node :: other :: nodes =>
      -- a branch ends with a jump over those behind it
      refine ⟨.jump (base + choiceSize (node :: other :: nodes)), ?_, rfl⟩
      rw [block, choiceBlock]
      exact List.mem_cons_of_mem _ (List.mem_append_right _ List.mem_cons_self)
  | group body =>
    rw [Node.normal, Bool.and_eq_true] at normal
    exact exists_mem_block body normal.2 something base register
  | repeated body q =>
    rw [Node.normal, Bool.and_eq_true] at normal
    rw [emitsNothing, Bool.or_eq_false_iff, beq_eq_false_iff_ne] at something
    have once := exists_mem_block body normal.2 something.2
    rw [block, if_neg (by rw [something.2]; exact Bool.false_ne_true)]
    cases bound : q.max with
    | none =>
      -- the loop comes back with a jump
      refine ⟨.jump (base + q.min * body.size), List.mem_append_right _ ?_, rfl⟩
      dsimp only
      split <;> simp
    | some max =>
      rcases Nat.eq_zero_or_pos q.min with none_required | required
      · have allowed : max - q.min ≠ 0 := by
          have positive : max ≠ 0 := fun zero => something.1 (by rw [bound, zero])
          omega
        have optional (exit base register : Nat) :
            ∃ inst ∈ Inst.choose q.greedy (base + 1) exit :: body.block (base + 1) register,
              inst.steers = false := by
          obtain ⟨inst, mem, acts⟩ := once (base + 1) register
          exact ⟨inst, List.mem_cons_of_mem _ mem, acts⟩
        exact Exists.imp (fun inst found => ⟨List.mem_append_right _ found.1, found.2⟩)
          (exists_mem_copies (optional _) allowed _ _)
      · exact Exists.imp (fun inst found => ⟨List.mem_append_left _ found.1, found.2⟩)
          (exists_mem_copies once (Nat.ne_of_gt required) _ _)

theorem exists_mem_sequenceBlock (nodes : List Node) (normal : allNormal nodes = true)
    (something : allEmitNothing nodes = false) (base register : Nat) :
    ∃ inst ∈ sequenceBlock base register nodes, inst.steers = false := by
  match nodes with
  | [] => cases something
  | node :: nodes =>
    obtain ⟨first_normal, others_normal⟩ := Bool.and_eq_true_iff.1 normal
    rw [sequenceBlock]
    rcases Bool.and_eq_false_iff.1 something with first | others
    · obtain ⟨inst, mem, acts⟩ := exists_mem_block node first_normal first base register
      exact ⟨inst, List.mem_append_left _ mem, acts⟩
    · obtain ⟨inst, mem, acts⟩ := exists_mem_sequenceBlock nodes others_normal others
        (base + node.size) (register + node.registers)
      exact ⟨inst, List.mem_append_right _ mem, acts⟩

end

/-- A node is said to have no code just if its block is empty. -/
theorem block_eq_nil_iff {node : Node} (normal : node.normal = true) (proper : node.Proper)
    (base register : Nat) : node.block base register = [] ↔ node.emitsNothing = true := by
  cases nothing : node.emitsNothing with
  | true =>
    have size := (size_of_emitsNothing node proper nothing).1
    rw [← length_block base register] at size
    exact iff_of_true (List.eq_nil_of_length_eq_zero size) rfl
  | false =>
    obtain ⟨inst, mem, -⟩ := exists_mem_block node normal nothing base register
    exact iff_of_false (List.ne_nil_of_mem mem) Bool.false_ne_true

end Node

/-! ## Loops and choices have bodies -/

namespace Program

/-- Says that some instruction from `first` up to `last` does more than choose and guard. -/
def ActsBetween (program : Program) (first last : Nat) : Prop :=
  ∃ pc inst, first ≤ pc ∧ pc < last ∧ program.code[pc]? = some inst ∧ inst.steers = false

/-- Says that what an instruction at `pc` repeats or passes over does something. A jump that leads
back repeats what stands behind its target; a choice passes over all before its further way. -/
def SubstantialAt (program : Program) (pc : Nat) : Inst → Prop
  | .jump target => target ≤ pc → program.ActsBetween (target + 1) pc
  | .split first second => program.ActsBetween (pc + 1) (max first second)
  | _ => True

variable {program : Program} {base register first last first' last' pc : Nat}

theorem ActsBetween.mono (h : program.ActsBetween first last) (first_le : first' ≤ first)
    (le_last : last ≤ last') : program.ActsBetween first' last' := by
  obtain ⟨pc, inst, after, before, code, acts⟩ := h
  exact ⟨pc, inst, Nat.le_trans first_le after, Nat.lt_of_lt_of_le before le_last, code, acts⟩

theorem actsBetween_of_jump {target : Nat} (code : program.code[pc]? = some (.jump target))
    (after : first ≤ pc) (before : pc < last) : program.ActsBetween first last :=
  ⟨pc, _, after, before, code, rfl⟩

/-- A node with code acts wherever its block stands. -/
theorem actsBetween_of_holds {node : Node} (normal : node.normal = true)
    (something : node.emitsNothing = false) {entry : Nat}
    (holds : program.Holds base (node.block entry register)) :
    program.ActsBetween base (base + node.size) := by
  obtain ⟨inst, mem, acts⟩ := node.exists_mem_block normal something entry register
  obtain ⟨i, lt, eq⟩ := List.getElem_of_mem mem
  rw [Node.length_block] at lt
  refine ⟨base + i, inst, Nat.le_add_right _ _, by omega, holds i inst ?_, acts⟩
  rw [← eq]
  exact List.getElem?_eq_getElem _

theorem substantialAt_choose {greedy : Bool} {exit : Nat}
    (h : program.ActsBetween (pc + 1) exit) :
    program.SubstantialAt pc (.choose greedy (pc + 1) exit) := by
  cases greedy with
  | true => exact h.mono (Nat.le_refl _) (Nat.le_max_right _ _)
  | false => exact h.mono (Nat.le_refl _) (Nat.le_max_left _ _)

end Program

namespace Node

open Program

variable {program : Program}

section

variable {body : Node} (normal : body.normal = true) (something : body.emitsNothing = false)
  (once : ∀ base register, program.Holds base (body.block base register) →
    program.Throughout program.SubstantialAt base (base + body.size))

include normal something once in
/-- Copies that may be left out: each stands behind a choice to go on at the exit. -/
theorem substantial_optional {greedy : Bool} {exit : Nat} (n base register : Nat)
    (holds : program.Holds base
      (copies
        (fun base register => .choose greedy (base + 1) exit :: body.block (base + 1) register)
        (body.size + 1) body.registers n base register))
    (room : base + n * (body.size + 1) ≤ exit) :
    program.Throughout program.SubstantialAt base (base + n * (body.size + 1)) := by
  refine Throughout.of_copies (Q := fun n base _ => base + n * (body.size + 1) ≤ exit)
    ?_ ?_ ?_ n base register holds room
  · intro base register
    rw [List.length_cons, length_block]
  · intro n base register copy room
    rw [Nat.succ_mul] at room
    have acts := actsBetween_of_holds normal something copy.tail
    have split := Throughout.one copy.head
      (substantialAt_choose (acts.mono (Nat.le_refl _) (by omega)))
    have whole := split.append (once _ _ copy.tail)
    rwa [Nat.add_right_comm] at whole
  · intro n base register copy room
    rw [Nat.succ_mul] at room
    omega

include normal something once in
/-- The split of a loop, its body and the jump back. -/
theorem substantial_loop {greedy : Bool} {base register : Nat}
    (holds : program.Holds base
      (.choose greedy (base + 1) (base + body.size + guardSize body.nullable + 2) ::
        if body.nullable then
          .mark register ::
            (body.block (base + 2) (register + 1) ++ [.check register, .jump base])
        else body.block (base + 1) register ++ [.jump base])) :
    program.Throughout program.SubstantialAt base
      (base + body.size + guardSize body.nullable + 2) := by
  have chooses := holds.head
  have behind := holds.tail
  cases nullable : body.nullable with
  | true =>
    rw [nullable] at behind chooses
    rw [if_pos rfl] at behind
    rw [guardSize, if_pos rfl] at chooses ⊢
    have inner := behind.tail.left
    have closing := behind.tail.behind
    have acts := actsBetween_of_holds normal something inner
    have split := Throughout.one chooses
      (substantialAt_choose (acts.mono (Nat.le_succ _) (by omega)))
    have mark := Throughout.one (P := program.SubstantialAt) behind.head trivial
    have check := Throughout.one (P := program.SubstantialAt) closing.head trivial
    have back := Throughout.one (P := program.SubstantialAt) closing.tail.head
      fun _ => acts.mono (Nat.le_succ _) (Nat.le_succ _)
    have whole := split.append (mark.append ((once _ _ inner).append (check.append back)))
    rwa [show base + 1 + 1 + body.size + 1 + 1 = base + body.size + 2 + 2 by omega] at whole
  | false =>
    rw [nullable] at behind chooses
    rw [if_neg Bool.false_ne_true] at behind
    rw [guardSize, if_neg Bool.false_ne_true] at chooses ⊢
    have inner := behind.left
    have acts := actsBetween_of_holds normal something inner
    have split := Throughout.one chooses
      (substantialAt_choose (acts.mono (Nat.le_refl _) (by omega)))
    have back := Throughout.one (P := program.SubstantialAt) behind.behind.head fun _ => acts
    have whole := split.append ((once _ _ inner).append back)
    rwa [show base + 1 + body.size + 1 = base + body.size + 0 + 2 by omega] at whole

end

mutual

/-- Whatever a block repeats or passes over does something: code without a body is not written. -/
theorem substantial_block (node : Node) (normal : node.normal = true) (base register : Nat)
    (holds : program.Holds base (node.block base register)) :
    program.Throughout program.SubstantialAt base (base + node.size) := by
  match node with
  | char _ | any | oneOf _ | backreference _ | atStart | atEnd => exact .one holds.head trivial
  | sequence parts =>
    rw [Node.normal, Bool.and_eq_true] at normal
    exact substantial_sequenceBlock parts normal.2 base register holds
  | choice branches =>
    rw [Node.normal, Bool.and_eq_true] at normal
    exact substantial_choiceBlock _ branches normal.2 base register holds (Nat.le_refl _)
  | group body =>
    rw [Node.normal, Bool.and_eq_true] at normal
    exact substantial_block body normal.2 base register holds
  | capture _ body | look _ body =>
    rw [Node.normal, Bool.and_eq_true] at normal
    have first := Throughout.one (P := program.SubstantialAt) holds.head trivial
    have inner := substantial_block body normal.2 (base + 1) register holds.tail.left
    have last := Throughout.one (P := program.SubstantialAt) holds.tail.behind.head trivial
    have whole := first.append (inner.append last)
    rwa [show base + 1 + body.size + 1 = base + (body.size + 2) by omega] at whole
  | repeated body q =>
    rw [Node.normal, Bool.and_eq_true] at normal
    have once := fun base register => substantial_block body normal.2 base register
    have length := fun base register => length_block base register body
    rw [block] at holds
    rw [size]
    cases nothing : body.emitsNothing with
    | true => exact .nil
    | false =>
      rw [nothing, if_neg Bool.false_ne_true] at holds
      rw [if_neg Bool.false_ne_true, Quantifier.codeSize, ← Nat.add_assoc]
      have required := Throughout.of_copies (Q := fun _ _ _ => True) length
        (fun _ base register copy _ => once base register copy) (fun _ _ _ _ _ => trivial)
        q.min base register holds.left trivial
      have behind := holds.right
      rw [length_copies length] at behind
      refine required.append ?_
      cases bound : q.max with
      | some max =>
        rw [bound] at behind
        exact substantial_optional normal.2 nothing once (max - q.min) _ _ behind (Nat.le_refl _)
      | none =>
        rw [bound] at behind
        have loop := substantial_loop normal.2 nothing once behind
        rwa [Nat.add_assoc, Nat.add_assoc (_ + _), ← Nat.add_assoc body.size] at loop

theorem substantial_sequenceBlock (nodes : List Node) (normal : allNormal nodes = true)
    (base register : Nat) (holds : program.Holds base (sequenceBlock base register nodes)) :
    program.Throughout program.SubstantialAt base (base + sequenceSize nodes) := by
  match nodes with
  | [] => exact .nil
  | node :: nodes =>
    obtain ⟨first_normal, others_normal⟩ := Bool.and_eq_true_iff.1 normal
    rw [sequenceBlock] at holds
    have first := substantial_block node first_normal base register holds.left
    have others := substantial_sequenceBlock nodes others_normal _ _ holds.behind
    rw [sequenceSize, ← Nat.add_assoc]
    exact first.append others

theorem substantial_choiceBlock (exit : Nat) (nodes : List Node) (normal : allNormal nodes = true)
    (base register : Nat) (holds : program.Holds base (choiceBlock exit base register nodes))
    (room : base + choiceSize nodes ≤ exit) :
    program.Throughout program.SubstantialAt base (base + choiceSize nodes) := by
  match nodes with
  | [] => exact .nil
  | [node] =>
    exact substantial_block node (Bool.and_eq_true_iff.1 normal).1 base register holds
  | node :: other :: nodes =>
    obtain ⟨first_normal, others_normal⟩ := Bool.and_eq_true_iff.1 normal
    rw [choiceBlock] at holds
    rw [choiceSize] at room ⊢
    have inner := substantial_block node first_normal (base + 1) register holds.tail.left
    have behind := holds.tail.behind
    have split := Throughout.one (P := program.SubstantialAt) holds.head
      (actsBetween_of_jump behind.head (by omega) (by omega))
    -- the jump leads on, behind the other branches
    have onward := Throughout.one (P := program.SubstantialAt) behind.head
      fun back => absurd back (by omega)
    have rest := behind.tail
    have next : base + 1 + node.size + 1 = base + node.size + 2 := by omega
    rw [next] at rest onward
    have others := substantial_choiceBlock exit (other :: nodes) others_normal _ _ rest (by omega)
    have whole := split.append (inner.append (onward.append others))
    rwa [show base + node.size + 2 + choiceSize (other :: nodes) =
      base + (node.size + 2 + choiceSize (other :: nodes)) by omega] at whole

end

/-! ## What is said before writing -/

/-- Says that what is said of a node before it is written comes true whenever it is written. -/
structure ForetellsCode (node : Node) : Prop where
  /-- A node said to have no code adds no instruction, and no other node adds none. -/
  code : ∀ e e', node.emit e = .ok e' → (node.emitsNothing = true ↔ e'.code = e.code)
  nullable : node.emitsNothing = true → node.nullable = true
  registers : node.emitsNothing = true → ∀ e e', node.emit e = .ok e' → e'.registers = e.registers
  /-- What a repetition repeats has code, if the repetition has any. -/
  body : ∀ round q, node = .repeated round q → ∀ e e', node.emit e = .ok e' → e'.code ≠ e.code →
    ∀ f f', round.emit f = .ok f' → f'.code ≠ f.code

variable {node : Node} {e e' : Emitter}

theorem emitsNothing_iff_of_emit (normal : node.normal = true) (proper : node.Proper)
    (written : node.emit e = .ok e') : node.emitsNothing = true ↔ e'.code = e.code := by
  rw [← block_eq_nil_iff normal proper e.pc e.registers, ← Array.toList_inj,
    (grows_emit node e e' written).code, List.append_right_eq_self]

theorem foretellsCode (normal : node.normal = true) (proper : node.Proper) :
    node.ForetellsCode := by
  refine ⟨fun e e' => emitsNothing_iff_of_emit normal proper, nullable_of_emitsNothing node proper,
    ?_, ?_⟩
  · intro nothing e e' written
    have grows := grows_emit node e e' written
    rw [grows.registers, (size_of_emitsNothing node proper nothing).2, Nat.add_zero]
  · rintro round q rfl e e' written adds f f' inner same
    have below := List.mem_singleton_self round
    -- a round without code would leave the repetition without code
    have hollow : round.emitsNothing = true :=
      (emitsNothing_iff_of_emit (normal_of_mem_children normal below)
        (proper_of_mem_children proper below) inner).2 same
    apply adds
    apply (emitsNothing_iff_of_emit normal proper written).1
    rw [emitsNothing, hollow, Bool.or_true]

end Node

namespace Pattern

theorem substantial_of_compile {pattern : Pattern} {ignoreCase : Bool} {program : Program}
    (normal : pattern.root.normal = true) (compiled : pattern.compile ignoreCase = .ok program) :
    ∀ pc inst, program.code[pc]? = some inst → program.SubstantialAt pc inst := by
  have holds := holds_of_compile compiled
  have accepts := holds.behind.head
  have body := Node.substantial_block pattern.root normal 0 0 holds.left
  have whole := body.append (.one accepts trivial)
  intro pc inst code
  obtain ⟨lt, -⟩ := Array.getElem?_eq_some_iff.1 code
  rw [size_of_compile compiled] at lt
  exact whole pc inst (Nat.zero_le _) (by omega) code

/-- Whether a node of a pattern has code is known before it is written, and whatever a compiled
pattern repeats or passes over has code. -/
theorem foretellsCode_of_parse {text : String} {pattern : Pattern}
    (parsed : Pattern.parse text = .ok pattern) :
    (∀ node ∈ pattern.root.nodes, node.ForetellsCode) ∧
      ∀ ignoreCase program, pattern.compile ignoreCase = .ok program →
        ∀ pc inst, program.code[pc]? = some inst → program.SubstantialAt pc inst := by
  have normal := (normal_of_parse parsed).root
  have everywhere := Node.forall_mem_nodes
    (P := fun node => node.normal = true ∧ node.Proper)
    (fun node h child mem =>
      ⟨Node.normal_of_mem_children h.1 mem, Node.proper_of_mem_children h.2 mem⟩)
    pattern.root ⟨normal, proper_of_parse parsed⟩
  constructor
  · intro node mem
    obtain ⟨shaped, ordered⟩ := everywhere node mem
    exact node.foretellsCode shaped ordered
  · exact fun ignoreCase program compiled => substantial_of_compile normal compiled

/-- Rounds of nothing in optional copies, and a loop whose rounds may read nothing but have code. -/
theorem foretellsCode_of_parse_of_hollow_rounds :
    ∃ pattern hollow program,
      Pattern.parse "(?:(?:a{0}(?:)+){5,}b?){0,2}(?:|c)*" = .ok pattern ∧
      hollow ∈ pattern.root.nodes ∧ hollow.emitsNothing = true ∧
      hollow.emit .empty = .ok ⟨#[], 0, 1⟩ ∧
      pattern.compile false = .ok program ∧ program.code.size = 14 ∧
      (∀ node ∈ pattern.root.nodes, node.ForetellsCode) ∧
      ∀ pc inst, program.code[pc]? = some inst → program.SubstantialAt pc inst := by
  let hollow : Node :=
    .repeated
      (.group (.sequence
        [.repeated (.char 'a') ⟨0, some 0, true⟩,
         .repeated (.group (.sequence [])) ⟨1, none, true⟩]))
      ⟨5, none, true⟩
  let pattern : Pattern :=
    ⟨.sequence
      [.repeated (.group (.sequence [hollow, .repeated (.char 'b') ⟨0, some 1, true⟩]))
        ⟨0, some 2, true⟩,
       .repeated (.group (.choice [.sequence [], .sequence [.char 'c']])) ⟨0, none, true⟩], 0⟩
  have parsed : Pattern.parse "(?:(?:a{0}(?:)+){5,}b?){0,2}(?:|c)*" = .ok pattern := by cbv
  have succeeds : (pattern.compile false).toBool = true := by decide +kernel
  cases compiled : pattern.compile false with
  | error fault =>
    rw [compiled] at succeeds
    cases succeeds
  | ok program =>
    obtain ⟨foretold, substantial⟩ := foretellsCode_of_parse parsed
    refine ⟨pattern, hollow, program, parsed, ?_, rfl, rfl, compiled, ?_, foretold,
      substantial false program compiled⟩
    · have fourth : pattern.root.nodes[4]? = some hollow := rfl
      exact List.mem_of_getElem? fourth
    · rw [size_of_compile compiled]
      decide +kernel

end Pattern

end RegexEngine
