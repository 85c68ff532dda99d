import Mathlib
import RegexEngine.Proofs.Code.Operands
import RegexEngine.Proofs.Code.Patching

/-!
# Code can be moved

What a node is compiled to depends on the place only through the addresses and the registers that
its instructions name: at another place the block is the same, with these raised
(`Node.map_relocate_block`). A block leads nowhere but into itself and to its end
(`Node.leadsWithin_block`), and it marks and checks each of its registers once
(`Node.count_mark_block`, `Node.count_check_block`). So a part of a pass adds to what has been
written what it writes by itself (`Node.embeds_of_emit`).
-/

namespace RegexEngine

namespace Inst

/-- The instruction with the addresses it names raised by `base`, and its register by
`register`. -/
def relocate (base register : Nat) : Inst → Inst
  | .split first second => .split (first + base) (second + base)
  | .jump target => .jump (target + base)
  | .enter positive resume => .enter positive (resume + base)
  | .mark r => .mark (r + register)
  | .check r => .check (r + register)
  | inst => inst

theorem relocate_choose (base register : Nat) (greedy : Bool) (body exit : Nat) :
    (Inst.choose greedy body exit).relocate base register =
      .choose greedy (body + base) (exit + base) := by
  cases greedy <;> rfl

/-- Says that the instruction names no address below `first` and none above `last`. -/
def LeadsWithin (first last : Nat) (inst : Inst) : Prop :=
  ∀ target ∈ inst.targets, first ≤ target ∧ target ≤ last

variable {first last first' last' : Nat} {inst : Inst}

theorem LeadsWithin.mono (h : inst.LeadsWithin first last) (first_le : first' ≤ first)
    (le_last : last ≤ last') : inst.LeadsWithin first' last' := by
  intro target mem
  obtain ⟨above, below⟩ := h target mem
  exact ⟨Nat.le_trans first_le above, Nat.le_trans below le_last⟩

theorem leadsWithin_of_targets (h : inst.targets = []) : inst.LeadsWithin first last := by
  rw [LeadsWithin, h]
  exact nofun

theorem leadsWithin_choose {greedy : Bool} {body exit : Nat} (body_ge : first ≤ body)
    (body_le : body ≤ last) (exit_ge : first ≤ exit) (exit_le : exit ≤ last) :
    (Inst.choose greedy body exit).LeadsWithin first last := by
  cases greedy <;> simp [LeadsWithin, Inst.choose, Inst.targets, *]

end Inst

/-! ## Copies -/

section

variable {block block' : Nat → Nat → List Inst} {size registers : Nat}

theorem map_relocate_copies {b r : Nat}
    (once : ∀ base register,
      (block base register).map (Inst.relocate b r) = block' (base + b) (register + r))
    (n base register : Nat) :
    (copies block size registers n base register).map (Inst.relocate b r) =
      copies block' size registers n (base + b) (register + r) := by
  induction n generalizing base register with
  | zero => rfl
  | succ n ih =>
    rw [copies, copies, List.map_append, once, ih, Nat.add_right_comm base,
      Nat.add_right_comm register]

/-- Copies that lead no further than to an exit behind all of them. -/
theorem leadsWithin_copies {exit : Nat}
    (once : ∀ base register, base + size ≤ exit →
      ∀ inst ∈ block base register, inst.LeadsWithin base exit)
    (n base register : Nat) (room : base + n * size ≤ exit) :
    ∀ inst ∈ copies block size registers n base register, inst.LeadsWithin base exit := by
  induction n generalizing base register with
  | zero => exact nofun
  | succ n ih =>
    rw [Nat.succ_mul] at room
    refine List.forall_mem_append.2 ⟨once base register (by omega), ?_⟩
    intro inst mem
    exact (ih _ _ (by omega) inst mem).mono (Nat.le_add_right _ _) (Nat.le_refl _)

/-- Copies that may be left out: each stands behind a choice to go on at the exit. -/
theorem leadsWithin_optional {greedy : Bool} {exit : Nat}
    (once : ∀ base register, ∀ inst ∈ block base register, inst.LeadsWithin base (base + size))
    (n base register : Nat) (room : base + n * (size + 1) ≤ exit) :
    ∀ inst ∈
      copies (fun base register => .choose greedy (base + 1) exit :: block (base + 1) register)
        (size + 1) registers n base register, inst.LeadsWithin base exit := by
  refine leadsWithin_copies ?_ n base register room
  intro base register room
  refine List.forall_mem_cons.2 ⟨?_, ?_⟩
  · exact Inst.leadsWithin_choose (by omega) (by omega) (by omega) (Nat.le_refl _)
  · exact fun inst mem => (once _ _ inst mem).mono (by omega) (by omega)

theorem leadsWithin_loop {greedy nullable : Bool}
    (once : ∀ base register, ∀ inst ∈ block base register, inst.LeadsWithin base (base + size))
    (base register : Nat) :
    ∀ inst ∈ Inst.choose greedy (base + 1) (base + size + guardSize nullable + 2) ::
        (if nullable then
          .mark register :: (block (base + 2) (register + 1) ++ [.check register, .jump base])
        else block (base + 1) register ++ [.jump base]),
      inst.LeadsWithin base (base + size + guardSize nullable + 2) := by
  have back {last : Nat} (room : base ≤ last) : (Inst.jump base).LeadsWithin base last := by
    simpa [Inst.LeadsWithin, Inst.targets] using room
  refine List.forall_mem_cons.2
    ⟨Inst.leadsWithin_choose (by omega) (by omega) (by omega) (Nat.le_refl _), ?_⟩
  cases nullable with
  | true =>
    simp only [if_true, guardSize]
    refine List.forall_mem_cons.2 ⟨Inst.leadsWithin_of_targets rfl, List.forall_mem_append.2 ⟨?_,
      List.forall_mem_cons.2 ⟨Inst.leadsWithin_of_targets rfl,
        List.forall_mem_singleton.2 (back (by omega))⟩⟩⟩
    exact fun inst mem => (once _ _ inst mem).mono (by omega) (by omega)
  | false =>
    simp only [Bool.false_eq_true, if_false, guardSize]
    refine List.forall_mem_append.2 ⟨?_, List.forall_mem_singleton.2 (back (by omega))⟩
    exact fun inst mem => (once _ _ inst mem).mono (by omega) (by omega)

theorem count_check_copies {register' : Nat}
    (once : ∀ base register,
      (block base register).count (.check register') =
        (block base register).count (.mark register'))
    (n base register : Nat) :
    (copies block size registers n base register).count (.check register') =
      (copies block size registers n base register).count (.mark register') := by
  induction n generalizing base register with
  | zero => rfl
  | succ n ih => rw [copies, List.count_append, List.count_append, once, ih]

end

namespace Node

/-! ## Blocks at other places -/

mutual

theorem map_relocate_block (b r base register : Nat) (node : Node) :
    (node.block base register).map (Inst.relocate b r) = node.block (base + b) (register + r) := by
  match node with
  | char _ | any | oneOf _ | backreference _ | atStart | atEnd => rfl
  | sequence parts => exact map_relocate_sequenceBlock b r base register parts
  | choice branches =>
    rw [block, block, map_relocate_choiceBlock b r _ base register branches, Nat.add_right_comm]
  | group body => exact map_relocate_block b r base register body
  | capture _ body =>
    have inner := map_relocate_block b r (base + 1) register body
    rw [Nat.add_right_comm] at inner
    simp [block, Inst.relocate, inner]
  | look positive body =>
    have inner := map_relocate_block b r (base + 1) register body
    rw [Nat.add_right_comm] at inner
    simp [block, Inst.relocate, inner]
    omega
  | repeated body q =>
    have once := fun base register => map_relocate_block b r base register body
    rw [block, block]
    split
    · rfl
    · rw [List.map_append]
      congr 1
      · exact map_relocate_copies once _ _ _
      · dsimp only
        rw [Nat.add_right_comm base b, Nat.add_right_comm register r]
        cases q.max with
        | some max =>
          refine map_relocate_copies ?_ _ _ _
          intro base register
          rw [List.map_cons, Inst.relocate_choose, once]
          simp only [Nat.add_right_comm _ b]
        | none =>
          simp only [List.map_cons, Inst.relocate_choose, Nat.add_right_comm _ b]
          congr 1
          split
          · simp [once, Inst.relocate, Nat.add_right_comm]
          · simp [once, Inst.relocate, Nat.add_right_comm]

theorem map_relocate_sequenceBlock (b r base register : Nat) (nodes : List Node) :
    (sequenceBlock base register nodes).map (Inst.relocate b r) =
      sequenceBlock (base + b) (register + r) nodes := by
  match nodes with
  | [] => rfl
  | node :: nodes =>
    rw [sequenceBlock, sequenceBlock, List.map_append, map_relocate_block b r _ _ node,
      map_relocate_sequenceBlock b r _ _ nodes, Nat.add_right_comm base,
      Nat.add_right_comm register]

theorem map_relocate_choiceBlock (b r exit base register : Nat) (nodes : List Node) :
    (choiceBlock exit base register nodes).map (Inst.relocate b r) =
      choiceBlock (exit + b) (base + b) (register + r) nodes := by
  match nodes with
  | [] => rfl
  | [node] => exact map_relocate_block b r base register node
  | node :: other :: nodes =>
    have first := map_relocate_block b r (base + 1) register node
    have others := map_relocate_choiceBlock b r exit (base + node.size + 2)
      (register + node.registers) (other :: nodes)
    rw [choiceBlock, choiceBlock]
    simp only [List.map_cons, List.map_append, first, others, Inst.relocate, Nat.add_right_comm _ b,
      Nat.add_right_comm _ r]

end

/-! ## Where blocks lead -/

mutual

theorem leadsWithin_block (base register : Nat) (node : Node) :
    ∀ inst ∈ node.block base register, inst.LeadsWithin base (base + node.size) := by
  match node with
  | char _ | any | oneOf _ | backreference _ | atStart | atEnd =>
    exact List.forall_mem_singleton.2 (Inst.leadsWithin_of_targets rfl)
  | sequence parts => exact leadsWithin_sequenceBlock base register parts
  | choice branches =>
    exact leadsWithin_choiceBlock _ base register branches (Nat.le_refl _)
  | group body => exact leadsWithin_block base register body
  | capture _ body =>
    have inner := leadsWithin_block (base + 1) register body
    rw [block, size]
    refine List.forall_mem_cons.2 ⟨Inst.leadsWithin_of_targets rfl, List.forall_mem_append.2
      ⟨?_, List.forall_mem_singleton.2 (Inst.leadsWithin_of_targets rfl)⟩⟩
    exact fun inst mem => (inner inst mem).mono (by omega) (by omega)
  | look positive body =>
    have inner := leadsWithin_block (base + 1) register body
    rw [block, size]
    refine List.forall_mem_cons.2 ⟨?_, List.forall_mem_append.2
      ⟨?_, List.forall_mem_singleton.2 (Inst.leadsWithin_of_targets rfl)⟩⟩
    · simp [Inst.LeadsWithin, Inst.targets]
      omega
    · exact fun inst mem => (inner inst mem).mono (by omega) (by omega)
  | repeated body q =>
    have once := fun base register => leadsWithin_block base register body
    rw [block, size, Quantifier.codeSize]
    split
    · exact nofun
    · refine List.forall_mem_append.2 ⟨?_, ?_⟩
      · refine leadsWithin_copies ?_ _ _ _ (by omega)
        exact fun base register room inst mem =>
          (once base register inst mem).mono (Nat.le_refl _) room
      · rw [← Nat.add_assoc]
        have below := Nat.le_add_right base (q.min * body.size)
        cases q.max with
        | some max =>
          exact fun inst mem => (leadsWithin_optional once _ _ _ (Nat.le_refl _) inst mem).mono
            below (Nat.le_refl _)
        | none =>
          refine fun inst mem => (leadsWithin_loop once _ _ inst mem).mono below ?_
          dsimp only
          omega

theorem leadsWithin_sequenceBlock (base register : Nat) (nodes : List Node) :
    ∀ inst ∈ sequenceBlock base register nodes,
      inst.LeadsWithin base (base + sequenceSize nodes) := by
  match nodes with
  | [] => exact nofun
  | node :: nodes =>
    have first := leadsWithin_block base register node
    have others := leadsWithin_sequenceBlock (base + node.size) (register + node.registers) nodes
    rw [sequenceBlock, sequenceSize]
    refine List.forall_mem_append.2 ⟨?_, ?_⟩
    · exact fun inst mem => (first inst mem).mono (Nat.le_refl _) (by omega)
    · exact fun inst mem => (others inst mem).mono (by omega) (by omega)

theorem leadsWithin_choiceBlock (exit base register : Nat) (nodes : List Node)
    (room : base + choiceSize nodes ≤ exit) :
    ∀ inst ∈ choiceBlock exit base register nodes, inst.LeadsWithin base exit := by
  match nodes with
  | [] => exact nofun
  | [node] =>
    intro inst mem
    exact (leadsWithin_block base register node inst mem).mono (Nat.le_refl _) room
  | node :: other :: nodes =>
    rw [choiceSize] at room
    have first := leadsWithin_block (base + 1) register node
    have others := leadsWithin_choiceBlock exit (base + node.size + 2) (register + node.registers)
      (other :: nodes) (by omega)
    rw [choiceBlock]
    refine List.forall_mem_cons.2 ⟨?_, List.forall_mem_append.2 ⟨?_, List.forall_mem_cons.2
      ⟨?_, ?_⟩⟩⟩
    · simp [Inst.LeadsWithin, Inst.targets]
      omega
    · exact fun inst mem => (first inst mem).mono (by omega) (by omega)
    · simp [Inst.LeadsWithin, Inst.targets]
      omega
    · exact fun inst mem => (others inst mem).mono (by omega) (Nat.le_refl _)

end

/-! ## Registers -/

mutual

/-- Every guard has its mark and its check. -/
theorem count_check_block (base register : Nat) (node : Node) (k : Nat) :
    (node.block base register).count (.check k) = (node.block base register).count (.mark k) := by
  match node with
  | char _ | any | oneOf _ | backreference _ | atStart | atEnd => simp [block]
  | sequence parts => exact count_check_sequenceBlock base register parts k
  | choice branches => exact count_check_choiceBlock _ base register branches k
  | group body => exact count_check_block base register body k
  | capture _ body | look _ body =>
    simp [block, count_check_block (base + 1) register body k]
  | repeated body q =>
    have once := fun base register => count_check_block base register body k
    have chosen (greedy : Bool) (first second : Nat) (code : List Inst) :
        (Inst.choose greedy first second :: code).count (.check k) = code.count (.check k) ∧
          (Inst.choose greedy first second :: code).count (.mark k) = code.count (.mark k) := by
      cases greedy <;> simp [Inst.choose]
    rw [block]
    split
    · rfl
    · rw [List.count_append, List.count_append, count_check_copies once]
      congr 1
      cases q.max with
      | some max =>
        refine count_check_copies ?_ _ _ _
        intro base register
        rw [(chosen _ _ _ _).1, (chosen _ _ _ _).2, once]
      | none =>
        dsimp only
        rw [(chosen _ _ _ _).1, (chosen _ _ _ _).2]
        split
        · simp [List.count_cons, once]
        · simp [once]

theorem count_check_sequenceBlock (base register : Nat) (nodes : List Node) (k : Nat) :
    (sequenceBlock base register nodes).count (.check k) =
      (sequenceBlock base register nodes).count (.mark k) := by
  match nodes with
  | [] => rfl
  | node :: nodes =>
    rw [sequenceBlock, List.count_append, List.count_append, count_check_block _ _ node,
      count_check_sequenceBlock _ _ nodes]

theorem count_check_choiceBlock (exit base register : Nat) (nodes : List Node) (k : Nat) :
    (choiceBlock exit base register nodes).count (.check k) =
      (choiceBlock exit base register nodes).count (.mark k) := by
  match nodes with
  | [] => rfl
  | [node] => exact count_check_block base register node k
  | node :: other :: nodes =>
    have others := count_check_choiceBlock exit (base + node.size + 2)
      (register + node.registers) (other :: nodes) k
    rw [choiceBlock]
    simp [count_check_block _ _ node, others]

end

theorem count_mark_block (base register : Nat) (node : Node) (k : Nat) :
    (node.block base register).count (.mark k) =
      if register ≤ k ∧ k < register + node.registers then 1 else 0 := by
  have counted : (node.block base register).count (.mark k) =
      ((node.block base register).filterMap Inst.mark?).count k := by
    rw [List.count_filterMap, List.count]
    congr 1
    funext inst
    rw [Bool.eq_iff_iff]
    cases inst <;> simp [Inst.mark?]
  rw [counted, marks_block, List.Nodup.count List.nodup_range']
  simp only [List.mem_range'_1]

end Node

/-! ## Parts of a pass -/

/-- Says that what a part of a pass adds to `e`, which makes it `e'`, is what the same part has
written by itself in `alone`, moved to its place. -/
structure Emitter.Embeds (alone e e' : Emitter) : Prop where
  /-- What has been written before stays as it is. -/
  before : ∀ pc < e.pc, e'.code[pc]? = e.code[pc]?
  moved : e'.code.toList.drop e.pc = alone.code.toList.map (Inst.relocate e.pc e.registers)
  /-- No instruction leads out of the part, except to its end. -/
  within : ∀ inst ∈ e'.code.toList.drop e.pc, ∀ target ∈ inst.targets,
    e.pc ≤ target ∧ target ≤ e'.pc
  registers : e'.registers = e.registers + alone.registers
  /-- Each of the registers that the part has taken is marked in one place. -/
  marks : ∀ register, (e'.code.toList.drop e.pc).count (.mark register) =
    if e.registers ≤ register ∧ register < e'.registers then 1 else 0
  checks : ∀ register, (e'.code.toList.drop e.pc).count (.check register) =
    if e.registers ≤ register ∧ register < e'.registers then 1 else 0

namespace Node

variable {node : Node} {e e' : Emitter}

theorem embeds_of_grows {alone : Emitter}
    (h : Emitter.Grows e e' (node.block e.pc e.registers) node.registers)
    (by_itself : Emitter.Grows .empty alone (node.block 0 0) node.registers) :
    alone.Embeds e e' := by
  have added : e'.code.toList.drop e.pc = node.block e.pc e.registers := by
    rw [h.code]
    exact List.drop_left
  have code : alone.code.toList = node.block 0 0 := by_itself.code
  have last : e'.pc = e.pc + node.size := by rw [h.pc, length_block]
  refine ⟨?_, ?_, ?_, ?_, ?_, ?_⟩
  · intro pc lt
    rw [← Array.getElem?_toList, ← Array.getElem?_toList, h.code]
    exact List.getElem?_append_left lt
  · rw [added, code, map_relocate_block, Nat.zero_add, Nat.zero_add]
  · rw [added, last]
    exact leadsWithin_block e.pc e.registers node
  · rw [h.registers, by_itself.registers]
    exact congrArg _ (Nat.zero_add _).symm
  · intro register
    rw [added, count_mark_block, h.registers]
  · intro register
    rw [added, count_check_block, count_mark_block, h.registers]

/-- Whatever has been written before, a node that is written adds what it writes by itself, moved to
its place; and it may as well be written with blanks that are completed when the addresses are
known, since no blank is left behind: what stands there in the meantime does not show. -/
theorem embeds_of_emit (written : node.emit e = .ok e') :
    (∃ alone, node.emit .empty = .ok alone ∧ alone.Embeds e e') ∧
      ∀ blank, node.emitPatching blank e = .ok e' := by
  constructor
  · have trails : Emitter.Trails e.code.size e.visits .empty e := ⟨Nat.zero_add _, Nat.zero_add _⟩
    obtain ⟨alone, by_itself⟩ := exists_emit_of_trails trails written
    exact ⟨alone, by_itself, embeds_of_grows (grows_emit node e e' written)
      (grows_emit node .empty alone by_itself)⟩
  · intro blank
    rw [emitPatching_eq, written]

/-- Two copies of a guarded loop and a guarded loop in a test, behind code that has used a register
already. -/
theorem embeds_of_emit_of_guarded_loops :
    ∃ front pattern e e', Pattern.parse "(?:x*)*|y" = .ok front ∧
      Pattern.parse "(?:(?:a*|b)*?c){1,2}(?=(\\1)*)" = .ok pattern ∧
      front.root.emit .empty = .ok e ∧ (e.pc = 10 ∧ e.registers = 1) ∧
      pattern.root.emit e = .ok e' ∧ (e'.pc = 42 ∧ e'.registers = 4) ∧
      (∃ alone, pattern.root.emit .empty = .ok alone ∧ alone.Embeds e e') ∧
      ∀ blank, pattern.root.emitPatching blank e = .ok e' := by
  let star (greedy : Bool) (body : Node) : Node := .repeated body ⟨0, none, greedy⟩
  let front : Pattern :=
    ⟨.choice [.sequence [star true (.group (.sequence [star true (.char 'x')]))],
      .sequence [.char 'y']], 0⟩
  let inner : Node :=
    .group (.choice [.sequence [star true (.char 'a')], .sequence [.char 'b']])
  let pattern : Pattern :=
    ⟨.sequence
      [.repeated (.group (.sequence [star false inner, .char 'c'])) ⟨1, some 2, true⟩,
       .look true (.sequence [star true (.capture 1 (.sequence [.backreference 1]))])], 1⟩
  let e : Emitter := (front.root.emit .empty).toOption.getD .empty
  have succeeds : (pattern.root.emit e).toBool = true := by decide +kernel
  cases written : pattern.root.emit e with
  | error fault =>
    rw [written] at succeeds
    cases succeeds
  | ok e' =>
    have grows := grows_emit pattern.root e e' written
    refine ⟨front, pattern, e, e', by cbv, by cbv, rfl, by decide +kernel, written, ⟨?_, ?_⟩, ?_⟩
    · exact grows.pc.trans (by decide +kernel)
    · exact grows.registers.trans (by decide +kernel)
    · exact embeds_of_emit written

end Node

end RegexEngine
