import RegexEngine.Proofs.Code.Emptiness
import RegexEngine.Proofs.Guards.Abreast
import RegexEngine.Proofs.Guards.Layout
import RegexEngine.Proofs.Patterns.Groups

/-!
# A node's code with more guards and with fewer

`Node.BlocksAlike` says that the code of one node goes with the code of another, which may have more
guards. It is kept by every construct that nodes are made of; so, by induction on the node, wherever
the first program holds a node's block and the second one a block of the same node with more guards,
the two go together (`Node.alike_block`). They may stay where they are only if the node is nullable.
So the guards that only the second program has are never in the way.
-/

namespace RegexEngine

open Machine.Snapshot Machine.Snapshot.Comparison

namespace Machine.Snapshot.Comparison

variable {c : Comparison}

/-! ## Copies -/

section

variable {block block' : Nat → Nat → List Inst} {size size' registers registers' : Nat}
  {idle : Bool}
  (length : ∀ base register, (block base register).length = size)
  (length' : ∀ base register, (block' base register).length = size')
  (once : ∀ base register base' register', c.first.Holds base (block base register) →
    c.second.Holds base' (block' base' register') →
    register + registers ≤ c.first.registers → register' + registers' ≤ c.second.registers →
    c.Alike ⟨base, base + size, register⟩ ⟨base', base' + size', register'⟩ idle)

include length length' once in
theorem alike_copies (n base register base' register' : Nat)
    (holds : c.first.Holds base (copies block size registers n base register))
    (holds' : c.second.Holds base' (copies block' size' registers' n base' register'))
    (enough : register + n * registers ≤ c.first.registers)
    (enough' : register' + n * registers' ≤ c.second.registers) :
    c.Alike ⟨base, base + n * size, register⟩ ⟨base', base' + n * size', register'⟩
      (n == 0 || idle) := by
  induction n generalizing base register base' register' with
  | zero =>
    rw [Nat.zero_mul, Nat.zero_mul]
    exact alike_stay
  | succ n ih =>
    rw [copies] at holds holds'
    rw [Nat.succ_mul] at enough enough' ⊢
    have first := once base register base' register' holds.left holds'.left (by omega) (by omega)
    have behind := holds.right
    have behind' := holds'.right
    rw [length] at behind
    rw [length'] at behind'
    have others := ih _ _ _ _ behind behind' (by omega) (by omega)
    have whole := first.comp others (Nat.le_add_right _ _) (Nat.le_add_right _ _)
    rw [Nat.succ_mul, Nat.add_comm (n * size), Nat.add_comm (n * size'), ← Nat.add_assoc,
      ← Nat.add_assoc]
    exact whole.loosen fun solid => Bool.and_eq_false_iff.2 (.inl solid)

include length length' once in
/-- Copies that may be left out: each stands behind a choice to go on at the exit. -/
theorem alike_optional (closed : c.Closed) {greedy : Bool} {exit exit' : Nat}
    (n base register base' register' : Nat)
    (holds : c.first.Holds base
      (copies (fun base register => .choose greedy (base + 1) exit :: block (base + 1) register)
        (size + 1) registers n base register))
    (holds' : c.second.Holds base'
      (copies (fun base register => .choose greedy (base + 1) exit' :: block' (base + 1) register)
        (size' + 1) registers' n base' register'))
    (enough : register + n * registers ≤ c.first.registers)
    (enough' : register' + n * registers' ≤ c.second.registers)
    (ends : exit = base + n * (size + 1)) (ends' : exit' = base' + n * (size' + 1)) :
    c.Alike ⟨base, exit, register⟩ ⟨base', exit', register'⟩ true := by
  induction n generalizing base register base' register' with
  | zero =>
    rw [Nat.zero_mul] at ends ends'
    rw [ends, ends']
    exact alike_stay
  | succ n ih =>
    rw [copies, List.cons_append] at holds holds'
    rw [Nat.succ_mul] at enough enough' ends ends'
    have first := once (base + 1) register (base' + 1) register' holds.tail.left holds'.tail.left
      (by omega) (by omega)
    have behind := holds.tail.right
    have behind' := holds'.tail.right
    rw [length, Nat.add_assoc, Nat.add_comm 1] at behind
    rw [length', Nat.add_assoc, Nat.add_comm 1] at behind'
    have others := ih _ _ _ _ behind behind' (by omega) (by omega) (by omega) (by omega)
    rw [Nat.add_assoc, Nat.add_comm 1, Nat.add_assoc, Nat.add_comm 1] at first
    exact alike_choose closed holds.head holds'.head
      (first.comp others (Nat.le_add_right _ _) (Nat.le_add_right _ _))

end

end Machine.Snapshot.Comparison

namespace Node

variable {c : Comparison} {always : Bool}

/-! ## One rule for each construct -/

/-- Says that two nodes' blocks go together wherever the programs hold them. -/
def BlocksAlike (c : Comparison) (always : Bool) (node node' : Node) : Prop :=
  ∀ base register base' register', c.first.Holds base (node.block base register) →
    c.second.Holds base' (node'.blockWith always base' register') →
    register + node.registers ≤ c.first.registers →
    register' + node'.registersWith always ≤ c.second.registers →
    c.Alike ⟨base, base + node.size, register⟩ ⟨base', base' + node'.sizeWith always, register'⟩
      node.nullable

/-- Says that the code of nodes in a row goes together wherever the programs hold it. -/
def SequencesAlike (c : Comparison) (always : Bool) (nodes nodes' : List Node) : Prop :=
  ∀ base register base' register', c.first.Holds base (sequenceBlock base register nodes) →
    c.second.Holds base' (sequenceBlockWith always base' register' nodes') →
    register + registersOfAll nodes ≤ c.first.registers →
    register' + registersOfAllWith always nodes' ≤ c.second.registers →
    c.Alike ⟨base, base + sequenceSize nodes, register⟩
      ⟨base', base' + sequenceSizeWith always nodes', register'⟩ (allNullable nodes)

/-- Says that the code of branches goes together wherever the programs hold it. -/
def ChoicesAlike (c : Comparison) (always : Bool) (nodes nodes' : List Node) : Prop :=
  ∀ exit exit' base register base' register',
    c.first.Holds base (choiceBlock exit base register nodes) →
    c.second.Holds base' (choiceBlockWith always exit' base' register' nodes') →
    exit = base + choiceSize nodes → exit' = base' + choiceSizeWith always nodes' →
    register + registersOfAll nodes ≤ c.first.registers →
    register' + registersOfAllWith always nodes' ≤ c.second.registers →
    c.Alike ⟨base, exit, register⟩ ⟨base', exit', register'⟩ (anyNullable nodes)

theorem sequencesAlike_nil : SequencesAlike c always [] [] :=
  fun _ _ _ _ _ _ _ _ => alike_stay

theorem BlocksAlike.cons {node node' : Node} {nodes nodes' : List Node}
    (head : BlocksAlike c always node node') (tail : SequencesAlike c always nodes nodes') :
    SequencesAlike c always (node :: nodes) (node' :: nodes') := by
  intro base register base' register' holds holds' enough enough'
  rw [sequenceBlock] at holds
  rw [sequenceBlockWith] at holds'
  rw [registersOfAll] at enough
  rw [registersOfAllWith] at enough'
  have first := head base register base' register' holds.left holds'.left (by omega) (by omega)
  have others := tail _ _ _ _ holds.behind holds'.behindWith (by omega) (by omega)
  rw [sequenceSize, sequenceSizeWith, ← Nat.add_assoc, ← Nat.add_assoc]
  exact first.comp others (Nat.le_add_right _ _) (Nat.le_add_right _ _)

theorem BlocksAlike.only {node node' : Node} (only : BlocksAlike c always node node') :
    ChoicesAlike c always [node] [node'] := by
  intro exit exit' base register base' register' holds holds' ends ends' enough enough'
  rw [choiceBlock] at holds
  rw [choiceBlockWith] at holds'
  rw [choiceSize] at ends
  rw [choiceSizeWith] at ends'
  rw [ends, ends', anyNullable, anyNullable, Bool.or_false]
  exact only base register base' register' holds holds' enough enough'

theorem SequencesAlike.sequence {parts parts' : List Node}
    (alike : SequencesAlike c always parts parts') :
    BlocksAlike c always (sequence parts) (sequence parts') :=
  alike

theorem ChoicesAlike.choice {branches branches' : List Node}
    (alike : ChoicesAlike c always branches branches') :
    BlocksAlike c always (choice branches) (choice branches') :=
  fun base register base' register' holds holds' =>
    alike _ _ base register base' register' holds holds' rfl rfl

section

variable (closed : c.Closed)
include closed

theorem BlocksAlike.or {node node' other other' : Node} {nodes nodes' : List Node}
    (head : BlocksAlike c always node node')
    (tail : ChoicesAlike c always (other :: nodes) (other' :: nodes')) :
    ChoicesAlike c always (node :: other :: nodes) (node' :: other' :: nodes') := by
  intro exit exit' base register base' register' holds holds' ends ends' enough enough'
  rw [choiceBlock] at holds
  rw [choiceBlockWith] at holds'
  rw [registersOfAll] at enough
  rw [registersOfAllWith] at enough'
  rw [choiceSize] at ends
  rw [choiceSizeWith] at ends'
  have first := head (base + 1) register (base' + 1) register' holds.tail.left holds'.tail.left
    (by omega) (by omega)
  have behind := holds.tail.behind
  have behind' := holds'.tail.behindWith
  have onward := first.comp (alike_jump closed behind.head behind'.head alike_stay)
    (Nat.le_refl _) (Nat.le_refl _)
  have next : base + 1 + node.size + 1 = base + node.size + 2 := by omega
  have next' : base' + 1 + node'.sizeWith always + 1 = base' + node'.sizeWith always + 2 := by
    omega
  have rest := behind.tail
  have rest' := behind'.tail
  rw [next] at rest
  rw [next'] at rest'
  have others := tail exit exit' _ _ _ _ rest rest' (by omega) (by omega) (by omega) (by omega)
  have both := alike_split closed holds.head holds'.head onward
    (others.lower (Nat.le_add_right _ _) (Nat.le_add_right _ _))
  rw [Bool.and_true] at both
  exact both

variable {body body' : Node} (once : BlocksAlike c always body body')
include once

theorem BlocksAlike.capture (same : c.second.ignoreCase = c.first.ignoreCase) (i : Nat) :
    BlocksAlike c always (capture i body) (capture i body') := by
  intro base register base' register' holds holds' enough enough'
  have inner := once (base + 1) register (base' + 1) register' holds.tail.left holds'.tail.left
    enough enough'
  have closing := holds.tail.behind
  have closing' := holds'.tail.behindWith
  have whole := inner.enclosed (alike_save closed same holds.head holds'.head)
    (alike_save closed same closing.head closing'.head)
  have ends : base + 1 + body.size + 1 = base + (body.size + 2) := by omega
  have ends' : base' + 1 + body'.sizeWith always + 1 = base' + (body'.sizeWith always + 2) := by
    omega
  rw [ends, ends'] at whole
  exact whole

theorem BlocksAlike.look (positive : Bool) :
    BlocksAlike c always (look positive body) (look positive body') := by
  intro base register base' register' holds holds' enough enough'
  have inner := once (base + 1) register (base' + 1) register' holds.tail.left holds'.tail.left
    enough enough'
  have closing := holds.tail.behind
  have closing' := holds'.tail.behindWith
  have enter := holds.head
  have enter' := holds'.head
  rw [size, sizeWith, ← Nat.add_assoc, ← Nat.add_assoc]
  rw [Nat.add_right_comm] at closing closing'
  rw [Nat.add_right_comm, Nat.add_right_comm base'] at inner
  exact alike_look closed enter enter' inner closing.head closing'.head

/-- The loops of both programs. Where only the second one is guarded, a round reads something. -/
theorem BlocksAlike.loop (nullables : body'.nullable = body.nullable) {greedy : Bool}
    {base register base' register' : Nat}
    (holds : c.first.Holds base
      (.choose greedy (base + 1) (base + body.size + guardSize body.nullable + 2) ::
        if body.nullable then
          .mark register ::
            (body.block (base + 2) (register + 1) ++ [.check register, .jump base])
        else body.block (base + 1) register ++ [.jump base]))
    (holds' : c.second.Holds base'
      (.choose greedy (base' + 1)
          (base' + body'.sizeWith always + guardSize (body'.guards always) + 2) ::
        if body'.guards always then
          .mark register' ::
            (body'.blockWith always (base' + 2) (register' + 1) ++
              [.check register', .jump base'])
        else body'.blockWith always (base' + 1) register' ++ [.jump base']))
    (enough : register + (body.registers + if body.nullable then 1 else 0) ≤ c.first.registers)
    (enough' : register' + (body'.registersWith always + if body'.guards always then 1 else 0) ≤
      c.second.registers) :
    c.Alike ⟨base, base + body.size + guardSize body.nullable + 2, register⟩
      ⟨base', base' + body'.sizeWith always + guardSize (body'.guards always) + 2, register'⟩
      true := by
  apply alike_loop closed holds.head holds'.head
  have behind := holds.tail
  have behind' := holds'.tail
  cases nullable : body.nullable with
  | true =>
    have guarded : body'.guards always = true := by
      rw [guards, nullables, nullable, Bool.or_true]
    rw [nullable, if_pos rfl] at behind enough
    rw [guarded, if_pos rfl] at behind' enough'
    have inner := once (base + 2) (register + 1) (base' + 2) (register' + 1) behind.tail.left
      behind'.tail.left (by omega) (by omega)
    have closing := behind.tail.behind
    have closing' := behind'.tail.behindWith
    have round := alike_guarded closed (by omega) (by omega) behind.head behind'.head inner
      closing.head closing'.head
    exact round.comp (alike_jump closed closing.tail.head closing'.tail.head alike_stay)
      (Nat.le_refl _) (Nat.le_refl _)
  | false =>
    rw [nullable, if_neg Bool.false_ne_true] at behind enough
    have closing := behind.behind
    cases guarded : body'.guards always with
    | true =>
      rw [guarded, if_pos rfl] at behind' enough'
      have inner := once (base + 1) register (base' + 2) (register' + 1) behind.left
        behind'.tail.left (by omega) (by omega)
      have closing' := behind'.tail.behindWith
      rw [nullable] at inner
      have round := alike_guardedSecond closed (by omega) behind'.head inner closing'.head
      exact round.comp (alike_jump closed closing.head closing'.tail.head alike_stay)
        (Nat.le_refl _) (Nat.le_refl _)
    | false =>
      rw [guarded, if_neg Bool.false_ne_true] at behind' enough'
      have inner := once (base + 1) register (base' + 1) register' behind.left behind'.left
        (by omega) (by omega)
      have closing' := behind'.behindWith
      rw [nullable] at inner
      exact inner.comp (alike_jump closed closing.head closing'.head alike_stay)
        (Nat.le_refl _) (Nat.le_refl _)

/-- A repetition whose body has code: the required copies, and behind them those that may be left
out or a loop. -/
theorem BlocksAlike.repeated (nullables : body'.nullable = body.nullable)
    (emits : body.emitsNothing = false) (emits' : body'.emitsNothing = false) (q : Quantifier) :
    BlocksAlike c always (repeated body q) (repeated body' q) := by
  intro base register base' register' holds holds' enough enough'
  rw [block, emits, if_neg Bool.false_ne_true] at holds
  rw [blockWith] at holds'
  dsimp only at holds'
  rw [emits', if_neg Bool.false_ne_true] at holds'
  rw [registers, emits, if_neg Bool.false_ne_true] at enough
  rw [registersWith, emits', if_neg Bool.false_ne_true] at enough'
  rw [size, sizeWith, nullable, emits, emits', if_neg Bool.false_ne_true,
    if_neg Bool.false_ne_true]
  have length := fun base register => length_block base register body
  have length' := fun base register => @length_blockWith always base register body'
  have required := alike_copies length length' once q.min base register base' register'
    holds.left holds'.left (by omega) (by omega)
  -- what follows the required copies may leave out everything
  have followed {exit exit' : Nat}
      (beyond : c.Alike
        ⟨base + q.min * body.size, exit, register + q.min * body.registers⟩
        ⟨base' + q.min * body'.sizeWith always, exit',
          register' + q.min * body'.registersWith always⟩ true) :
      c.Alike ⟨base, exit, register⟩ ⟨base', exit', register'⟩ (q.min == 0 || body.nullable) := by
    have whole := required.comp beyond (Nat.le_add_right _ _) (Nat.le_add_right _ _)
    rwa [Bool.and_true] at whole
  have behind := holds.right
  have behind' := holds'.right
  rw [length_copies length] at behind
  rw [length_copies length'] at behind'
  rw [Quantifier.codeSize, Quantifier.codeSize, ← Nat.add_assoc, ← Nat.add_assoc]
  apply followed
  cases bound : q.max with
  | some max =>
    rw [bound] at behind behind' enough enough'
    exact alike_optional length length' once closed (max - q.min) _ _ _ _ behind behind'
      (by dsimp only at enough; omega) (by dsimp only at enough'; omega) rfl rfl
  | none =>
    rw [bound] at behind behind' enough enough'
    have loop := once.loop closed nullables behind behind'
      (by dsimp only at enough; omega) (by dsimp only at enough'; omega)
    simp only [Nat.add_assoc] at loop ⊢
    exact loop

end

/-! ## One node with more guards and with fewer -/

mutual

/-- A node's code goes with its code under another policy; if it refers to groups, these have to
count. -/
theorem alike_block (closed : c.Closed) (same : c.second.ignoreCase = c.first.ignoreCase)
    (node : Node) (proper : node.Proper) (notes : ∀ i ∈ node.references, c.noting) :
    BlocksAlike c always node node := by
  match node with
  | char _ | any | oneOf _ =>
    intro base register base' register' holds holds' enough enough'
    refine alike_plain closed holds.head holds'.head fun s s' abreast => ?_
    rw [same]
    exact proceeds_readChar abreast _
  | atStart =>
    intro base register base' register' holds holds' enough enough'
    refine alike_plain closed holds.head holds'.head fun s s' abreast => ?_
    have offset : (s.here.offset == 0) = (s'.here.offset == 0) := by rw [abreast.here]
    exact proceeds_require abreast offset
  | atEnd =>
    intro base register base' register' holds holds' enough enough'
    refine alike_plain closed holds.head holds'.head fun s s' abreast => ?_
    have rest : s.here.rest.isEmpty = s'.here.rest.isEmpty := by rw [abreast.here]
    exact proceeds_require abreast rest
  | backreference i =>
    intro base register base' register' holds holds' enough enough'
    refine alike_plain closed holds.head holds'.head fun s s' abreast => ?_
    rw [same]
    exact proceeds_backreference abreast (notes i (List.mem_singleton_self i)) _ i
  | sequence parts => exact (alike_sequenceBlock closed same parts proper notes).sequence
  | choice branches => exact (alike_choiceBlock closed same branches proper.1 proper.2 notes).choice
  | group body => exact alike_block closed same body proper notes
  | capture i body => exact (alike_block closed same body proper notes).capture closed same i
  | look positive body => exact (alike_block closed same body proper notes).look closed positive
  | repeated body q =>
    cases nothing : body.emitsNothing with
    | true =>
      intro base register base' register' holds holds' enough enough'
      have idle : (repeated body q).nullable = true :=
        nullable_of_emitsNothing (repeated body q) proper
          (by rw [emitsNothing, nothing, Bool.or_true])
      rw [size, sizeWith, nothing, if_pos rfl, if_pos rfl, idle]
      exact alike_stay
    | false =>
      have once : BlocksAlike c always body body := alike_block closed same body proper.2 notes
      exact once.repeated closed rfl nothing nothing q

theorem alike_sequenceBlock (closed : c.Closed) (same : c.second.ignoreCase = c.first.ignoreCase)
    (nodes : List Node) (proper : AllProper nodes)
    (notes : ∀ i ∈ referencesOfAll nodes, c.noting) : SequencesAlike c always nodes nodes := by
  match nodes with
  | [] => exact sequencesAlike_nil
  | node :: nodes =>
    rw [referencesOfAll, List.forall_mem_append] at notes
    exact (alike_block closed same node proper.1 notes.1).cons
      (alike_sequenceBlock closed same nodes proper.2 notes.2)

theorem alike_choiceBlock (closed : c.Closed) (same : c.second.ignoreCase = c.first.ignoreCase)
    (nodes : List Node) (nonempty : nodes ≠ []) (proper : AllProper nodes)
    (notes : ∀ i ∈ referencesOfAll nodes, c.noting) : ChoicesAlike c always nodes nodes := by
  match nodes with
  | [] => exact absurd rfl nonempty
  | [node] =>
    rw [referencesOfAll, List.forall_mem_append] at notes
    exact (alike_block closed same node proper.1 notes.1).only
  | node :: other :: nodes =>
    rw [referencesOfAll, List.forall_mem_append] at notes
    have others := alike_choiceBlock closed same (other :: nodes) (List.cons_ne_nil _ _) proper.2
      notes.2
    exact (alike_block closed same node proper.1 notes.1).or closed others

end

end Node

end RegexEngine
