import RegexEngine.Proofs.Code.Rules

/-!
# A node's code reads as the node means

By induction on the node: a program that holds the block of a proper node explores the node's
results there (`Node.realises_block`). Where the same node is written several times, every copy has
registers of its own, and each of them keeps the registers before it.
-/

namespace RegexEngine

open Machine.Snapshot

/-! ## Where code stands -/

/-- Says that the program has `code` from `base` on. -/
def Program.Holds (program : Program) (base : Nat) (code : List Inst) : Prop :=
  ∀ i inst, code[i]? = some inst → program.code[base + i]? = some inst

namespace Program

variable {program : Program} {base : Nat} {inst : Inst} {code first second : List Inst}

theorem Holds.head (h : program.Holds base (inst :: code)) : program.code[base]? = some inst :=
  h 0 inst rfl

theorem Holds.tail (h : program.Holds base (inst :: code)) : program.Holds (base + 1) code := by
  intro i other eq
  rw [Nat.add_assoc, Nat.add_comm 1]
  exact h (i + 1) other eq

theorem Holds.left (h : program.Holds base (first ++ second)) : program.Holds base first := by
  intro i other eq
  apply h i other
  rw [List.getElem?_append_left (List.getElem?_eq_some_iff.1 eq).1]
  exact eq

theorem Holds.right (h : program.Holds base (first ++ second)) :
    program.Holds (base + first.length) second := by
  intro i other eq
  rw [Nat.add_assoc]
  apply h (first.length + i) other
  rw [List.getElem?_append_right (Nat.le_add_right _ _), Nat.add_sub_cancel_left]
  exact eq

/-- Says that `P` holds of every instruction from `entry` to `exit`, at its address. -/
def Throughout (program : Program) (P : Nat → Inst → Prop) (entry exit : Nat) : Prop :=
  ∀ pc inst, entry ≤ pc → pc < exit → program.code[pc]? = some inst → P pc inst

namespace Throughout

variable {P : Nat → Inst → Prop} {entry mid exit : Nat}

theorem nil : program.Throughout P entry entry := by
  intro pc inst le lt
  exact absurd le (Nat.not_le.2 lt)

theorem one (code : program.code[entry]? = some inst) (h : P entry inst) :
    program.Throughout P entry (entry + 1) := by
  intro pc other le lt code'
  obtain rfl : pc = entry := Nat.le_antisymm (Nat.le_of_lt_succ lt) le
  cases code.symm.trans code'
  exact h

theorem append (first : program.Throughout P entry mid) (second : program.Throughout P mid exit) :
    program.Throughout P entry exit := by
  intro pc inst le lt code
  rcases Nat.lt_or_ge pc mid with before | behind
  · exact first pc inst le before code
  · exact second pc inst behind lt code

/-- Copies one behind another. What each of them asks for, `Q`, may depend on how many copies are
left, and is passed on from one to the next. -/
theorem of_copies {block : Nat → Nat → List Inst} {size registers : Nat}
    {Q : Nat → Nat → Nat → Prop} (length : ∀ base register, (block base register).length = size)
    (once : ∀ n base register, program.Holds base (block base register) →
      Q (n + 1) base register → program.Throughout P base (base + size))
    (pass : ∀ n base register, program.Holds base (block base register) →
      Q (n + 1) base register → Q n (base + size) (register + registers))
    (n base register : Nat)
    (holds : program.Holds base (copies block size registers n base register))
    (asked : Q n base register) : program.Throughout P base (base + n * size) := by
  induction n generalizing base register with
  | zero =>
    rw [Nat.zero_mul]
    exact nil
  | succ n ih =>
    rw [copies] at holds
    have first := once n base register holds.left asked
    have behind := holds.right
    rw [length] at behind
    have others := ih (base + size) (register + registers) behind
      (pass n base register holds.left asked)
    rw [Nat.succ_mul, Nat.add_comm (n * size), ← Nat.add_assoc]
    exact first.append others

end Throughout

/-- What comes behind a node's block. -/
theorem Holds.behind {node : Node} {entry register : Nat}
    (h : program.Holds base (node.block entry register ++ second)) :
    program.Holds (base + node.size) second := by
  have behind := h.right
  rwa [Node.length_block] at behind

end Program

/-! ## Copies -/

section

variable {program : Program} {block : Nat → Nat → List Inst} {size registers : Nat}
  {read : Reading → List Reading}
  (length : ∀ base register, (block base register).length = size)
  (once : ∀ base register, program.Holds base (block base register) →
    register + registers ≤ program.registers →
    Realises program base (base + size) register read)

include length once in
theorem realises_copies (n base register : Nat)
    (holds : program.Holds base (copies block size registers n base register))
    (enough : register + n * registers ≤ program.registers) :
    Realises program base (base + n * size) register (Reading.inTurn read n) := by
  induction n generalizing base register with
  | zero =>
    rw [Nat.zero_mul]
    exact realises_stay
  | succ n ih =>
    rw [copies] at holds
    rw [Nat.succ_mul] at enough ⊢
    have first := once base register holds.left (by omega)
    have behind := holds.right
    rw [length] at behind
    have others := ih (base + size) (register + registers) behind (by omega)
    rw [Nat.add_comm (n * size), ← Nat.add_assoc]
    exact first.comp others (Nat.le_add_right _ _)

include length once in
/-- Copies that may be left out: each stands behind a choice to go on at the exit. -/
theorem realises_optional {greedy : Bool} {exit : Nat} (n base register : Nat)
    (holds : program.Holds base
      (copies (fun base register => .choose greedy (base + 1) exit :: block (base + 1) register)
        (size + 1) registers n base register))
    (enough : register + n * registers ≤ program.registers)
    (ends : exit = base + n * (size + 1)) :
    Realises program base exit register (Reading.upTo read greedy n) := by
  induction n generalizing base register with
  | zero =>
    rw [Nat.zero_mul] at ends
    rw [ends]
    exact realises_stay
  | succ n ih =>
    rw [copies, List.cons_append] at holds
    rw [Nat.succ_mul] at enough ends
    have first := once (base + 1) register holds.tail.left (by omega)
    have behind := holds.tail.right
    rw [length, Nat.add_assoc, Nat.add_comm 1] at behind
    have others := ih (base + (size + 1)) (register + registers) behind (by omega) (by omega)
    rw [Nat.add_assoc, Nat.add_comm 1] at first
    exact realises_choose holds.head (first.comp others (Nat.le_add_right _ _))

end

namespace Node

variable {program : Program}

/-! ## Nodes -/

/-- A loop's code: the rounds lead back to the choice that began them. -/
theorem realises_loop_block {body : Node} {greedy : Bool} {base register : Nat}
    (once : ∀ base register, program.Holds base (body.block base register) →
      register + body.registers ≤ program.registers →
      Realises program base (base + body.size) register (body.results program.ignoreCase))
    (holds : program.Holds base
      (.choose greedy (base + 1) (base + body.size + guardSize body.nullable + 2) ::
        if body.nullable then
          .mark register ::
            (body.block (base + 2) (register + 1) ++ [.check register, .jump base])
        else body.block (base + 1) register ++ [.jump base]))
    (enough : register + (body.registers + if body.nullable then 1 else 0) ≤ program.registers) :
    Realises program base (base + body.size + guardSize body.nullable + 2) register
      (Reading.loop (body.results program.ignoreCase) greedy) := by
  apply realises_loop holds.head
  have behind := holds.tail
  cases nullable : body.nullable with
  | true =>
    rw [nullable] at behind enough
    rw [if_pos rfl] at behind enough
    have inner := once (base + 2) (register + 1) behind.tail.left (by omega)
    have closing := behind.tail.behind
    have guarded := realises_guarded (by omega) behind.head inner
      (forward_results program.ignoreCase body) closing.head
    have back := guarded.comp (realises_jump closing.tail.head realises_stay) (Nat.le_refl _)
    apply back.congr
    intro r
    exact (List.flatMap_singleton' _).symm
  | false =>
    rw [nullable] at behind enough
    rw [if_neg Bool.false_ne_true] at behind enough
    have inner := once (base + 1) register behind.left enough
    have closing := behind.behind
    have back := inner.comp (realises_jump closing.head realises_stay) (Nat.le_refl _)
    apply back.congr
    intro r
    rw [List.flatMap_singleton']
    exact (consuming_results program.ignoreCase body nullable).filter_movedFrom r

mutual

theorem realises_block (node : Node) (proper : node.Proper) (base register : Nat)
    (holds : program.Holds base (node.block base register))
    (enough : register + node.registers ≤ program.registers) :
    Realises program base (base + node.size) register (node.results program.ignoreCase) := by
  match node with
  | char _ | any | oneOf _ => exact realises_readChar holds.head fun s => rfl
  | atStart | atEnd => exact realises_require holds.head fun s => rfl
  | backreference i => exact realises_backreference holds.head
  | sequence parts => exact realises_sequenceBlock parts proper base register holds enough
  | choice branches =>
    exact realises_choiceBlock _ branches proper.1 proper.2 base register holds rfl enough
  | group body => exact realises_block body proper base register holds enough
  | capture i body =>
    have inner := realises_block body proper (base + 1) register holds.tail.left enough
    have closing := holds.tail.behind
    have whole := realises_capture holds.head inner closing.head
    rw [size]
    have ends : base + 1 + body.size + 1 = base + (body.size + 2) := by omega
    rw [ends] at whole
    exact whole
  | look positive body =>
    have inner := realises_block body proper (base + 1) register holds.tail.left enough
    have closing := holds.tail.behind
    have enter := holds.head
    rw [size, ← Nat.add_assoc]
    rw [Nat.add_right_comm] at inner closing
    cases positive with
    | true => exact realises_lookTrue enter inner closing.head
    | false => exact realises_lookFalse enter inner closing.head
  | repeated body q =>
    rw [block] at holds
    rw [registers] at enough
    rw [size]
    cases nothing : body.emitsNothing with
    | true =>
      -- nothing is written, and the rounds come to nothing but staying
      have idle := (idle_results program.ignoreCase body proper.2 nothing).rounds q
      exact Realises.of_idle idle
    | false =>
      rw [nothing] at holds enough
      rw [if_neg Bool.false_ne_true] at holds enough ⊢
      have once := fun base register => realises_block body proper.2 base register
      have length := fun base register => length_block base register body
      have required := realises_copies length once q.min base register holds.left (by omega)
      -- behind the required copies: their code and their registers
      have behind := holds.right
      rw [length_copies length] at behind
      rw [Quantifier.codeSize, ← Nat.add_assoc]
      refine required.comp ?_ (Nat.le_add_right register (q.min * body.registers))
      unfold Reading.beyond
      cases bound : q.max with
      | some max =>
        rw [bound] at behind enough
        dsimp only at behind enough
        exact realises_optional length once (max - q.min) _ _ behind (by omega) rfl
      | none =>
        rw [bound] at behind enough
        dsimp only at behind enough
        have loop := realises_loop_block once behind (by omega)
        rw [Nat.add_assoc, Nat.add_assoc (_ + _), ← Nat.add_assoc body.size] at loop
        exact loop

theorem realises_sequenceBlock (nodes : List Node) (proper : AllProper nodes)
    (base register : Nat) (holds : program.Holds base (sequenceBlock base register nodes))
    (enough : register + registersOfAll nodes ≤ program.registers) :
    Realises program base (base + sequenceSize nodes) register
      (resultsInTurn program.ignoreCase nodes) := by
  match nodes with
  | [] => exact realises_stay
  | node :: nodes =>
    rw [sequenceBlock] at holds
    rw [registersOfAll] at enough
    have first := realises_block node proper.1 base register holds.left (by omega)
    have behind := holds.behind
    have others := realises_sequenceBlock nodes proper.2 (base + node.size)
      (register + node.registers) behind (by omega)
    rw [sequenceSize, ← Nat.add_assoc]
    exact first.comp others (Nat.le_add_right _ _)

theorem realises_choiceBlock (exit : Nat) (nodes : List Node) (nonempty : nodes ≠ [])
    (proper : AllProper nodes) (base register : Nat)
    (holds : program.Holds base (choiceBlock exit base register nodes))
    (ends : exit = base + choiceSize nodes)
    (enough : register + registersOfAll nodes ≤ program.registers) :
    Realises program base exit register (resultsOfEach program.ignoreCase nodes) := by
  match nodes with
  | [] => exact absurd rfl nonempty
  | [node] =>
    rw [choiceBlock] at holds
    rw [choiceSize] at ends
    rw [ends]
    have only := realises_block node proper.1 base register holds enough
    apply only.congr
    intro r
    rw [resultsOfEach, resultsOfEach, List.append_nil]
  | node :: other :: nodes =>
    rw [choiceBlock] at holds
    rw [registersOfAll] at enough
    rw [choiceSize] at ends
    have first := realises_block node proper.1 (base + 1) register holds.tail.left (by omega)
    have behind := holds.tail.behind
    have onward := first.comp (realises_jump behind.head realises_stay) (Nat.le_refl _)
    have next : base + 1 + node.size + 1 = base + node.size + 2 := by omega
    have rest := behind.tail
    rw [next] at rest
    have others := realises_choiceBlock exit (other :: nodes) (List.cons_ne_nil _ _) proper.2
      (base + node.size + 2) (register + node.registers) rest (by omega) (by omega)
    have both := realises_split holds.head onward (others.lower (Nat.le_add_right _ _))
    apply both.congr
    intro r
    rw [resultsOfEach, List.flatMap_singleton']

end

end Node

/-! ## Whole programs -/

namespace Pattern

variable {pattern : Pattern} {ignoreCase : Bool} {program : Program}

theorem holds_of_compile (h : pattern.compile ignoreCase = .ok program) :
    program.Holds 0 (pattern.root.block 0 0 ++ [.accept]) := by
  intro i inst eq
  rw [← code_of_compile h, Array.getElem?_toList] at eq
  rw [Nat.zero_add]
  exact eq

end Pattern

end RegexEngine
