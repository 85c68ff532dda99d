import RegexEngine.Proofs.Code.Blocks

/-!
# How code is nested

Tests, groups and guarded rounds are brackets in code: one instruction opens them and another one
closes them. Read from front to back, the code before an address says which brackets are open there
(`Program.inside`). In a compiled pattern every instruction stands where it may stand, what closes a
bracket closes the innermost one, and no jump leads into a bracket or out of one
(`Pattern.nested_of_compile`).
-/

namespace RegexEngine

/-! ## Brackets -/

inductive Bracket where
  /-- The body of a test that goes on at `resume`. -/
  | test (resume : Nat)
  | group (i : Nat)
  /-- A round of the loop that uses the register. -/
  | round (register : Nat)
deriving DecidableEq

namespace Inst

/-- The brackets open behind an instruction, the innermost first. -/
def nest (inside : List Bracket) : Inst → List Bracket
  | .enter _ resume => .test resume :: inside
  | .save slot => if slot % 2 = 0 then .group (slot / 2) :: inside else inside.tail
  | .mark register => .round register :: inside
  | .leave | .check _ => inside.tail
  | _ => inside

/-- The addresses that an instruction names. -/
def targets : Inst → List Nat
  | .split first second => [first, second]
  | .jump target => [target]
  | .enter _ resume => [resume]
  | _ => []

/-- Says that an instruction may stand at `pc` inside of these brackets. -/
def Fits (pc : Nat) (inside : List Bracket) : Inst → Prop
  | .leave => ∃ outer, inside = .test (pc + 1) :: outer
  | .save slot => slot % 2 = 1 → ∃ outer, inside = .group (slot / 2) :: outer
  | .mark register => .round register ∉ inside
  | .check register => ∃ outer, inside = .round register :: outer ∧ .round register ∉ outer
  | .accept => inside = []
  | _ => True

theorem mark_or_mem_of_mem_nest {inst : Inst} {inside : List Bracket} {register : Nat}
    (h : .round register ∈ inst.nest inside) :
    inst = .mark register ∨ .round register ∈ inside := by
  cases inst with
  | mark other =>
    rcases List.mem_cons.1 h with eq | mem
    · cases eq
      exact .inl rfl
    · exact .inr mem
  | enter => exact .inr (List.mem_of_ne_of_mem Bracket.noConfusion h)
  | leave | check => exact .inr (List.mem_of_mem_tail h)
  | save slot =>
    right
    rw [nest] at h
    split at h
    · exact List.mem_of_ne_of_mem Bracket.noConfusion h
    · exact List.mem_of_mem_tail h
  | _ => exact .inr h

end Inst

namespace Program

/-- The brackets that are open at an address, the innermost first. -/
def inside (program : Program) (pc : Nat) : List Bracket :=
  (program.code.toList.take pc).foldl Inst.nest []

/-- Says that an instruction fits in at `pc`, that the code goes on behind it unless it accepts, and
that the addresses it names are in the code and inside of the same brackets. -/
structure Nested (program : Program) (pc : Nat) (inst : Inst) : Prop where
  fits : inst.Fits pc (program.inside pc)
  next : inst ≠ .accept → pc + 1 < program.code.size
  targets : ∀ target ∈ inst.targets,
    target < program.code.size ∧ program.inside target = program.inside pc

/-- Says that all instructions from `entry` to `exit` are nested. -/
def NestedFrom (program : Program) (entry exit : Nat) : Prop :=
  ∀ pc inst, entry ≤ pc → pc < exit → program.code[pc]? = some inst → program.Nested pc inst

variable {program : Program} {entry mid exit base register : Nat} {inst : Inst} {code : List Inst}

theorem inside_succ (h : program.code[base]? = some inst) :
    program.inside (base + 1) = inst.nest (program.inside base) := by
  rw [← Array.getElem?_toList] at h
  unfold inside
  rw [List.take_add_one, h, List.foldl_append]
  rfl

theorem inside_succ_of_none (h : program.code[base]? = none) :
    program.inside (base + 1) = program.inside base := by
  rw [← Array.getElem?_toList] at h
  unfold inside
  rw [List.take_add_one, h]
  exact congrArg _ (List.append_nil _)

/-- A round that is open has been marked before, and has been open since then. -/
theorem exists_mark {pc : Nat} (h : .round register ∈ program.inside pc) :
    ∃ mark, mark < pc ∧ program.code[mark]? = some (.mark register) ∧
      ∀ q, mark < q → q ≤ pc → .round register ∈ program.inside q := by
  induction pc with
  | zero => cases h
  | succ pc ih =>
    have extend (before : .round register ∈ program.inside pc) :
        ∃ mark, mark < pc + 1 ∧ program.code[mark]? = some (.mark register) ∧
          ∀ q, mark < q → q ≤ pc + 1 → .round register ∈ program.inside q := by
      obtain ⟨mark, lt, code, since⟩ := ih before
      refine ⟨mark, Nat.lt_succ_of_lt lt, code, ?_⟩
      intro q after le
      rcases Nat.lt_or_eq_of_le le with inside | rfl
      · exact since q after (Nat.le_of_lt_succ inside)
      · exact h
    cases code : program.code[pc]? with
    | none => exact extend (inside_succ_of_none code ▸ h)
    | some inst =>
      have opened := h
      rw [inside_succ code] at opened
      rcases Inst.mark_or_mem_of_mem_nest opened with rfl | before
      · refine ⟨pc, Nat.lt_succ_self pc, code, ?_⟩
        intro q after le
        rwa [Nat.le_antisymm le after]
      · exact extend before

theorem inside_of_holds (h : program.Holds base code) :
    program.inside (base + code.length) = code.foldl Inst.nest (program.inside base) := by
  induction code generalizing base with
  | nil => rfl
  | cons inst code ih =>
    rw [List.length_cons, Nat.add_comm code.length, ← Nat.add_assoc, ih h.tail,
      inside_succ h.head]
    rfl

namespace NestedFrom

theorem nil : program.NestedFrom entry entry := Throughout.nil

theorem one (code : program.code[entry]? = some inst) (h : program.Nested entry inst) :
    program.NestedFrom entry (entry + 1) := Throughout.one code h

theorem append (first : program.NestedFrom entry mid) (second : program.NestedFrom mid exit) :
    program.NestedFrom entry exit := Throughout.append first second

end NestedFrom

end Program

/-! ## Blocks are balanced -/

section

variable {block : Nat → Nat → List Inst} {size registers : Nat}

theorem foldl_nest_copies
    (balanced : ∀ base register inside, (block base register).foldl Inst.nest inside = inside)
    (n base register : Nat) (inside : List Bracket) :
    (copies block size registers n base register).foldl Inst.nest inside = inside := by
  induction n generalizing base register with
  | zero => rfl
  | succ n ih => rw [copies, List.foldl_append, balanced, ih]

end

namespace Node

theorem nest_choose (greedy : Bool) (first second : Nat) (inside : List Bracket) :
    (Inst.choose greedy first second).nest inside = inside := by
  cases greedy <;> rfl

mutual

theorem foldl_nest_block (base register : Nat) (node : Node) (inside : List Bracket) :
    (node.block base register).foldl Inst.nest inside = inside := by
  match node with
  | char _ | any | oneOf _ | backreference _ | atStart | atEnd => rfl
  | sequence parts => exact foldl_nest_sequenceBlock base register parts inside
  | choice branches => exact foldl_nest_choiceBlock _ base register branches inside
  | group body => exact foldl_nest_block base register body inside
  | capture i body =>
    rw [block, List.foldl_cons, List.foldl_append, foldl_nest_block _ _ body]
    simp [Inst.nest]
  | look positive body =>
    rw [block, List.foldl_cons, List.foldl_append, foldl_nest_block _ _ body]
    rfl
  | repeated body q =>
    have once := fun base register => foldl_nest_block base register body
    rw [block]
    split
    · rfl
    · rw [List.foldl_append, foldl_nest_copies once]
      cases q.max with
      | some max =>
        apply foldl_nest_copies
        intro base register inside
        rw [List.foldl_cons, nest_choose, once]
      | none =>
        dsimp only
        rw [List.foldl_cons, nest_choose]
        split
        · rw [List.foldl_cons, List.foldl_append, once]
          rfl
        · rw [List.foldl_append, once]
          rfl

theorem foldl_nest_sequenceBlock (base register : Nat) (nodes : List Node)
    (inside : List Bracket) :
    (sequenceBlock base register nodes).foldl Inst.nest inside = inside := by
  match nodes with
  | [] => rfl
  | node :: nodes =>
    rw [sequenceBlock, List.foldl_append, foldl_nest_block _ _ node,
      foldl_nest_sequenceBlock _ _ nodes]

theorem foldl_nest_choiceBlock (exit base register : Nat) (nodes : List Node)
    (inside : List Bracket) :
    (choiceBlock exit base register nodes).foldl Inst.nest inside = inside := by
  match nodes with
  | [] => rfl
  | [node] => rw [choiceBlock, foldl_nest_block _ _ node]
  | node :: other :: nodes =>
    rw [choiceBlock, List.foldl_cons, List.foldl_append, foldl_nest_block _ _ node,
      List.foldl_cons, foldl_nest_choiceBlock _ _ _ (other :: nodes)]
    rfl

end

end Node

/-! ## Blocks are nested -/

namespace Program

variable {program : Program} {pc base register : Nat} {level : List Bracket} {inst : Inst}

theorem inside_of_block {node : Node} (holds : program.Holds base (node.block base register)) :
    program.inside (base + node.size) = program.inside base := by
  have behind := inside_of_holds holds
  rwa [Node.length_block, Node.foldl_nest_block] at behind

/-- Says that a block of that size can stand at `base` inside of these brackets, and that none of
them is a round of a loop that uses a register from `register` on. -/
structure Site (program : Program) (level : List Bracket) (base size register : Nat) : Prop where
  room : base + size < program.code.size
  inside : program.inside base = level
  fresh : ∀ r, .round r ∈ level → r < register

/-- Instructions that open and close nothing and name no address. -/
theorem nested_plain (fits : inst.Fits pc (program.inside pc)) (targets : inst.targets = [])
    (room : pc + 1 < program.code.size) : program.Nested pc inst :=
  ⟨fits, fun _ => room, by simp [targets]⟩

theorem nested_choose (greedy : Bool) {exit : Nat} (room : exit < program.code.size)
    (within : pc + 1 < program.code.size) (before : program.inside (pc + 1) = program.inside pc)
    (behind : program.inside exit = program.inside pc) :
    program.Nested pc (.choose greedy (pc + 1) exit) := by
  cases greedy <;> exact ⟨trivial, fun _ => within, by simp [Inst.choose, Inst.targets, *]⟩

end Program

section

variable {program : Program} {block : Nat → Nat → List Inst} {size registers : Nat}
  {level : List Bracket}
  (length : ∀ base register, (block base register).length = size)
  (balanced : ∀ base register inside, (block base register).foldl Inst.nest inside = inside)
  (once : ∀ base register, program.Holds base (block base register) →
    program.Site level base size register → program.NestedFrom base (base + size))

include length balanced once in
theorem nested_copies (n base register : Nat)
    (holds : program.Holds base (copies block size registers n base register))
    (site : program.Site level base (n * size) register) :
    program.NestedFrom base (base + n * size) := by
  refine Program.Throughout.of_copies
    (Q := fun n base register => program.Site level base (n * size) register)
    length ?_ ?_ n base register holds site
  · intro n base register holds ⟨room, inside, fresh⟩
    rw [Nat.succ_mul] at room
    exact once base register holds ⟨by omega, inside, fresh⟩
  · intro n base register holds ⟨room, inside, fresh⟩
    have same := Program.inside_of_holds holds
    rw [length, balanced, inside] at same
    rw [Nat.succ_mul] at room
    exact ⟨by omega, same, fun r mem => Nat.lt_add_right _ (fresh r mem)⟩

include length balanced once in
/-- Copies that may be left out: each stands behind a choice to go on at the exit. -/
theorem nested_optional {greedy : Bool} {exit : Nat} (n base register : Nat)
    (holds : program.Holds base
      (copies (fun base register => .choose greedy (base + 1) exit :: block (base + 1) register)
        (size + 1) registers n base register))
    (site : program.Site level base (n * (size + 1)) register)
    (ends : exit = base + n * (size + 1)) :
    program.NestedFrom base (base + n * (size + 1)) := by
  have length' : ∀ base register,
      (Inst.choose greedy (base + 1) exit :: block (base + 1) register).length = size + 1 := by
    intro base register
    rw [List.length_cons, length]
  have balanced' : ∀ base register inside,
      (Inst.choose greedy (base + 1) exit :: block (base + 1) register).foldl Inst.nest inside =
        inside := by
    intro base register inside
    rw [List.foldl_cons, Node.nest_choose, balanced]
  have behind : program.inside exit = level := by
    have same := Program.inside_of_holds holds
    rw [length_copies length', foldl_nest_copies balanced', site.inside] at same
    rw [ends, same]
  have room := site.room
  refine nested_copies length' balanced' ?_ n base register holds site
  intro base register holds site
  have opens := Program.inside_succ holds.head
  rw [Node.nest_choose] at opens
  have within := site.room
  have first := Program.nested_choose greedy (ends ▸ room) (by omega) opens
    (behind.trans site.inside.symm)
  have inner := once (base + 1) register holds.tail
    ⟨by omega, opens.trans site.inside, site.fresh⟩
  have whole := (Program.NestedFrom.one holds.head first).append inner
  rwa [Nat.add_assoc, Nat.add_comm 1] at whole

end

namespace Node

open Program

variable {program : Program}

/-- A loop's code around a round that ends inside of the brackets that it begins in. -/
theorem nested_loop {greedy : Bool} {base stop : Nat} (le : base < stop)
    (choose : program.code[base]? = some (.choose greedy (base + 1) (stop + 1)))
    (round : program.NestedFrom (base + 1) stop) (same : program.inside stop = program.inside base)
    (back : program.code[stop]? = some (.jump base)) (room : stop + 1 < program.code.size) :
    program.NestedFrom base (stop + 1) := by
  have enters := inside_succ choose
  rw [nest_choose] at enters
  have exits := inside_succ back
  have first := nested_choose greedy room (by omega) enters (exits.trans same)
  have last : program.Nested stop (.jump base) := by
    refine ⟨trivial, fun _ => room, ?_⟩
    simp [Inst.targets, same]
    omega
  exact ((NestedFrom.one choose first).append round).append (.one back last)

/-- Code between an instruction that opens a bracket and one that closes it. -/
theorem nested_enclosed {body : Node} {base register : Nat} {opening closing : Inst}
    (once : ∀ level base register, program.Holds base (body.block base register) →
      program.Site level base body.size register → program.NestedFrom base (base + body.size))
    (opens : program.code[base]? = some opening)
    (holds : program.Holds (base + 1) (body.block (base + 1) register))
    (closes : program.code[base + 1 + body.size]? = some closing)
    (room : base + (body.size + 2) < program.code.size)
    (fresh : ∀ r, .round r ∈ opening.nest (program.inside base) → r < register)
    (first : program.Nested base opening)
    (last : program.inside (base + 1 + body.size) = opening.nest (program.inside base) →
      program.Nested (base + 1 + body.size) closing) :
    program.NestedFrom base (base + (body.size + 2)) := by
  have opened := inside_succ opens
  have same := (inside_of_block holds).trans opened
  have inner := once _ (base + 1) register holds ⟨by omega, opened, fresh⟩
  have whole := ((NestedFrom.one opens first).append inner).append (.one closes (last same))
  rwa [show base + 1 + body.size + 1 = base + (body.size + 2) by omega] at whole

/-- A guarded round is a bracket of its own. -/
theorem nested_round {body : Node} {level : List Bracket} {base register : Nat}
    (once : ∀ level base register, program.Holds base (body.block base register) →
      program.Site level base body.size register → program.NestedFrom base (base + body.size))
    (mark : program.code[base]? = some (.mark register))
    (holds : program.Holds (base + 1) (body.block (base + 1) (register + 1)))
    (check : program.code[base + 1 + body.size]? = some (.check register))
    (site : program.Site level base (body.size + 2) register) :
    program.NestedFrom base (base + (body.size + 2)) ∧
      program.inside (base + (body.size + 2)) = level := by
  obtain ⟨room, inside, fresh⟩ := site
  have absent : .round register ∉ level := fun mem => Nat.lt_irrefl _ (fresh register mem)
  have opens := inside_succ mark
  rw [inside] at opens
  have same := (inside_of_block holds).trans opens
  have closes := inside_succ check
  rw [same] at closes
  have first : program.Nested base (.mark register) :=
    nested_plain (inside ▸ absent) rfl (by omega)
  have last : program.Nested (base + 1 + body.size) (.check register) :=
    nested_plain ⟨level, same, absent⟩ rfl (by omega)
  refine ⟨nested_enclosed once mark holds check room ?_ first fun _ => last, ?_⟩
  · rw [inside]
    intro r mem
    rcases List.mem_cons.1 mem with eq | mem
    · cases eq
      exact Nat.lt_succ_self _
    · exact Nat.lt_succ_of_lt (fresh r mem)
  · rwa [show base + (body.size + 2) = base + 1 + body.size + 1 by omega]

theorem nested_loop_block {body : Node} {greedy : Bool} {level : List Bracket}
    {base register : Nat}
    (once : ∀ level base register, program.Holds base (body.block base register) →
      program.Site level base body.size register → program.NestedFrom base (base + body.size))
    (holds : program.Holds base
      (.choose greedy (base + 1) (base + body.size + guardSize body.nullable + 2) ::
        if body.nullable then
          .mark register ::
            (body.block (base + 2) (register + 1) ++ [.check register, .jump base])
        else body.block (base + 1) register ++ [.jump base]))
    (site : program.Site level base (body.size + guardSize body.nullable + 2) register) :
    program.NestedFrom base (base + (body.size + guardSize body.nullable + 2)) := by
  obtain ⟨room, inside, fresh⟩ := site
  have choose := holds.head
  have behind := holds.tail
  have enters := inside_succ choose
  rw [nest_choose, inside] at enters
  cases nullable : body.nullable with
  | true =>
    simp only [nullable, guardSize, if_true] at choose behind room ⊢
    have closing := behind.tail.behind
    obtain ⟨round, same⟩ := nested_round once behind.head behind.tail.left closing.head
      ⟨by omega, enters, fresh⟩
    have stop : base + 1 + 1 + body.size + 1 = base + 1 + (body.size + 2) := by omega
    have back := closing.tail.head
    rw [stop] at back
    have exit : base + body.size + 2 + 2 = base + 1 + (body.size + 2) + 1 := by omega
    rw [exit] at choose
    rw [show base + (body.size + 2 + 2) = base + 1 + (body.size + 2) + 1 by omega]
    exact nested_loop (by omega) choose round (same.trans inside.symm) back (by omega)
  | false =>
    simp only [nullable, guardSize, Bool.false_eq_true, if_false, Nat.add_zero]
      at choose behind room ⊢
    have closing := behind.behind
    have round := once level (base + 1) register behind.left ⟨by omega, enters, fresh⟩
    have same := (inside_of_block behind.left).trans enters
    have exit : base + body.size + 2 = base + 1 + body.size + 1 := by omega
    rw [exit] at choose
    rw [← Nat.add_assoc, exit]
    exact nested_loop (by omega) choose round (same.trans inside.symm) closing.head (by omega)

mutual

theorem nested_block (node : Node) (level : List Bracket) (base register : Nat)
    (holds : program.Holds base (node.block base register))
    (site : program.Site level base node.size register) :
    program.NestedFrom base (base + node.size) := by
  obtain ⟨room, inside, fresh⟩ := site
  match node with
  | char _ | any | oneOf _ | backreference _ | atStart | atEnd =>
    exact .one holds.head (nested_plain trivial rfl room)
  | group body => exact nested_block body level base register holds ⟨room, inside, fresh⟩
  | sequence parts =>
    exact nested_sequenceBlock parts level base register holds ⟨room, inside, fresh⟩
  | choice branches =>
    exact nested_choiceBlock _ branches level base register holds ⟨room, inside, fresh⟩ rfl
      ((inside_of_block holds).trans inside)
  | capture i body =>
    rw [size] at room ⊢
    have once := fun level base register => nested_block body level base register
    have closes := holds.tail.behind.head
    have opened : (Inst.save (2 * i)).nest (program.inside base) = .group i :: level := by
      simp only [Inst.nest, Nat.mul_mod_right, if_true]
      rw [Nat.mul_div_cancel_left i Nat.two_pos, inside]
    have first : program.Nested base (.save (2 * i)) :=
      nested_plain (by simp [Inst.Fits]) rfl (by omega)
    refine nested_enclosed once holds.head holds.tail.left closes room ?_ first ?_
    · simpa [opened] using fresh
    · intro same
      refine nested_plain (fun _ => ⟨level, ?_⟩) rfl (by omega)
      rw [same, opened, show (2 * i + 1) / 2 = i by omega]
  | look positive body =>
    rw [size] at room ⊢
    have once := fun level base register => nested_block body level base register
    have closes := holds.tail.behind.head
    have resume : base + 1 + body.size + 1 = base + body.size + 2 := by omega
    have outside := inside_succ closes
    rw [(inside_of_block holds.tail.left).trans (inside_succ holds.head), resume] at outside
    have first : program.Nested base (.enter positive (base + body.size + 2)) := by
      refine ⟨trivial, fun _ => by omega, ?_⟩
      simpa [Inst.targets] using ⟨by omega, outside⟩
    refine nested_enclosed once holds.head holds.tail.left closes room ?_ first ?_
    · simpa [Inst.nest, inside] using fresh
    · intro same
      refine nested_plain ⟨level, ?_⟩ rfl (by omega)
      rw [same, resume, inside]
      rfl
  | repeated body q =>
    rw [block] at holds
    rw [size] at room ⊢
    cases nothing : body.emitsNothing with
    | true => exact .nil
    | false =>
      rw [nothing] at holds room
      rw [if_neg Bool.false_ne_true] at holds room ⊢
      have length := fun base register => length_block base register body
      have balanced := fun base register => foldl_nest_block base register body
      have once := fun level base register => nested_block body level base register
      rw [Quantifier.codeSize, ← Nat.add_assoc] at room ⊢
      have required := nested_copies length balanced (once level) q.min base register holds.left
        ⟨by omega, inside, fresh⟩
      -- behind the required copies: their code and their registers
      have behind := holds.right
      have same := inside_of_holds holds.left
      rw [length_copies length] at behind
      rw [length_copies length, foldl_nest_copies balanced, inside] at same
      refine required.append ?_
      cases bound : q.max with
      | some max =>
        rw [bound] at behind room
        dsimp only at behind room
        exact nested_optional length balanced (once level) (max - q.min) _ _ behind
          ⟨room, same, fun r mem => Nat.lt_add_right _ (fresh r mem)⟩ rfl
      | none =>
        rw [bound] at behind room
        dsimp only at behind room
        exact nested_loop_block once behind
          ⟨room, same, fun r mem => Nat.lt_add_right _ (fresh r mem)⟩

theorem nested_sequenceBlock (nodes : List Node) (level : List Bracket) (base register : Nat)
    (holds : program.Holds base (sequenceBlock base register nodes))
    (site : program.Site level base (sequenceSize nodes) register) :
    program.NestedFrom base (base + sequenceSize nodes) := by
  obtain ⟨room, inside, fresh⟩ := site
  match nodes with
  | [] => exact .nil
  | node :: nodes =>
    rw [sequenceBlock] at holds
    rw [sequenceSize] at room ⊢
    have first := nested_block node level base register holds.left ⟨by omega, inside, fresh⟩
    have behind := holds.behind
    have site : program.Site level (base + node.size) (sequenceSize nodes)
        (register + node.registers) :=
      ⟨by omega, (inside_of_block holds.left).trans inside,
        fun r mem => Nat.lt_add_right _ (fresh r mem)⟩
    have others := nested_sequenceBlock nodes level _ _ behind site
    rw [← Nat.add_assoc]
    exact first.append others

theorem nested_choiceBlock (exit : Nat) (nodes : List Node) (level : List Bracket)
    (base register : Nat)
    (holds : program.Holds base (choiceBlock exit base register nodes))
    (site : program.Site level base (choiceSize nodes) register)
    (ends : exit = base + choiceSize nodes) (behind : program.inside exit = level) :
    program.NestedFrom base exit := by
  obtain ⟨room, inside, fresh⟩ := site
  match nodes with
  | [] =>
    rw [ends]
    exact .nil
  | [node] =>
    rw [choiceBlock] at holds
    rw [choiceSize] at room ends
    rw [ends]
    exact nested_block node level base register holds ⟨room, inside, fresh⟩
  | node :: other :: nodes =>
    rw [choiceBlock] at holds
    rw [choiceSize] at room ends
    have opens := (inside_succ holds.head).trans inside
    have body_holds := holds.tail.left
    have jumps := holds.tail.behind
    have same := (inside_of_block body_holds).trans opens
    have onward := (inside_succ jumps.head).trans same
    have rest := jumps.tail
    have next : base + 1 + node.size + 1 = base + node.size + 2 := by omega
    rw [next] at onward rest
    have first : program.Nested base (.split (base + 1) (base + node.size + 2)) := by
      refine ⟨trivial, fun _ => by omega, ?_⟩
      simp [Inst.targets, opens, onward, inside]
      omega
    have inner := nested_block node level (base + 1) register body_holds ⟨by omega, opens, fresh⟩
    have jump : program.Nested (base + 1 + node.size) (.jump exit) := by
      refine ⟨trivial, fun _ => by omega, ?_⟩
      simp [Inst.targets, behind, same]
      omega
    have others := nested_choiceBlock exit (other :: nodes) level (base + node.size + 2)
      (register + node.registers) rest
      ⟨by omega, onward, fun r mem => Nat.lt_add_right _ (fresh r mem)⟩ (by omega) behind
    have whole := ((NestedFrom.one holds.head first).append inner).append (.one jumps.head jump)
    rw [next] at whole
    exact whole.append others

end

end Node

/-! ## Whole programs -/

/-- In a compiled pattern all instructions are nested; outside of all brackets it accepts. -/
theorem Pattern.nested_of_compile {pattern : Pattern} {ignoreCase : Bool} {program : Program}
    (h : pattern.compile ignoreCase = .ok program) {pc : Nat} {inst : Inst}
    (code : program.code[pc]? = some inst) : program.Nested pc inst := by
  have holds := holds_of_compile h
  have size := size_of_compile h
  have body := Node.nested_block pattern.root [] 0 0 holds.left ⟨by omega, rfl, nofun⟩
  have accept := holds.behind.head
  have outside := Program.inside_of_block holds.left
  have last : program.Nested (0 + pattern.root.size) .accept :=
    ⟨outside, fun other => absurd rfl other, nofun⟩
  have inside := (Array.getElem?_eq_some_iff.1 code).1
  exact body.append (.one accept last) pc inst (Nat.zero_le pc) (by omega) code

end RegexEngine
