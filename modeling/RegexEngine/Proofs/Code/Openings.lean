import RegexEngine.Proofs.Code.Operands

/-!
# Groups do not open inside of themselves

The capturing groups of a pattern carry different numbers, so where the code of a compiled pattern
opens a group, that group is not open already (`Pattern.group_not_mem_inside`). Copies of a group
that a repetition makes stand one behind the other, each closed before the next one opens.
-/

namespace RegexEngine

/-- Says that code that begins inside of these brackets opens no group inside of itself. -/
def OpensAnew : List Bracket → List Inst → Prop
  | _, [] => True
  | inside, inst :: code =>
    (∀ i, inst = .save (2 * i) → .group i ∉ inside) ∧ OpensAnew (inst.nest inside) code

theorem opensAnew_append {inside : List Bracket} {first second : List Inst} :
    OpensAnew inside (first ++ second) ↔
      OpensAnew inside first ∧ OpensAnew (first.foldl Inst.nest inside) second := by
  induction first generalizing inside with
  | nil => simp [OpensAnew]
  | cons inst first ih => simp [OpensAnew, ih, and_assoc]

/-- Instructions that open no group do not matter. -/
theorem opensAnew_cons {inst : Inst} {inside : List Bracket} {code : List Inst}
    (other : ∀ i, inst ≠ .save (2 * i)) (h : OpensAnew (inst.nest inside) code) :
    OpensAnew inside (inst :: code) :=
  ⟨fun i same => absurd same (other i), h⟩

theorem opensAnew_choose {greedy : Bool} {first second : Nat} {inside : List Bracket}
    {code : List Inst} (h : OpensAnew inside code) :
    OpensAnew inside (.choose greedy first second :: code) := by
  refine opensAnew_cons ?_ ((Node.nest_choose greedy first second inside).symm ▸ h)
  cases greedy <;> exact nofun

theorem opensAnew_copies {block : Nat → Nat → List Inst} {size registers : Nat}
    {inside : List Bracket}
    (balanced : ∀ base register inside, (block base register).foldl Inst.nest inside = inside)
    (once : ∀ base register, OpensAnew inside (block base register)) (n base register : Nat) :
    OpensAnew inside (copies block size registers n base register) := by
  induction n generalizing base register with
  | zero => trivial
  | succ n ih =>
    refine opensAnew_append.2 ⟨once base register, ?_⟩
    rw [balanced]
    exact ih _ _

namespace Node

mutual

theorem opensAnew_block (base register : Nat) (node : Node) (inside : List Bracket)
    (apart : node.captures.Nodup) (outside : ∀ i ∈ node.captures, .group i ∉ inside) :
    OpensAnew inside (node.block base register) := by
  match node with
  | char _ | any | oneOf _ | backreference _ | atStart | atEnd => exact opensAnew_cons nofun trivial
  | sequence parts => exact opensAnew_sequenceBlock base register parts inside apart outside
  | choice branches => exact opensAnew_choiceBlock _ base register branches inside apart outside
  | group body => exact opensAnew_block base register body inside apart outside
  | capture i body =>
    obtain ⟨new, apart⟩ := List.nodup_cons.1 apart
    obtain ⟨here, within⟩ := List.forall_mem_cons.1 outside
    have opened : (Inst.save (2 * i)).nest inside = .group i :: inside := by
      simp [Inst.nest]
    -- the groups in the body carry other numbers than the group around it
    have inner := opensAnew_block (base + 1) register body (.group i :: inside) apart (by
      intro j mem
      rw [List.mem_cons, Bracket.group.injEq, not_or]
      exact ⟨fun same => new (same ▸ mem), within j mem⟩)
    rw [block]
    refine ⟨?_, ?_⟩
    · intro j same
      have eq : 2 * i = 2 * j := Inst.save.inj same
      obtain rfl : i = j := by omega
      exact here
    · rw [opened]
      refine opensAnew_append.2 ⟨inner, opensAnew_cons ?_ trivial⟩
      -- slots that end groups are odd
      intro j same
      have even : 2 * i + 1 = 2 * j := Inst.save.inj same
      omega
  | look positive body =>
    have inner := opensAnew_block (base + 1) register body
      (.test (base + body.size + 2) :: inside) apart (by
        intro j mem
        rw [List.mem_cons, not_or]
        exact ⟨nofun, outside j mem⟩)
    rw [block]
    exact opensAnew_cons nofun (opensAnew_append.2 ⟨inner, opensAnew_cons nofun trivial⟩)
  | repeated body q =>
    have balanced := fun base register => foldl_nest_block base register body
    have once (inside : List Bracket) (outside : ∀ i ∈ body.captures, .group i ∉ inside)
        (base register : Nat) : OpensAnew inside (body.block base register) :=
      opensAnew_block base register body inside apart outside
    rw [block]
    split
    · trivial
    · refine opensAnew_append.2 ⟨opensAnew_copies balanced (once inside outside) _ _ _, ?_⟩
      rw [foldl_nest_copies balanced]
      cases q.max with
      | some max =>
        refine opensAnew_copies ?_ ?_ _ _ _
        · intro base register inside
          rw [List.foldl_cons, nest_choose, balanced]
        · exact fun base register => opensAnew_choose (once inside outside _ register)
      | none =>
        refine opensAnew_choose ?_
        split
        · refine opensAnew_cons nofun (opensAnew_append.2 ⟨once _ ?_ _ _, ?_⟩)
          · intro i mem
            rw [Inst.nest, List.mem_cons, not_or]
            exact ⟨nofun, outside i mem⟩
          · exact opensAnew_cons nofun (opensAnew_cons nofun trivial)
        · exact opensAnew_append.2 ⟨once inside outside _ _, opensAnew_cons nofun trivial⟩

theorem opensAnew_sequenceBlock (base register : Nat) (nodes : List Node) (inside : List Bracket)
    (apart : (capturesOfAll nodes).Nodup) (outside : ∀ i ∈ capturesOfAll nodes, .group i ∉ inside) :
    OpensAnew inside (sequenceBlock base register nodes) := by
  match nodes with
  | [] => trivial
  | node :: nodes =>
    obtain ⟨first_apart, others_apart, -⟩ := List.nodup_append.1 apart
    obtain ⟨first_outside, others_outside⟩ := List.forall_mem_append.1 outside
    refine opensAnew_append.2
      ⟨opensAnew_block base register node inside first_apart first_outside, ?_⟩
    rw [foldl_nest_block]
    exact opensAnew_sequenceBlock _ _ nodes inside others_apart others_outside

theorem opensAnew_choiceBlock (exit base register : Nat) (nodes : List Node)
    (inside : List Bracket) (apart : (capturesOfAll nodes).Nodup)
    (outside : ∀ i ∈ capturesOfAll nodes, .group i ∉ inside) :
    OpensAnew inside (choiceBlock exit base register nodes) := by
  obtain _ | ⟨node, nodes⟩ := nodes
  · trivial
  obtain ⟨first_apart, others_apart, -⟩ := List.nodup_append.1 apart
  obtain ⟨first_outside, others_outside⟩ := List.forall_mem_append.1 outside
  have first (base register : Nat) : OpensAnew inside (node.block base register) :=
    opensAnew_block base register node inside first_apart first_outside
  match nodes with
  | [] => exact first base register
  | other :: nodes =>
    rw [choiceBlock]
    refine opensAnew_cons nofun (opensAnew_append.2 ⟨first _ _, opensAnew_cons nofun ?_⟩)
    show OpensAnew ((node.block (base + 1) register).foldl Inst.nest inside) _
    rw [foldl_nest_block]
    exact opensAnew_choiceBlock exit _ _ (other :: nodes) inside others_apart others_outside

end

end Node

/-! ## Whole programs -/

namespace Pattern

variable {pattern : Pattern} {ignoreCase : Bool} {program : Program} {pc i : Nat}

/-- A group that opens is not open already. -/
theorem group_not_mem_inside (normal : pattern.Normal)
    (h : pattern.compile ignoreCase = .ok program)
    (code : program.code[pc]? = some (.save (2 * i))) : .group i ∉ program.inside pc := by
  have apart : pattern.root.captures.Nodup := by
    rw [normal.numbered]
    exact List.nodup_range'
  have anew : OpensAnew [] program.code.toList := by
    rw [code_of_compile h]
    refine opensAnew_append.2 ⟨?_, opensAnew_cons nofun trivial⟩
    exact Node.opensAnew_block 0 0 pattern.root [] apart fun _ _ => List.not_mem_nil
  rw [← Array.getElem?_toList] at code
  obtain ⟨inside, eq⟩ := List.getElem?_eq_some_iff.1 code
  rw [← List.take_append_drop pc program.code.toList, List.drop_eq_getElem_cons inside, eq,
    opensAnew_append] at anew
  exact anew.2.1 i rfl

/-- The slots that code writes are those of the pattern's groups. -/
theorem slot_of_save (normal : pattern.Normal) (h : pattern.compile ignoreCase = .ok program)
    {slot : Nat} (code : program.code[pc]? = some (.save slot)) :
    1 ≤ slot / 2 ∧ slot / 2 ≤ program.groups := by
  have mem : slot / 2 ∈ pattern.root.captures := mentions_of_compile h code
  rw [normal.numbered, List.mem_range'_1] at mem
  rw [groups_of_compile h]
  omega

end Pattern

end RegexEngine
