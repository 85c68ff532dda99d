import RegexEngine.Program.Layout

/-!
# Code that is completed afterwards

Where a part ends can also be found out by writing it: an instruction that leads there is left blank
and written once the end has been reached. `Node.emitPatching` is such a pass. It needs no sizes,
but everything depends on each blank being completed, with the right addresses and after parts of
any length have been written behind it. Whatever stands for a blank in the meantime, the pass comes
to the same as `Node.emit` (`Node.emitPatching_eq`), so no blank is left behind.

The two passes are followed side by side. The first may have less behind it than the second, and
then goes at least as far (`Emitter.Follows`); so a node that can be written at one place can be
written wherever there is as much room (`Node.exists_emit_of_trails`).
-/

namespace RegexEngine

namespace Emitter

/-! ## Blanks -/

/-- Write an instruction over the one at `pc`. -/
def patch (e : Emitter) (pc : Nat) (inst : Inst) : Emitter :=
  { e with code := e.code.setIfInBounds pc inst }

/-- Write over the instructions at all these addresses. -/
def patchAll (e : Emitter) (inst : Nat → Inst) (pcs : List Nat) : Emitter :=
  pcs.foldl (fun e pc => e.patch pc (inst pc)) e

/-- Write so many times, each time behind a blank, and say where the blanks are. -/
def timesBehind (blank : Inst) (write : Emitter → Except PatternError Emitter) :
    Nat → Emitter → Except PatternError (List Nat × Emitter)
  | 0, e => .ok ([], e)
  | n + 1, e => do
    let (pcs, e') ← timesBehind blank write n (← write (← e.push blank))
    return (e.pc :: pcs, e')

end Emitter

namespace Node

mutual

/-- Write the code of a node, with `blank` for each instruction that names an address not known
yet. -/
def emitPatching (blank : Inst) : Node → Emitter → Except PatternError Emitter
  | char c, e => do (← e.visit).push (.char c)
  | any, e => do (← e.visit).push .any
  | oneOf cls, e => do (← e.visit).push (.oneOf cls)
  | backreference index, e => do (← e.visit).push (.backreference index)
  | atStart, e => do (← e.visit).push .atStart
  | atEnd, e => do (← e.visit).push .atEnd
  | sequence parts, e => do emitSequencePatching blank parts (← e.visit)
  | choice branches, e => do
    let (jumps, e) ← emitBranches blank branches (← e.visit)
    return e.patchAll (fun _ => .jump e.pc) jumps
  | group body, e => do emitPatching blank body (← e.visit)
  | capture index body, e => do
    let e ← (← e.visit).push (.save (2 * index))
    (← emitPatching blank body e).push (.save (2 * index + 1))
  | look positive body, e => do
    let e ← e.visit
    let enter := e.pc
    let e ← (← emitPatching blank body (← e.push blank)).push .leave
    return e.patch enter (.enter positive e.pc)
  | repeated body q, e => do
    let e ← e.visit
    if body.emitsNothing then
      return e
    let e ← Emitter.times (emitPatching blank body) q.min e
    match q.max with
    | some max =>
      let (splits, e) ← Emitter.timesBehind blank (emitPatching blank body) (max - q.min) e
      return e.patchAll (fun split => .choose q.greedy (split + 1) e.pc) splits
    | none =>
      let split := e.pc
      if body.nullable then
        let register := e.registers
        let e ← (← e.allocate.push blank).push (.mark register)
        let e ← (← emitPatching blank body e).push (.check register)
        let e ← e.push (.jump split)
        return e.patch split (.choose q.greedy (split + 1) e.pc)
      else
        let e ← (← emitPatching blank body (← e.push blank)).push (.jump split)
        return e.patch split (.choose q.greedy (split + 1) e.pc)

def emitSequencePatching (blank : Inst) : List Node → Emitter → Except PatternError Emitter
  | [], e => .ok e
  | node :: nodes, e => do emitSequencePatching blank nodes (← emitPatching blank node e)

/-- Write branches, and say where the jumps from each of them to the end have been left blank. -/
def emitBranches (blank : Inst) : List Node → Emitter → Except PatternError (List Nat × Emitter)
  | [], e => .ok ([], e)
  | node :: nodes, e =>
    match nodes with
    | [] => do return ([], ← emitPatching blank node e)
    | _ :: _ => do
      let split := e.pc
      let e ← emitPatching blank node (← e.push blank)
      let jump := e.pc
      let e ← e.push blank
      let e := e.patch split (.split (split + 1) e.pc)
      let (jumps, e) ← emitBranches blank nodes e
      return (jump :: jumps, e)

end

end Node

/-! ## What completing a blank changes -/

namespace Emitter

variable {d d' e e' : Emitter} {inst blank : Inst} {front back added added' whole : List Inst}
  {pc count count' total : Nat}

@[simp] theorem pc_patch : (e.patch pc inst).pc = e.pc := Array.size_setIfInBounds

@[simp] theorem registers_patch : (e.patch pc inst).registers = e.registers := rfl

@[simp] theorem visits_patch : (e.patch pc inst).visits = e.visits := rfl

theorem patch_patch (inst : Nat → Inst) (pc pc' : Nat) :
    (e.patch pc (inst pc)).patch pc' (inst pc') = (e.patch pc' (inst pc')).patch pc (inst pc) := by
  rcases Nat.decEq pc pc' with apart | same
  · rw [patch, patch, patch, patch, Array.setIfInBounds_comm _ _ apart]
  · rw [same]

/-- It does not matter which blank is completed first. -/
theorem patchAll_cons (inst : Nat → Inst) (pc : Nat) (pcs : List Nat) :
    e.patchAll inst (pc :: pcs) = (e.patchAll inst pcs).patch pc (inst pc) := by
  induction pcs generalizing e with
  | nil => rfl
  | cons other pcs ih =>
    change ((e.patch pc (inst pc)).patch other (inst other)).patchAll inst pcs = _
    rw [patch_patch]
    exact ih

theorem pc_patchAll (inst : Nat → Inst) (pcs : List Nat) : (e.patchAll inst pcs).pc = e.pc := by
  induction pcs with
  | nil => rfl
  | cons pc pcs ih => rw [patchAll_cons, pc_patch, ih]

theorem Grows.patch (front : List Inst) (h : Grows d d' (front ++ blank :: back) count)
    (at_eq : pc = d.pc + front.length) (inst : Inst) :
    Grows d (d'.patch pc inst) (front ++ inst :: back) count := by
  refine ⟨?_, h.registers⟩
  have place : pc = (d.code.toList ++ front).length := by
    rw [List.length_append, Array.length_toList]
    exact at_eq
  rw [Emitter.patch, Array.toList_setIfInBounds, h.code, ← List.append_assoc, place,
    List.set_append_right _ _ (Nat.le_refl _), Nat.sub_self, List.set_cons_zero, List.append_assoc]

/-! ## Two passes side by side -/

/-- Says that `d` has so many instructions and so many visits less than `e`. -/
structure Trails (length visits : Nat) (d e : Emitter) : Prop where
  length : d.code.size + length = e.code.size
  visits : d.visits + visits = e.visits

variable {length visits : Nat}

theorem trails_refl (e : Emitter) : Trails 0 0 e e := ⟨rfl, rfl⟩

theorem Trails.patch (h : Trails length visits d e) (pc : Nat) (inst : Inst) :
    Trails length visits (d.patch pc inst) e :=
  ⟨(congrArg (· + length) pc_patch).trans h.length, h.visits⟩

/-- Says what comes of two parts of passes, the first of which begins at `d` and trails the second:
both are written, the first as `added` with `count` registers, or both are given up. If the first
has less behind it than the second, it may go on where the second is given up. -/
inductive Follows (length visits : Nat) (d : Emitter) (added : List Inst) (count : Nat) :
    Except PatternError Emitter → Except PatternError Emitter → Prop where
  | written {d' e' : Emitter} (grows : Grows d d' added count)
    (trails : Trails length visits d' e') : Follows length visits d added count (.ok d') (.ok e')
  | refused (fault : PatternError) :
    Follows length visits d added count (.error fault) (.error fault)
  | ahead (less : 0 < length + visits) (result : Except PatternError Emitter)
    (fault : PatternError) : Follows length visits d added count result (.error fault)

variable {first second : Except PatternError Emitter}

theorem follows_push (h : Trails length visits d e) (inst inst' : Inst) :
    Follows length visits d [inst] 0 (d.push inst) (e.push inst') := by
  have same := h.length
  unfold push
  split
  · rename_i room
    split
    · refine .written ⟨Array.toList_push, rfl⟩ ⟨?_, h.visits⟩
      rw [Array.size_push, Array.size_push]
      omega
    · exact .ahead (by omega) _ _
  · rw [if_neg (by omega)]
    exact .refused _

theorem follows_visit (h : Trails length visits d e) :
    Follows length visits d [] 0 d.visit e.visit := by
  have same := h.visits
  unfold visit
  split
  · rename_i room
    split
    · refine .written ⟨(List.append_nil _).symm, rfl⟩ ⟨h.length, ?_⟩
      dsimp only
      omega
    · exact .ahead (by omega) _ _
  · rw [if_neg (by omega)]
    exact .refused _

namespace Follows

theorem congr (h : Follows length visits d added count first second) (added_eq : added = added')
    (count_eq : count = count') : Follows length visits d added' count' first second :=
  added_eq ▸ count_eq ▸ h

/-- What is written behind code that has been written already. -/
theorem behind (h : Follows length visits d' added' count' first second)
    (before : Grows d d' added count) :
    Follows length visits d (added ++ added') (count + count') first second := by
  cases h with
  | written grows trails => exact .written (before.trans grows) trails
  | refused fault => exact .refused fault
  | ahead less _ fault => exact .ahead less _ fault

/-- Both passes go on. -/
theorem andThen {next next' : Emitter → Except PatternError Emitter}
    (h : Follows length visits d added count first second)
    (rest : ∀ d' e', Grows d d' added count → Trails length visits d' e' →
      Follows length visits d whole total (next d') (next' e')) :
    Follows length visits d whole total (first >>= next) (second >>= next') := by
  cases h with
  | written grows trails => exact rest _ _ grows trails
  | refused fault => exact .refused fault
  | ahead less _ fault => exact .ahead less _ fault

/-- The first pass completes a blank, whose instruction may depend on where the pass has come to. -/
theorem patch (front : List Inst) (inst : Nat → Inst)
    (h : Follows length visits d (front ++ blank :: back) count first second)
    (at_eq : pc = d.pc + front.length) :
    Follows length visits d (front ++ inst (d.pc + (front.length + (back.length + 1))) :: back)
      count (do let d' ← first; return d'.patch pc (inst d'.pc)) second := by
  cases h with
  | @written d' e' grows trails =>
    have place := grows.pc
    rw [List.length_append, List.length_cons] at place
    rw [← place]
    exact .written (grows.patch front at_eq _) (trails.patch _ _)
  | refused fault => exact .refused fault
  | ahead less _ fault => exact .ahead less _ fault

/-- The first pass completes blanks with the address that it has come to, which was to be
expected. -/
theorem patchAll {result : Except PatternError (List Nat × Emitter)} (inst : Nat → Nat → Inst)
    {exit : Nat}
    (h : Follows length visits d added count
      (do let (pcs, d') ← result; return d'.patchAll (inst exit) pcs) second)
    (ends : exit = d.pc + added.length) :
    Follows length visits d added count
      (do let (pcs, d') ← result; return d'.patchAll (inst d'.pc) pcs) second := by
  cases result with
  | error fault => exact h
  | ok written =>
    obtain ⟨pcs, d'⟩ := written
    change Follows length visits d added count (.ok (d'.patchAll (inst exit) pcs)) second at h
    change Follows length visits d added count (.ok (d'.patchAll (inst d'.pc) pcs)) second
    cases h with
    | written grows trails =>
      have place := grows.pc
      rw [pc_patchAll, ← ends] at place
      rw [place]
      exact .written grows trails
    | ahead less _ fault => exact .ahead less _ fault

end Follows

theorem follows_times {write write' : Emitter → Except PatternError Emitter}
    (block : Nat → Nat → List Inst) (size registers : Nat)
    (length_block : ∀ base register, (block base register).length = size)
    (once : ∀ d e, Trails length visits d e →
      Follows length visits d (block d.pc d.registers) registers (write d) (write' e))
    (n : Nat) (h : Trails length visits d e) :
    Follows length visits d (copies block size registers n d.pc d.registers) (n * registers)
      (times write n d) (times write' n e) := by
  induction n generalizing d e with
  | zero =>
    rw [Nat.zero_mul]
    exact .written (grows_refl d) h
  | succ n ih =>
    rw [Nat.succ_mul, Nat.add_comm (n * registers)]
    refine (once d e h).andThen fun d₁ e₁ grows trails => ?_
    have others := (ih trails).behind grows
    rw [grows.pc, length_block, grows.registers] at others
    exact others

/-- Copies behind blanks that are completed at last, with the same exit for all of them. -/
theorem follows_timesBehind {write write' : Emitter → Except PatternError Emitter}
    (block : Nat → Nat → List Inst) (size registers : Nat)
    (length_block : ∀ base register, (block base register).length = size)
    (once : ∀ d e, Trails length visits d e →
      Follows length visits d (block d.pc d.registers) registers (write d) (write' e))
    (blank : Inst) (inst : Nat → Inst) (other : Emitter → Inst) (n : Nat)
    (h : Trails length visits d e) :
    Follows length visits d
      (copies (fun base register => inst base :: block (base + 1) register) (size + 1) registers n
        d.pc d.registers)
      (n * registers)
      (do let (pcs, d') ← timesBehind blank write n d; return d'.patchAll inst pcs)
      (times (fun e => do write' (← e.push (other e))) n e) := by
  induction n generalizing d e with
  | zero =>
    rw [Nat.zero_mul]
    exact .written (grows_refl d) h
  | succ n ih =>
    have unfolded : (do
          let (pcs, d') ← timesBehind blank write (n + 1) d
          return d'.patchAll inst pcs) = (do
        let d₂ ← write (← d.push blank)
        let d₃ ← (do let (pcs, d') ← timesBehind blank write n d₂; return d'.patchAll inst pcs)
        return d₃.patch d.pc (inst d.pc)) := by
      simp only [timesBehind, bind_assoc, pure_bind, patchAll_cons]
    rw [unfolded, times, bind_assoc, Nat.succ_mul, Nat.add_comm (n * registers)]
    refine (follows_push h blank (other e)).andThen fun d₁ e₁ grows₁ trails₁ => ?_
    have first := (once d₁ e₁ trails₁).behind grows₁
    refine first.andThen fun d₂ e₂ grows₂ trails₂ => ?_
    have others := (ih trails₂).behind grows₂
    have pc₁ : d₁.pc = d.pc + 1 := grows₁.pc
    have pc₂ : d₂.pc = d.pc + (size + 1) := by
      rw [grows₂.pc, List.length_append, length_block, List.length_singleton, Nat.add_comm 1]
    have completed := Follows.patch [] (fun _ => inst d.pc) others rfl
    rw [pc₁, pc₂, grows₁.registers, grows₂.registers] at completed
    exact completed.congr (by simp [copies]) (by omega)

end Emitter

/-! ## The passes come to the same -/

namespace Node

open Emitter

variable {d e e' : Emitter} {length visits : Nat}

theorem follows_leaf (h : Trails length visits d e) (inst : Inst) :
    Follows length visits d [inst] 0 (do (← d.visit).push inst) (do (← e.visit).push inst) :=
  (follows_visit h).andThen fun _ _ grows trails => (follows_push trails inst inst).behind grows

section

variable {blank : Inst} {body : Node} {added : List Inst} {count : Nat}
  (once : ∀ d e, Trails length visits d e →
    Follows length visits d (body.block d.pc d.registers) body.registers
      (body.emitPatching blank d) (body.emit e))

include once in
/-- A body behind code that has been written already. -/
theorem follows_body {d' : Emitter} (before : Grows d d' added count)
    (h : Trails length visits d' e') :
    Follows length visits d (added ++ body.block (d.pc + added.length) (d.registers + count))
      (count + body.registers) (body.emitPatching blank d') (body.emit e') := by
  have inner := (once d' e' h).behind before
  rwa [before.pc, before.registers] at inner

include once in
/-- A loop: the first pass completes its split when it has written the jump back. -/
theorem follows_loop (greedy : Bool) (start exit : Nat) (h : Trails length visits d e) :
    Follows length visits d
      (.choose greedy (d.pc + 1) (d.pc + body.size + guardSize body.nullable + 2) ::
        if body.nullable then
          .mark d.registers ::
            (body.block (d.pc + 2) (d.registers + 1) ++ [.check d.registers, .jump d.pc])
        else body.block (d.pc + 1) d.registers ++ [.jump d.pc])
      (body.registers + if body.nullable then 1 else 0)
      (do
        let split := d.pc
        if body.nullable then
          let register := d.registers
          let d ← (← d.allocate.push blank).push (.mark register)
          let d ← (← body.emitPatching blank d).push (.check register)
          let d ← d.push (.jump split)
          return d.patch split (.choose greedy (split + 1) d.pc)
        else
          let d ← (← body.emitPatching blank (← d.push blank)).push (.jump split)
          return d.patch split (.choose greedy (split + 1) d.pc))
      (do
        let e ← e.push (.choose greedy (start + 1) exit)
        if body.nullable then
          let register := e.registers
          let e ← e.allocate.push (.mark register)
          let e ← (← body.emit e).push (.check register)
          e.push (.jump start)
        else
          (← body.emit e).push (.jump start)) := by
  cases body.nullable with
  | true =>
    simp only [if_true]
    have opened := (follows_push (d := d.allocate) ⟨h.length, h.visits⟩ blank
      (.choose greedy (start + 1) exit)).behind (grows_allocate d)
    refine opened.andThen fun d₁ e₁ grows₁ trails₁ => ?_
    have marked := (follows_push (e := e₁.allocate) ⟨trails₁.length, trails₁.visits⟩
      (.mark d.registers) (.mark e₁.registers)).behind grows₁
    refine marked.andThen fun d₂ e₂ grows₂ trails₂ => ?_
    refine (follows_body once grows₂ trails₂).andThen fun d₃ e₃ grows₃ trails₃ => ?_
    have checked := (follows_push trails₃ (.check d.registers) (.check e₁.registers)).behind grows₃
    refine checked.andThen fun d₄ e₄ grows₄ trails₄ => ?_
    have closed := (follows_push trails₄ (.jump d.pc) (.jump start)).behind grows₄
    have completed := Follows.patch [] (fun pc => .choose greedy (d.pc + 1) pc) closed rfl
    exact completed.congr (by simp [length_block, guardSize, Nat.add_assoc]) (by omega)
  | false =>
    simp only [Bool.false_eq_true, if_false]
    refine (follows_push h blank (.choose greedy (start + 1) exit)).andThen
      fun d₁ e₁ grows₁ trails₁ => ?_
    refine (follows_body once grows₁ trails₁).andThen fun d₂ e₂ grows₂ trails₂ => ?_
    have closed := (follows_push trails₂ (.jump d.pc) (.jump start)).behind grows₂
    have completed := Follows.patch [] (fun pc => .choose greedy (d.pc + 1) pc) closed rfl
    exact completed.congr (by simp [length_block, guardSize, Nat.add_assoc]) (by omega)

end

mutual

theorem follows_emitPatching (blank : Inst) (node : Node) (d e : Emitter)
    (h : Trails length visits d e) :
    Follows length visits d (node.block d.pc d.registers) node.registers
      (node.emitPatching blank d) (node.emit e) := by
  match node with
  | char _ | any | oneOf _ | backreference _ | atStart | atEnd => exact follows_leaf h _
  | sequence parts =>
    refine (follows_visit h).andThen fun d₁ e₁ grows trails => ?_
    have inner := (follows_emitSequencePatching blank parts d₁ e₁ trails).behind grows
    rw [grows.pc, grows.registers] at inner
    exact inner.congr rfl (Nat.zero_add _)
  | choice branches =>
    refine (follows_visit h).andThen fun d₁ e₁ grows trails => ?_
    have inner := follows_emitBranches blank (d₁.pc + choiceSize branches)
      (e₁.pc + (choiceShape branches).size) branches d₁ e₁ trails
    have completed := Follows.patchAll (fun exit _ => .jump exit) inner (by rw [length_choiceBlock])
    have whole := completed.behind grows
    rw [grows.pc, grows.registers] at whole
    exact whole.congr rfl (Nat.zero_add _)
  | group body =>
    refine (follows_visit h).andThen fun d₁ e₁ grows trails => ?_
    have inner := follows_body (follows_emitPatching blank body) grows trails
    exact inner.congr rfl (Nat.zero_add _)
  | capture index body =>
    refine (follows_visit h).andThen fun d₁ e₁ grows₁ trails₁ => ?_
    have opened := (follows_push trails₁ (.save (2 * index)) (.save (2 * index))).behind grows₁
    refine opened.andThen fun d₂ e₂ grows₂ trails₂ => ?_
    have inner := follows_body (follows_emitPatching blank body) grows₂ trails₂
    refine inner.andThen fun d₃ e₃ grows₃ trails₃ => ?_
    have closed := (follows_push trails₃ (.save (2 * index + 1)) (.save (2 * index + 1))).behind
      grows₃
    exact closed.congr rfl (by rw [registers]; omega)
  | look positive body =>
    refine (follows_visit h).andThen fun d₁ e₁ grows₁ trails₁ => ?_
    have opened := (follows_push trails₁ blank
      (.enter positive (e₁.pc + body.shape.size + 2))).behind grows₁
    refine opened.andThen fun d₂ e₂ grows₂ trails₂ => ?_
    have inner := follows_body (follows_emitPatching blank body) grows₂ trails₂
    refine inner.andThen fun d₃ e₃ grows₃ trails₃ => ?_
    have closed := (follows_push trails₃ .leave .leave).behind grows₃
    have completed := Follows.patch [] (fun pc => .enter positive pc) closed grows₁.pc
    exact completed.congr (by simp [block, length_block, Nat.add_assoc])
      (by rw [registers]; omega)
  | repeated body q =>
    have once : ∀ d e, Trails length visits d e →
        Follows length visits d (body.block d.pc d.registers) body.registers
          (body.emitPatching blank d) (body.emit e) := follows_emitPatching blank body
    have length_block := fun base register => length_block base register body
    refine (follows_visit h).andThen fun d₁ e₁ grows₁ trails₁ => ?_
    simp only [shape_eq, block, registers]
    cases body.emitsNothing with
    | true =>
      simp only [if_true]
      exact .written grows₁ trails₁
    | false =>
      simp only [Bool.false_eq_true, if_false]
      have required := (follows_times _ _ _ length_block once q.min trails₁).behind grows₁
      rw [grows₁.pc, grows₁.registers] at required
      refine required.andThen fun d₂ e₂ grows₂ trails₂ => ?_
      have pc₂ : d₂.pc = d.pc + q.min * body.size := by
        rw [grows₂.pc, List.length_append, length_copies length_block, List.length_nil,
          Nat.zero_add]
      have register₂ : d₂.registers = d.registers + q.min * body.registers := by
        rw [grows₂.registers, Nat.zero_add]
      rw [← pc₂, ← register₂]
      cases q.max with
      | some max =>
        have optional := follows_timesBehind _ _ _ length_block once blank
          (fun split => .choose q.greedy (split + 1) (d₂.pc + (max - q.min) * (body.size + 1)))
          (fun e => .choose q.greedy (e.pc + 1) (e₂.pc + (max - q.min) * (body.size + 1)))
          (max - q.min) trails₂
        have completed := Follows.patchAll (fun exit split => .choose q.greedy (split + 1) exit)
          optional (by rw [length_copies (by simp [length_block])])
        exact (completed.behind grows₂).congr rfl (congrArg (· + _) (Nat.zero_add _))
      | none =>
        have loop := follows_loop once q.greedy e₂.pc
          (e₂.pc + body.size + guardSize body.nullable + 2) trails₂
        exact (loop.behind grows₂).congr rfl (congrArg (· + _) (Nat.zero_add _))

theorem follows_emitSequencePatching (blank : Inst) (nodes : List Node) (d e : Emitter)
    (h : Trails length visits d e) :
    Follows length visits d (sequenceBlock d.pc d.registers nodes) (registersOfAll nodes)
      (emitSequencePatching blank nodes d) (emitSequence nodes e) := by
  match nodes with
  | [] => exact .written (grows_refl d) h
  | node :: nodes =>
    refine (follows_emitPatching blank node d e h).andThen fun d₁ e₁ grows trails => ?_
    have others := (follows_emitSequencePatching blank nodes d₁ e₁ trails).behind grows
    rw [grows.pc, length_block, grows.registers] at others
    exact others

/-- Whatever exit the jumps of the first pass are completed with. -/
theorem follows_emitBranches (blank : Inst) (exit exit' : Nat) (nodes : List Node)
    (d e : Emitter) (h : Trails length visits d e) :
    Follows length visits d (choiceBlock exit d.pc d.registers nodes) (registersOfAll nodes)
      (do
        let (jumps, d') ← emitBranches blank nodes d
        return d'.patchAll (fun _ => .jump exit) jumps)
      (emitChoice exit' nodes e) := by
  match nodes with
  | [] => exact .written (grows_refl d) h
  | [node] =>
    have only := (follows_emitPatching blank node d e h).congr rfl (Nat.add_zero _).symm
    rw [emitBranches, bind_assoc]
    simp only [pure_bind, patchAll, List.foldl_nil, bind_pure]
    exact only
  | node :: other :: nodes =>
    have unfolded : (do
          let (jumps, d') ← emitBranches blank (node :: other :: nodes) d
          return d'.patchAll (fun _ => .jump exit) jumps) = (do
        let d₂ ← emitPatching blank node (← d.push blank)
        let d₃ ← d₂.push blank
        let d₄ ← (do
          let (jumps, d') ← emitBranches blank (other :: nodes)
            (d₃.patch d.pc (.split (d.pc + 1) d₃.pc))
          return d'.patchAll (fun _ => .jump exit) jumps)
        return d₄.patch d₂.pc (.jump exit)) := by
      rw [emitBranches]
      simp only [bind_assoc, pure_bind, patchAll_cons]
    rw [unfolded]
    have opened := follows_push h blank (.split (e.pc + 1) (e.pc + node.shape.size + 2))
    refine opened.andThen fun d₁ e₁ grows₁ trails₁ => ?_
    have first := follows_body (follows_emitPatching blank node) grows₁ trails₁
    refine first.andThen fun d₂ e₂ grows₂ trails₂ => ?_
    have left := (follows_push trails₂ blank (.jump exit')).behind grows₂
    refine left.andThen fun d₃ e₃ grows₃ trails₃ => ?_
    have pc₃ : d₃.pc = d.pc + node.size + 2 := by
      rw [grows₃.pc]
      simp [length_block]
      omega
    -- the split is completed before the other branches are written, the jump behind them all
    have begun := Grows.patch [] grows₃ rfl (.split (d.pc + 1) d₃.pc)
    have others := (follows_emitBranches blank exit exit' (other :: nodes) _ e₃
      (trails₃.patch d.pc (.split (d.pc + 1) d₃.pc))).behind begun
    rw [pc_patch, registers_patch, grows₃.registers] at others
    have front := others.congr
      (List.append_assoc (.split (d.pc + 1) d₃.pc :: node.block (d.pc + 1) d.registers) [blank] _)
      rfl
    have ended := front.patch _ (fun _ => .jump exit) grows₂.pc
    rw [pc₃] at ended ⊢
    refine ended.congr ?_ (by simp only [registersOfAll]; omega)
    rw [choiceBlock, Nat.zero_add, Nat.add_zero]
    rfl

end

/-- Whatever has been left blank is completed: it does not matter what stood there. -/
theorem emitPatching_eq (blank : Inst) (node : Node) (e : Emitter) :
    node.emitPatching blank e = node.emit e := by
  have follows := follows_emitPatching blank node e e (trails_refl e)
  have grows := node.grows_emit e
  generalize node.emitPatching blank e = patched at follows ⊢
  generalize node.emit e = plain at follows grows ⊢
  cases follows with
  | @written e₁ e₂ grows₁ trails =>
    have grows₂ := grows e₂ rfl
    have code : e₁.code = e₂.code := Array.toList_inj.1 (grows₁.code.trans grows₂.code.symm)
    have registers : e₁.registers = e₂.registers :=
      grows₁.registers.trans grows₂.registers.symm
    obtain ⟨code₁, registers₁, visits₁⟩ := e₁
    obtain rfl : code₁ = e₂.code := code
    obtain rfl : registers₁ = e₂.registers := registers
    obtain rfl : visits₁ = e₂.visits := trails.visits
    rfl
  | refused => rfl
  | ahead less => exact absurd less (Nat.lt_irrefl 0)

/-- What can be written at one place can be written at any other with as much room. -/
theorem exists_emit_of_trails {node : Node} (h : Trails length visits d e)
    (written : node.emit e = .ok e') : ∃ d', node.emit d = .ok d' := by
  have follows := follows_emitPatching .accept node d e h
  rw [emitPatching_eq, written] at follows
  generalize node.emit d = result at follows ⊢
  cases follows with
  | @written d' => exact ⟨d', rfl⟩

end Node

end RegexEngine
