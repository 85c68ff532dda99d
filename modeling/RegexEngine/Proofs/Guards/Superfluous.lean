import Mathlib
import RegexEngine.Proofs.Branches.Placement
import RegexEngine.Proofs.Code.Origins
import RegexEngine.Proofs.Guards.Agreement
import RegexEngine.Proofs.Guards.Blocks

/-!
# Guards that are never in the way

Guarding the loops whose rounds always read something changes nothing that can be observed: a
program with all guards and the compiler's own program give the same answers under the same limits
of depth, as long as neither is stopped for its number of steps (`Agree.matchAt_eq`). The reason is
that a node which is not nullable never comes to its end where it began
(`Node.offset_lt_of_execution`). Both follow from `Node.alike_block`, which leaves open what is to
be shown of the two machines: that they agree in the end, or something of the first one alone.
-/

namespace RegexEngine

/-! ## Executions of a stretch of code -/

namespace Machine

/-- Says that the execution of code that ends at `exit`, above so many frames, comes from one
progress to another. Short of the exit it goes on instruction by instruction. At the exit it goes
back, as it does if what follows fails; and it is over when it goes below the frames. -/
inductive Execution (program : Program) (exit height : Nat) : Progress → Progress → Prop where
  | refl (p : Progress) : Execution program exit height p p
  | step {s : State} {p : Progress} (above : height ≤ s.stack.height) (before : s.pc ≠ exit)
    (rest : Execution program exit height (s.step program) p) :
    Execution program exit height (.running s) p
  | back {s : State} {p : Progress} (above : height ≤ s.stack.height) (ended : s.pc = exit)
    (rest : Execution program exit height s.backtrack p) :
    Execution program exit height (.running s) p

namespace Snapshot

/-- Says that no execution which is as far as this one ever stands at the exit where `start` is. -/
def NeverIdle (program : Program) (exit height : Nat) (start : Cursor) (p : Progress) : Prop :=
  ∀ (q : Machine.Progress) (t : Machine.State), q.Mirrors p →
    Execution program exit height q (.running t) → height ≤ t.stack.height → t.pc = exit →
    start.offset < t.here.offset

theorem length_lt_of_fallBack {stack : List Frame} {looks : List Nat} {s : State}
    (h : State.fallBack stack looks = .running s) : s.stack.length < stack.length := by
  induction stack generalizing looks with
  | nil => cases h
  | cons frame stack ih =>
    cases frame with
    | retry pc here memory =>
      cases h
      exact Nat.lt_succ_self _
    | look positive resume here memory =>
      cases positive with
      | true => exact Nat.lt_succ_of_lt (ih h)
      | false =>
        cases h
        exact Nat.lt_succ_self _

/-- Going back below the frames is the end of an execution. -/
theorem neverIdle_of_below {program : Program} {exit : Nat} {start : Cursor} {stack : List Frame}
    {looks : List Nat} :
    NeverIdle program exit stack.length start (State.fallBack stack looks) := by
  intro q t mirrors execution above ended
  cases q with
  | failed | accepted => cases execution
  | running s =>
    have below := length_lt_of_fallBack mirrors.2
    rw [s.length_stack_snapshot] at below
    cases execution with
    | refl => exact absurd above (Nat.not_le_of_lt below)
    | step above' => exact absurd above' (Nat.not_le_of_lt below)
    | back above' => exact absurd above' (Nat.not_le_of_lt below)

end Snapshot

end Machine

/-! ## Nodes that are not nullable -/

/-- A program cut off at an address. -/
def Program.upTo (program : Program) (n : Nat) : Program :=
  { program with code := program.code.extract 0 n }

open Machine (Execution)
open Machine.Snapshot

namespace Program

variable {program : Program} {n pc : Nat} {inst : Inst}

theorem code_upTo : (program.upTo n).code[pc]? = some inst ↔
    pc < n ∧ program.code[pc]? = some inst := by
  rw [upTo, Array.getElem?_extract]
  grind

theorem step_upTo {s : State} (code : (program.upTo n).code[s.pc]? = some inst) :
    s.step (program.upTo n) = s.step program := by
  rw [step_eq code rfl, step_eq (code_upTo.1 code).2 rfl]
  rfl

theorem Holds.upTo {base : Nat} {code : List Inst} (h : program.Holds base code)
    (within : base + code.length ≤ n) : (program.upTo n).Holds base code := by
  intro i inst eq
  have inside := (List.getElem?_eq_some_iff.1 eq).1
  exact code_upTo.2 ⟨by omega, h i inst eq⟩

/-- That an execution never stands idle at the exit may be carried back over the steps of the
program that is cut off there, whatever another machine does. -/
theorem closed_neverIdle (program : Program) (exit height : Nat) (start : Cursor) :
    Comparison.Closed ⟨program.upTo exit, program.upTo exit, True,
      fun p _ => NeverIdle program exit height start p⟩ := by
  refine ⟨?_, fun _ idle => idle⟩
  intro s s' inst code _ later q t mirrors execution above ended
  have before : s.pc ≠ exit := Nat.ne_of_lt (code_upTo.1 code).1
  dsimp only at code later
  rw [step_upTo code] at later
  cases q with
  | failed | accepted => cases mirrors
  | running s₀ =>
    obtain ⟨marked, eq⟩ := mirrors
    cases eq
    cases execution with
    | refl => exact absurd ended before
    | step _ _ rest => exact later _ t (marked.mirrors_step program) rest above ended
    | back _ ended' => exact absurd ended' before

end Program

namespace Node

/-- However the code of a node that is not nullable comes to its end, it has read something. -/
theorem offset_lt_of_execution {program : Program} {node : Node} (proper : node.Proper)
    (solid : node.nullable = false) {base register : Nat}
    (holds : program.Holds base (node.block base register))
    (enough : register + node.registers ≤ program.registers) {s t : Machine.State}
    (marked : s.WellMarked) (size : s.memory.registers.size = program.registers)
    (begins : s.pc = base)
    (execution : Execution program (base + node.size) s.stack.height (.running s) (.running t))
    (above : s.stack.height ≤ t.stack.height) (ends : t.pc = base + node.size) :
    s.here.offset < t.here.offset := by
  rw [← s.length_stack_snapshot] at execution above
  have closed := program.closed_neverIdle (base + node.size) s.snapshot.stack.length s.here
  have cut := holds.upTo (Nat.le_of_eq (congrArg (base + ·) (length_block base register node)))
  have cut' := cut
  rw [← blockWith_false] at cut'
  have enough' := enough
  rw [← registersWith_false] at enough'
  have alike := alike_block closed rfl node proper (fun _ _ => trivial) base register base register
    cut cut' enough enough'
  rw [sizeWith_false, solid] at alike
  refine alike s.snapshot s.snapshot ⟨rfl, fun _ => rfl, rfl, rfl, size, size⟩ begins begins
    neverIdle_of_below ?_ (.running s) t ⟨marked, rfl⟩ execution above ends
  intro u u' pc _ onward back q t mirrors execution above ends
  cases q with
  | failed | accepted => cases mirrors
  | running v =>
    obtain ⟨marked, eq⟩ := mirrors
    cases eq
    cases execution with
    | refl => exact onward.moved rfl
    | step _ before => exact absurd pc before
    | back _ _ rest =>
      have mirrors := marked.mirrors_backtrack
      rw [State.backtrack_eq_fallBack] at mirrors
      exact back _ t mirrors rest above ends

end Node

/-! ## Whole programs -/

namespace Pattern

variable {pattern : Pattern} {ignoreCase always : Bool} {program other : Program}

/-- Attempts with the compiler's program and with one that has more guards agree. -/
theorem agree_of_compileWith (proper : pattern.root.Proper)
    (compiled : pattern.compile ignoreCase = .ok program)
    (guarded : pattern.compileWith always ignoreCase = .ok other) (start : Cursor) :
    Agree program other True (.running (.initial program.registers start))
      (.running (.initial other.registers start)) := by
  obtain ⟨-, registers, same⟩ := program_of_compileWith guarded
  have holds := holds_of_compile compiled
  have holds' := holds_of_compileWith guarded
  have accepts := holds.behind.head
  have accepts' := holds'.behindWith.head
  have alike := Node.alike_block (closed_agree program other True)
    (same.trans (ignoreCase_of_compile compiled).symm) pattern.root proper (fun _ _ => trivial)
    0 0 0 0 holds.left holds'.left (by rw [registers_of_compile compiled, Nat.zero_add])
    (by rw [registers, Nat.zero_add])
  refine alike _ _ ⟨rfl, fun _ => rfl, rfl, rfl, Array.size_replicate, Array.size_replicate⟩ rfl rfl
    .failed ?_
  intro t t' pc pc' onward _
  refine .both onward.abreast.height ?_
  rw [step_eq accepts pc, step_eq accepts' pc']
  exact .accepted onward.abreast.here onward.abreast.slots

theorem matchAt_eq_of_compileWith (proper : pattern.root.Proper)
    (compiled : pattern.compile ignoreCase = .ok program)
    (guarded : pattern.compileWith always ignoreCase = .ok other) {limits : Limits} {start : Cursor}
    (ends : program.matchAt limits start ≠ .error (.steps limits.steps))
    (ends' : other.matchAt limits start ≠ .error (.steps limits.steps)) :
    program.matchAt limits start = other.matchAt limits start := by
  have same : (program.matchAt limits start).map (Option.map id) =
      (other.matchAt limits start).map (Option.map id) :=
    (agree_of_compileWith proper compiled guarded start).matchAt_eq
      (fun _ _ here slots => State.toMatch_congr here (slots trivial) start) rfl ends ends'
  rwa [Option.map_id, Except.map_id] at same

/-- What a visited state brings along for the machine that keeps copies. -/
theorem registers_of_visits (compiled : pattern.compile ignoreCase = .ok program) {limits : Limits}
    {start : Cursor} {n : Nat} {s : Machine.State}
    (visited : Machine.State.Visits program limits start n s) :
    s.WellMarked ∧ s.memory.registers.size = program.registers := by
  obtain ⟨marked, threaded⟩ := visited.threads (Machine.Thread.placed_initial compiled start)
    fun _ placed _ leads => placed.next compiled leads
  exact ⟨marked, (threaded.threads _ List.mem_cons_self).registers⟩

/-- Guards in every loop make no difference that can be observed, unless an attempt is stopped for
its number of steps: whether the loop needs one or not, the attempts give the same match with the
same groups, none, or the same error about the depth. For wherever an attempt executes the code of a
node that is not nullable, it comes to the end of that code only where it has read something. -/
theorem guards_unobservable {source : String} (parsed : Pattern.parse source = .ok pattern)
    (compiled : pattern.compile ignoreCase = .ok program)
    (guarded : pattern.compileWith true ignoreCase = .ok other) :
    (∀ limits start, program.matchAt limits start ≠ .error (.steps limits.steps) →
      other.matchAt limits start ≠ .error (.steps limits.steps) →
      program.matchAt limits start = other.matchAt limits start) ∧
    ∀ node ∈ pattern.root.nodes, node.nullable = false → ∀ base register,
      program.Holds base (node.block base register) →
      register + node.registers ≤ program.registers →
      ∀ limits start n (s t : Machine.State), Machine.State.Visits program limits start n s →
        s.pc = base →
        Execution program (base + node.size) s.stack.height (.running s) (.running t) →
        s.stack.height ≤ t.stack.height → t.pc = base + node.size →
        s.here.offset < t.here.offset := by
  have proper := proper_of_parse parsed
  refine ⟨fun limits start => matchAt_eq_of_compileWith proper compiled guarded, ?_⟩
  intro node mem solid base register holds enough limits start n s t visited begins execution above
    ends
  have everywhere := Node.forall_mem_nodes (P := Node.Proper)
    (fun _ proper _ => Node.proper_of_mem_children proper) pattern.root proper
  obtain ⟨marked, size⟩ := registers_of_visits compiled visited
  exact Node.offset_lt_of_execution (everywhere node mem) solid holds enough marked size begins
    execution above ends

/-- A loop that needs no guard in front of one that does. The first leaves its code for the first
time with one round done and another one waiting. -/
theorem guards_unobservable_of_two_loops :
    ∃ pattern program other, Pattern.parse "(?:ab)+?(c*)*" = .ok pattern ∧
      pattern.compile false = .ok program ∧ pattern.compileWith true false = .ok other ∧
      program.registers = 1 ∧ other.registers = 3 ∧
      program.matchAt { depth := 5 } (.ofString "abcc") =
        other.matchAt { depth := 5 } (.ofString "abcc") ∧
      ∃ node ∈ pattern.root.nodes, node.nullable = false ∧ program.Holds 0 (node.block 0 0) ∧
        ∃ s t : Machine.State, Machine.State.Visits program {} (.ofString "abcc") 0 s ∧
          s.pc = 0 ∧ t.pc = 0 + node.size ∧
          Execution program (0 + node.size) s.stack.height (.running s) (.running t) ∧
          s.here.offset < t.here.offset := by
  let solid : Node := .repeated (.group (.sequence [.char 'a', .char 'b'])) ⟨1, none, false⟩
  let loose : Node :=
    .repeated (.capture 1 (.sequence [.repeated (.char 'c') ⟨0, none, true⟩])) ⟨0, none, true⟩
  let pattern : Pattern := ⟨.sequence [solid, loose], 1⟩
  let program : Program :=
    { code := #[.char 'a', .char 'b', .split 6 3, .char 'a', .char 'b', .jump 2, .split 7 15,
        .mark 0, .save 2, .split 10 12, .char 'c', .jump 9, .save 3, .check 0, .jump 6, .accept]
      groups := 1
      registers := 1
      ignoreCase := false
      anchored := false }
  have parsed : Pattern.parse "(?:ab)+?(c*)*" = .ok pattern := by cbv
  have compiled : pattern.compile false = .ok program := rfl
  obtain ⟨other, guarded, registers, ends⟩ : ∃ other, pattern.compileWith true false = .ok other ∧
      other.registers = 3 ∧
      other.matchAt { depth := 5 } (.ofString "abcc") ≠ .error (.steps 1000000) :=
    ⟨_, by cbv, rfl, by decide +kernel⟩
  obtain ⟨same, forward⟩ := guards_unobservable parsed compiled guarded
  have holds : program.Holds 0 (solid.block 0 0) := (holds_of_compile compiled).left.left
  let s : Machine.State := .initial 1 (.ofString "abcc")
  let t : Machine.State :=
    { s with
      pc := 6
      here := ⟨2, ['c', 'c']⟩
      stack := s.stack.push (.retry 3 ⟨2, ['c', 'c']⟩ 0) }
  have visited : Machine.State.Visits program {} (.ofString "abcc") 0 s := .initial
  have execution : Execution program (0 + solid.size) s.stack.height (.running s) (.running t) :=
    .step (Nat.zero_le _) (by decide) (.step (Nat.zero_le _) (by decide)
      (.step (Nat.zero_le _) (by decide) (.refl _)))
  have solid_mem : solid ∈ pattern.root.nodes := .tail _ (.head _)
  refine ⟨pattern, program, other, parsed, compiled, guarded, rfl, registers,
    same _ _ (by decide +kernel) ends, solid, solid_mem, rfl, holds, s, t, visited, rfl, rfl,
    execution, ?_⟩
  exact forward solid solid_mem rfl 0 0 holds (by decide) {} _ 0 s t visited rfl execution
    (by decide) rfl

end Pattern

end RegexEngine
