import Mathlib
import RegexEngine.Proofs.Captures.Erased
import RegexEngine.Proofs.Guards.Agreement
import RegexEngine.Proofs.Guards.Blocks

/-!
# Groups and the depth of a search

Noting where a group begins and ends takes instructions, but it keeps no frame and decides nothing.
So the machine that runs a pattern and the one that runs it without its groups stand side by side
with equally many frames (`Node.blocksAlike_uncaptured`), and pass a limit of depth together or not
at all (`Pattern.captures_unobservable`).

Repeating a body that has no code is not written at all. A group around nothing has code, which
repetitions of it keep, with frames of their own; so what is said of the depth excludes that.
-/

namespace RegexEngine

open Machine.Snapshot Machine.Snapshot.Comparison

namespace Node

variable {c : Comparison} {always : Bool}

theorem BlocksAlike.uncapture {body body' : Node} (once : BlocksAlike c always body body')
    (closed : c.Closed) (free : ¬ c.noting) (i : Nat) :
    BlocksAlike c always (.group body) (.capture i body') := by
  intro base register base' register' holds holds' enough enough'
  have inner := once base register (base' + 1) register' holds holds'.tail.left enough enough'
  have closing' := holds'.tail.behindWith
  have whole := inner.enclosed (alike_saveSecond closed free holds'.head)
    (alike_saveSecond closed free closing'.head)
  have ends' : base' + 1 + body'.sizeWith always + 1 = base' + (body'.sizeWith always + 2) := by
    omega
  rw [ends'] at whole
  exact whole

mutual

/-- The code of a node without its groups goes with the node's own code, as long as no repetition
is left without code. -/
theorem blocksAlike_uncaptured (closed : c.Closed)
    (same : c.second.ignoreCase = c.first.ignoreCase) (free : ¬ c.noting) (node : Node)
    (proper : node.Proper) (unreferenced : node.references = [])
    (emits : ∀ body q, repeated body q ∈ node.uncaptured.nodes → body.emitsNothing = false) :
    BlocksAlike c always node.uncaptured node := by
  match node with
  | char _ | any | oneOf _ | atStart | atEnd => exact alike_block closed same _ proper nofun
  | backreference i => cases unreferenced
  | sequence parts =>
    have inner := sequencesAlike_uncaptured closed same free parts proper unreferenced
      fun body q mem => emits body q (List.mem_cons_of_mem _ mem)
    exact inner.sequence
  | choice branches =>
    have inner := choicesAlike_uncaptured closed same free branches proper.1 proper.2 unreferenced
      fun body q mem => emits body q (List.mem_cons_of_mem _ mem)
    exact inner.choice
  | group body =>
    exact blocksAlike_uncaptured closed same free body proper unreferenced
      fun body q mem => emits body q (List.mem_cons_of_mem _ mem)
  | capture i body =>
    have once : BlocksAlike c always body.uncaptured body :=
      blocksAlike_uncaptured closed same free body proper unreferenced
        fun body q mem => emits body q (List.mem_cons_of_mem _ mem)
    exact once.uncapture closed free i
  | look positive body =>
    have once : BlocksAlike c always body.uncaptured body :=
      blocksAlike_uncaptured closed same free body proper unreferenced
        fun body q mem => emits body q (List.mem_cons_of_mem _ mem)
    exact once.look closed positive
  | repeated body q =>
    have once : BlocksAlike c always body.uncaptured body :=
      blocksAlike_uncaptured closed same free body proper.2 unreferenced
        fun body q mem => emits body q (List.mem_cons_of_mem _ mem)
    have emits_body := emits body.uncaptured q List.mem_cons_self
    -- what has code without its groups has code with them
    have emits_body' : body.emitsNothing = false := by
      rw [Bool.eq_false_iff] at emits_body ⊢
      exact mt body.emitsNothing_uncaptured emits_body
    exact once.repeated closed body.nullable_uncaptured.symm emits_body emits_body' q

theorem sequencesAlike_uncaptured (closed : c.Closed)
    (same : c.second.ignoreCase = c.first.ignoreCase) (free : ¬ c.noting) (nodes : List Node)
    (proper : AllProper nodes) (unreferenced : referencesOfAll nodes = [])
    (emits : ∀ body q, repeated body q ∈ nodesOfAll (uncapturedOfAll nodes) →
      body.emitsNothing = false) :
    SequencesAlike c always (uncapturedOfAll nodes) nodes := by
  match nodes with
  | [] => exact sequencesAlike_nil
  | node :: nodes =>
    rw [referencesOfAll, List.append_eq_nil_iff] at unreferenced
    have first : BlocksAlike c always node.uncaptured node :=
      blocksAlike_uncaptured closed same free node proper.1 unreferenced.1
        fun body q mem => emits body q (List.mem_append_left _ mem)
    have others : SequencesAlike c always (uncapturedOfAll nodes) nodes :=
      sequencesAlike_uncaptured closed same free nodes proper.2 unreferenced.2
        fun body q mem => emits body q (List.mem_append_right _ mem)
    exact first.cons others

theorem choicesAlike_uncaptured (closed : c.Closed)
    (same : c.second.ignoreCase = c.first.ignoreCase) (free : ¬ c.noting) (nodes : List Node)
    (nonempty : nodes ≠ []) (proper : AllProper nodes) (unreferenced : referencesOfAll nodes = [])
    (emits : ∀ body q, repeated body q ∈ nodesOfAll (uncapturedOfAll nodes) →
      body.emitsNothing = false) :
    ChoicesAlike c always (uncapturedOfAll nodes) nodes := by
  match nodes with
  | [] => exact absurd rfl nonempty
  | [node] =>
    rw [referencesOfAll, List.append_eq_nil_iff] at unreferenced
    have only : BlocksAlike c always node.uncaptured node :=
      blocksAlike_uncaptured closed same free node proper.1 unreferenced.1
        fun body q mem => emits body q (List.mem_append_left _ mem)
    exact only.only
  | node :: other :: nodes =>
    rw [referencesOfAll, List.append_eq_nil_iff] at unreferenced
    have first : BlocksAlike c always node.uncaptured node :=
      blocksAlike_uncaptured closed same free node proper.1 unreferenced.1
        fun body q mem => emits body q (List.mem_append_left _ mem)
    have others : ChoicesAlike c always (uncapturedOfAll (other :: nodes)) (other :: nodes) :=
      choicesAlike_uncaptured closed same free (other :: nodes) (List.cons_ne_nil _ _) proper.2
        unreferenced.2 fun body q mem => emits body q (List.mem_append_right _ mem)
    exact first.or closed others

end

end Node

/-! ## Whole patterns -/

namespace Pattern

variable {pattern : Pattern} {ignoreCase : Bool} {program plain : Program}

/-- Attempts with a pattern's program and with that of the pattern without its groups agree. -/
theorem agree_of_uncaptured (proper : pattern.root.Proper) (free : pattern.root.references = [])
    (emits : ∀ body q, .repeated body q ∈ pattern.uncaptured.root.nodes →
      body.emitsNothing = false)
    (compiled : pattern.compile ignoreCase = .ok program)
    (erased : pattern.uncaptured.compile ignoreCase = .ok plain) (start : Cursor) :
    Agree plain program False (.running (.initial plain.registers start))
      (.running (.initial program.registers start)) := by
  have holds := holds_of_compile erased
  have holds' := holds_of_compile compiled
  have accepts := holds.behind.head
  have accepts' := holds'.behind.head
  have enough := registers_of_compile erased
  have enough' := registers_of_compile compiled
  have blocks : Node.BlocksAlike ⟨plain, program, False, Agree plain program False⟩ false
      pattern.uncaptured.root pattern.root :=
    Node.blocksAlike_uncaptured (closed_agree plain program False)
      ((ignoreCase_of_compile compiled).trans (ignoreCase_of_compile erased).symm) not_false
      pattern.root proper free emits
  have alike := blocks 0 0 0 0 holds.left
  rw [Node.blockWith_false, Node.registersWith_false, Node.sizeWith_false] at alike
  refine alike holds'.left (by rw [enough, Nat.zero_add]) (by rw [enough', Nat.zero_add]) _ _
    ⟨rfl, nofun, rfl, rfl, Array.size_replicate, Array.size_replicate⟩ rfl rfl .failed ?_
  intro t t' pc pc' onward _
  refine .both onward.abreast.height ?_
  rw [step_eq accepts pc, step_eq accepts' pc']
  exact .accepted onward.abreast.here nofun

/-- Groups have no part in what is matched as long as nothing refers to them: attempts that have an
answer match the same stretch, or none. Nor do they have a part in the depth that it takes, unless a
repetition is left with nothing to repeat: under one limit of depth, attempts that are not stopped
for their number of steps pass this limit both or neither. -/
theorem captures_unobservable {source : String} (parsed : Pattern.parse source = .ok pattern)
    (free : pattern.root.references = []) (compiled : pattern.compile ignoreCase = .ok program)
    (erased : pattern.uncaptured.compile ignoreCase = .ok plain) :
    (∀ limits limits' start answer answer', program.matchAt limits start = .ok answer →
      plain.matchAt limits' start = .ok answer' →
      answer.map (·.whole) = answer'.map (·.whole)) ∧
    ((∀ body q, .repeated body q ∈ pattern.uncaptured.root.nodes → body.emitsNothing = false) →
      ∀ limits limits' start, limits.depth = limits'.depth →
        program.matchAt limits start ≠ .error (.steps limits.steps) →
        plain.matchAt limits' start ≠ .error (.steps limits'.steps) →
        (program.matchAt limits start = .error (.depth limits.depth) ↔
          plain.matchAt limits' start = .error (.depth limits'.depth))) := by
  have proper := proper_of_parse parsed
  refine ⟨fun _ _ _ _ _ => whole_eq proper free compiled erased, ?_⟩
  intro emits limits limits' start depth ends ends'
  have agree := agree_of_uncaptured proper free emits compiled erased start
  have same : (plain.matchAt limits' start).map (Option.map (·.whole)) =
      (program.matchAt limits start).map (Option.map (·.whole)) :=
    agree.matchAt_eq (fun _ _ here _ => congrArg (Span.mk start) here) depth.symm ends' ends
  rw [← map_eq_error_iff (f := Option.map (·.whole)), ← same, map_eq_error_iff, depth]

/-- Groups inside of a test, of loops and of each other. At the most ten frames are kept at a time,
by either program. -/
theorem captures_unobservable_of_nested_groups :
    ∃ pattern program plain, Pattern.parse "(?=((a)|b)+)((a*)b|(ab))*?c" = .ok pattern ∧
      pattern.root.references = [] ∧ pattern.compile false = .ok program ∧
      pattern.uncaptured.compile false = .ok plain ∧
      (∀ body q, .repeated body q ∈ pattern.uncaptured.root.nodes → body.emitsNothing = false) ∧
      program.matchAt { depth := 9 } (.ofString "abaabc") = .error (.depth 9) ∧
      plain.matchAt { depth := 9 } (.ofString "abaabc") = .error (.depth 9) ∧
      ∃ m m', program.matchAt { depth := 10 } (.ofString "abaabc") = .ok (some m) ∧
        plain.matchAt { depth := 10 } (.ofString "abaabc") = .ok (some m') ∧
        m.whole = m'.whole := by
  obtain ⟨pattern, program, plain, m, m', parsed, free, compiled, erased, emits, above, above',
      found, found'⟩ : ∃ pattern program plain m m',
      Pattern.parse "(?=((a)|b)+)((a*)b|(ab))*?c" = .ok pattern ∧ pattern.root.references = [] ∧
      pattern.compile false = .ok program ∧ pattern.uncaptured.compile false = .ok plain ∧
      (∀ body q, .repeated body q ∈ pattern.uncaptured.root.nodes → body.emitsNothing = false) ∧
      program.matchAt { depth := 9 } (.ofString "abaabc") = .error (.depth 9) ∧
      plain.matchAt { depth := 9 } (.ofString "abaabc") ≠ .error (.steps 1000000) ∧
      program.matchAt { depth := 10 } (.ofString "abaabc") = .ok (some m) ∧
      plain.matchAt { depth := 10 } (.ofString "abaabc") = .ok (some m') := by
    refine ⟨_, _, _, _, _, by cbv, rfl, by cbv, by cbv, ?_, by cbv, by decide +kernel, by cbv,
      by cbv⟩
    intro body q mem
    simp only [uncaptured, Node.uncaptured, Node.uncapturedOfAll, Node.nodes, Node.nodesOfAll,
      List.append_nil, List.cons_append, List.nil_append, List.mem_cons, reduceCtorEq,
      Node.repeated.injEq, List.not_mem_nil, or_self, or_false, false_or] at mem
    rcases mem with ⟨rfl, -⟩ | ⟨rfl, -⟩ | ⟨rfl, -⟩ <;> rfl
  obtain ⟨same, depths⟩ := captures_unobservable parsed free compiled erased
  have within : program.matchAt { depth := 9 } (.ofString "abaabc") ≠ .error (.steps 1000000) := by
    intro stopped
    rw [above] at stopped
    cases stopped
  have both := (depths emits _ _ _ rfl within above').1 above
  have wholes := Option.some.inj (same _ _ _ _ _ found found')
  exact ⟨pattern, program, plain, parsed, free, compiled, erased, emits, above, both, m, m', found,
    found', wholes⟩

end Pattern

end RegexEngine
