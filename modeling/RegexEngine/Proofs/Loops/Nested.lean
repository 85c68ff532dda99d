import Mathlib
import RegexEngine.Proofs.Code.Attempts
import RegexEngine.Proofs.Loops.Repeats

/-!
# Loops over loops in patterns

A loop may be put around a loop over the same body, anywhere in a pattern, and attempts find the
same matches with the same groups (`Pattern.matchAt_eq_of_nested_star`). The inner loop makes all
rounds that there are to make, so the outer one adds nothing but repeats of readings; and repeats
stay repeats whatever surrounds them (`Node.Context.agrees_fill`): tests, other loops and
backreferences included.
-/

namespace RegexEngine

namespace Node

/-! ## Places in a tree -/

/-- A tree with one place left open. -/
inductive Context where
  | here
  | sequence (before : List Node) (inner : Context) (after : List Node)
  | choice (before : List Node) (inner : Context) (after : List Node)
  | repeated (inner : Context) (quantifier : Quantifier)
  | group (inner : Context)
  | capture (index : Nat) (inner : Context)
  | look (positive : Bool) (inner : Context)

namespace Context

/-- The tree with a node in the open place. -/
def fill : Context → Node → Node
  | here, node => node
  | sequence before inner after, node => .sequence (before ++ inner.fill node :: after)
  | choice before inner after, node => .choice (before ++ inner.fill node :: after)
  | repeated inner q, node => .repeated (inner.fill node) q
  | group inner, node => .group (inner.fill node)
  | capture i inner, node => .capture i (inner.fill node)
  | look positive inner, node => .look positive (inner.fill node)

variable {context : Context} {node other : Node}

theorem proper_of_fill (proper : (context.fill node).Proper) : node.Proper := by
  induction context with
  | here => exact proper
  | sequence before inner after ih =>
    exact ih (allProper_iff.1 proper _ (List.mem_append_right _ List.mem_cons_self))
  | choice before inner after ih =>
    exact ih (allProper_iff.1 proper.2 _ (List.mem_append_right _ List.mem_cons_self))
  | repeated inner q ih => exact ih proper.2
  | group inner ih | capture i inner ih | look positive inner ih => exact ih proper

theorem allProper_exchange {before after : List Node}
    (h : AllProper (before ++ node :: after)) (proper : other.Proper) :
    AllProper (before ++ other :: after) := by
  simp only [allProper_iff, List.forall_mem_append, List.forall_mem_cons] at h ⊢
  exact ⟨h.1, proper, h.2.2⟩

theorem proper_fill (proper : (context.fill node).Proper) (proper' : other.Proper) :
    (context.fill other).Proper := by
  induction context with
  | here => exact proper'
  | sequence before inner after ih =>
    have inside := allProper_iff.1 proper _ (List.mem_append_right _ List.mem_cons_self)
    exact allProper_exchange proper (ih inside)
  | choice before inner after ih =>
    have inside := allProper_iff.1 proper.2 _ (List.mem_append_right _ List.mem_cons_self)
    exact ⟨by simp, allProper_exchange proper.2 (ih inside)⟩
  | repeated inner q ih => exact ⟨proper.1, ih proper.2⟩
  | group inner ih | capture i inner ih | look positive inner ih => exact ih proper

end Context

/-! ## Readings in a context -/

open Reading

variable {ignoreCase : Bool}

theorem agrees_resultsInTurn {node other : Node} (before after : List Node)
    (h : Agrees (node.results ignoreCase) (other.results ignoreCase)) :
    Agrees (resultsInTurn ignoreCase (before ++ node :: after))
      (resultsInTurn ignoreCase (before ++ other :: after)) := by
  induction before with
  | nil => exact h.flatMap (.refl _)
  | cons first before ih => exact (Agrees.refl _).flatMap ih

theorem agrees_resultsOfEach {node other : Node} (before after : List Node)
    (h : Agrees (node.results ignoreCase) (other.results ignoreCase)) :
    Agrees (resultsOfEach ignoreCase (before ++ node :: after))
      (resultsOfEach ignoreCase (before ++ other :: after)) := by
  induction before with
  | nil => exact h.append (.refl _)
  | cons first before ih => exact (Agrees.refl _).append ih

/-- Nodes that agree may be exchanged for each other anywhere in a tree. -/
theorem Context.agrees_fill (context : Context) {node other : Node}
    (h : Agrees (node.results ignoreCase) (other.results ignoreCase)) :
    Agrees ((context.fill node).results ignoreCase)
      ((context.fill other).results ignoreCase) := by
  induction context with
  | here => exact h
  | sequence before inner after ih => exact agrees_resultsInTurn before after ih
  | choice before inner after ih => exact agrees_resultsOfEach before after ih
  | repeated inner q ih => exact ih.rounds q
  | group inner ih => exact ih
  | capture i inner ih => exact ih.capture i
  | look positive inner ih =>
    cases positive with
    | true => exact ih.ahead
    | false => exact ih.notAhead

/-! ## Loops over loops -/

/-- Any number of rounds of a body. -/
def star (greedy : Bool) (body : Node) : Node := .repeated body ⟨0, none, greedy⟩

/-- A loop whose rounds are loops over a body, as they are written in a pattern: the inner loop is
the only part of a group. -/
def starOfStar (greedy : Bool) (body : Node) : Node :=
  star greedy (.group (.sequence [star greedy body]))

theorem results_star (greedy : Bool) (body : Node) :
    (star greedy body).results ignoreCase = loop (body.results ignoreCase) greedy := by
  funext r
  rw [star, results, rounds, inTurn, List.flatMap_singleton]
  rfl

theorem agrees_starOfStar (greedy : Bool) (body : Node) :
    Agrees ((starOfStar greedy body).results ignoreCase)
      ((star greedy body).results ignoreCase) := by
  have inner : (Node.group (.sequence [star greedy body])).results ignoreCase =
      (star greedy body).results ignoreCase := by
    funext r
    rw [results, results, resultsInTurn]
    exact List.flatMap_singleton' _
  rw [starOfStar, results_star, inner, results_star]
  exact agrees_loop_loop _ greedy

theorem proper_starOfStar {greedy : Bool} {body : Node} (h : (star greedy body).Proper) :
    (starOfStar greedy body).Proper := ⟨nofun, h, trivial⟩

end Node

/-! ## Whole patterns -/

namespace Pattern

variable {pattern : Pattern} {ignoreCase : Bool} {program nested : Program}

theorem firstMatch?_of_agrees {other : Pattern}
    (h : Reading.Agrees (pattern.root.results ignoreCase) (other.root.results ignoreCase))
    (start : Cursor) :
    pattern.firstMatch? ignoreCase start = other.firstMatch? ignoreCase start := by
  unfold firstMatch?
  rw [(h (.initial start)).head?_eq]

/-- A loop anywhere in a pattern may be exchanged for a loop over a group that holds just that loop:
attempts that have an answer have the same one, be it that there is no match or a match with the
same end and the same groups. -/
theorem matchAt_eq_of_nested_star {source : String} {context : Node.Context} {body : Node}
    {greedy : Bool} (parsed : Pattern.parse source = .ok pattern)
    (root : pattern.root = context.fill (body.star greedy))
    (compiled : pattern.compile ignoreCase = .ok program)
    (compiled' : Pattern.compile { pattern with root := context.fill (body.starOfStar greedy) }
      ignoreCase = .ok nested)
    {limits limits' : Limits} {start : Cursor} {answer answer' : Option Match}
    (attempt : program.matchAt limits start = .ok answer)
    (attempt' : nested.matchAt limits' start = .ok answer') : answer = answer' := by
  have proper := proper_of_parse parsed
  have proper' := root ▸ proper
  have exchanged := Node.Context.proper_fill proper'
    (Node.proper_starOfStar (Node.Context.proper_of_fill proper'))
  have agrees : Reading.Agrees ((context.fill (body.starOfStar greedy)).results ignoreCase)
      ((context.fill (body.star greedy)).results ignoreCase) :=
    context.agrees_fill (Node.agrees_starOfStar greedy body)
  rw [answer_eq_firstMatch?_of_proper proper compiled attempt,
    answer_eq_firstMatch?_of_proper exchanged compiled' attempt']
  rw [← root] at agrees
  exact (firstMatch?_of_agrees agrees start).symm

/-- A loop in a group that a test looks at and a backreference refers to. -/
theorem matchAt_eq_of_nested_star_in_test :
    ∃ (pattern : Pattern) (context : Node.Context) (body : Node) (program nested : Program)
      (m m' : Match),
      Pattern.parse "(?=((?:(ab)|a)*))\\1c" = .ok pattern ∧
      pattern.root = context.fill (body.star true) ∧ pattern.compile false = .ok program ∧
      Pattern.compile { pattern with root := context.fill (body.starOfStar true) } false =
        .ok nested ∧
      program.matchAt {} (.ofString "aabac") = .ok (some m) ∧
      nested.matchAt {} (.ofString "aabac") = .ok (some m') ∧ some m = some m' := by
  let context : Node.Context :=
    .sequence [] (.look true (.sequence [] (.capture 1 (.sequence [] .here [])) []))
      [.backreference 1, .char 'c']
  let body : Node :=
    .group (.choice [.sequence [.capture 2 (.sequence [.char 'a', .char 'b'])],
      .sequence [.char 'a']])
  let pattern : Pattern := ⟨context.fill (body.star true), 2⟩
  have parsed : Pattern.parse "(?=((?:(ab)|a)*))\\1c" = .ok pattern := by cbv
  obtain ⟨program, nested, m, m', compiled, compiled', attempt, attempt'⟩ :
      ∃ (program nested : Program) (m m' : Match),
        pattern.compile false = .ok program ∧
        Pattern.compile { pattern with root := context.fill (body.starOfStar true) } false =
          .ok nested ∧
        program.matchAt {} (.ofString "aabac") = .ok (some m) ∧
        nested.matchAt {} (.ofString "aabac") = .ok (some m') :=
    ⟨_, _, _, _, by cbv, by cbv, by cbv, by cbv⟩
  have same := matchAt_eq_of_nested_star parsed rfl compiled compiled' attempt attempt'
  exact ⟨pattern, context, body, program, nested, m, m', parsed, rfl, compiled, compiled', attempt,
    attempt', same⟩

end Pattern

end RegexEngine
