import Mathlib
import RegexEngine.Proofs.Code.Blocks
import RegexEngine.Proofs.Limits.Ending
import RegexEngine.Proofs.Patterns.Proper
import RegexEngine.Proofs.Snapshot.Refinement

/-!
# Compiled patterns do what patterns mean

A compiled pattern is one block with `accept` behind it, so an attempt explores the readings of the
pattern and stops at the first one, or goes back below the block when there is none
(`Pattern.exists_attemptEnds`). Either way it comes to its end. What it finds is the pattern's first
match (`Pattern.matchAt_eq_firstMatch?`), and it finds it whenever the limits are large enough
(`Pattern.exists_sufficient_limits`).
-/

namespace RegexEngine

namespace Machine

/-! ## From copies back to the trail -/

/-- The progress of an attempt that has come to its end. -/
def Snapshot.Progress.ended : Option Snapshot.State → Snapshot.Progress
  | some s => .accepted s
  | none => .failed

namespace Snapshot

variable {program : Program} {p : Progress} {final : Option State}

theorem Leads.eq_of_ended (h : Leads program (.ended final) p) : p = .ended final := by
  generalize eq : Progress.ended final = q at h
  cases h with
  | refl => rfl
  | step => cases final <;> cases eq

/-- An exploration that ends at `accept` and has nothing below it ends with its first reading. -/
theorem Explores.exists_ended {exit low : Nat} {memory : Memory} {readings : List Reading}
    (h : Explores program exit [] [] low memory readings p)
    (accept : program.code[exit]? = some .accept) :
    ∃ final, Leads program p (.ended final) ∧ final.map State.reading = readings.head? := by
  cases readings with
  | nil => exact ⟨none, h.leads_of_nil, rfl⟩
  | cons r others =>
    obtain ⟨s, above, leads, pc, -, -, -, reading⟩ := h.exists_of_cons
    refine ⟨some s, leads.trans (leads_step (step_eq accept pc)), ?_⟩
    rw [Option.map_some, reading, List.head?_cons]

theorem State.toMatch_eq (s : State) (start : Cursor) :
    s.toMatch start = s.reading.toMatch start := by
  unfold State.toMatch Reading.toMatch State.reading
  simp only [Memory.span?_captures]

end Snapshot

/-- The machine with the trail comes to the end that the other one comes to. -/
theorem State.WellMarked.exists_ends {program : Program} {s : State} (hs : s.WellMarked)
    {final : Option Snapshot.State}
    (h : Snapshot.Leads program (.running s.snapshot) (.ended final)) :
    ∃ used final', Ends program s used final' ∧ final'.map State.snapshot = final := by
  generalize from_eq : Snapshot.Progress.running s.snapshot = p at h
  generalize to_eq : Snapshot.Progress.ended final = q at h
  -- the machine with copies leads; the other one follows it step by step
  induction h generalizing s with
  | refl => cases final <;> cases from_eq.trans to_eq.symm
  | step rest ih =>
    cases from_eq
    subst to_eq
    have mirrors := hs.mirrors_step program
    cases step : s.step program with
    | running t =>
      rw [step] at mirrors
      obtain ⟨used, final', ends, eq⟩ := ih mirrors.1 mirrors.2.symm rfl
      exact ⟨_, final', .running step ends, eq⟩
    | accepted t =>
      rw [step] at mirrors
      have ended : Snapshot.Progress.accepted t.snapshot = .ended (some t.snapshot) := rfl
      rw [mirrors.trans ended] at rest
      have eq := rest.eq_of_ended
      cases final with
      | none => cases eq
      | some t' =>
        cases eq
        exact ⟨_, some t, .accepted step, rfl⟩
    | failed =>
      rw [step] at mirrors
      have ended : Snapshot.Progress.failed = .ended none := rfl
      rw [mirrors.trans ended] at rest
      have eq := rest.eq_of_ended
      cases final with
      | some t' => cases eq
      | none => exact ⟨_, none, .failed step, rfl⟩

end Machine

/-! ## Whole patterns -/

namespace Pattern

open Machine

variable {text : String} {pattern : Pattern} {ignoreCase : Bool} {program : Program}

theorem ignoreCase_of_compile (h : pattern.compile ignoreCase = .ok program) :
    program.ignoreCase = ignoreCase := by
  obtain ⟨e₁, -, h⟩ := bind_eq_ok_iff.1 h
  obtain ⟨e₂, -, h⟩ := bind_eq_ok_iff.1 h
  cases h
  rfl

/-- Without limits an attempt ends with the pattern's first match. -/
theorem exists_attemptEnds_of_proper (proper : pattern.root.Proper)
    (compiled : pattern.compile ignoreCase = .ok program) (start : Cursor) :
    ∃ used, program.AttemptEnds start used (pattern.firstMatch? ignoreCase start) := by
  have holds := holds_of_compile compiled
  have registers := registers_of_compile compiled
  have realises := pattern.root.realises_block proper 0 0 holds.left (by omega)
  have accept := holds.behind.head
  -- nothing lies below the block: the exploration is the whole attempt
  have explores := realises (.initial program.registers start) rfl Array.size_replicate
  obtain ⟨final, leads, reading⟩ := explores.exists_ended accept
  have marked := State.wellMarked_initial program.registers start
  obtain ⟨used, final', ends, rfl⟩ := marked.exists_ends leads
  refine ⟨used, final', ends, ?_⟩
  have first : Snapshot.State.reading (.initial program.registers start) = .initial start :=
    congrArg (Reading.mk start) (Memory.captures_blank program.registers)
  rw [ignoreCase_of_compile compiled, first] at reading
  unfold firstMatch?
  rw [← reading]
  cases final' with
  | none => rfl
  | some s =>
    have same : s.toMatch start = s.snapshot.reading.toMatch start := by
      rw [← Snapshot.State.toMatch_eq, s.toMatch_snapshot]
    exact congrArg some same

/-- What an attempt with a proper pattern answers, if it answers. -/
theorem answer_eq_firstMatch?_of_proper (proper : pattern.root.Proper)
    (compiled : pattern.compile ignoreCase = .ok program) {limits : Limits} {start : Cursor}
    {answer : Option Match} (answered : program.matchAt limits start = .ok answer) :
    answer = pattern.firstMatch? ignoreCase start := by
  obtain ⟨used, ends⟩ := exists_attemptEnds_of_proper proper compiled start
  exact ((ends.matchAt_eq_ok_iff limits answer).1 answered).2

theorem exists_attemptEnds (parsed : Pattern.parse text = .ok pattern)
    (compiled : pattern.compile ignoreCase = .ok program) (start : Cursor) :
    ∃ used, program.AttemptEnds start used (pattern.firstMatch? ignoreCase start) :=
  exists_attemptEnds_of_proper (proper_of_parse parsed) compiled start

/-- An answer is the right one: whatever the limits, an attempt that has an answer has found the
pattern's first match, or rightly found none. -/
theorem matchAt_eq_firstMatch? {limits : Limits} {start : Cursor} {answer : Option Match}
    (parsed : Pattern.parse text = .ok pattern)
    (compiled : pattern.compile ignoreCase = .ok program)
    (answered : program.matchAt limits start = .ok answer) :
    answer = pattern.firstMatch? ignoreCase start := by
  obtain ⟨used, ends⟩ := exists_attemptEnds parsed compiled start
  exact ((ends.matchAt_eq_ok_iff limits answer).1 answered).2

theorem matchAt_eq_firstMatch?_of_nested_loops :
    ∃ pattern program m, Pattern.parse "(a|ab)(?=(c|b))((?:b|c)*)*\\2$" = .ok pattern ∧
      pattern.compile false = .ok program ∧
      program.matchAt {} (.ofString "abcb") = .ok (some m) ∧
      some m = pattern.firstMatch? false (.ofString "abcb") := by
  obtain ⟨pattern, program, m, parsed, compiled, answered⟩ : ∃ pattern program m,
      Pattern.parse "(a|ab)(?=(c|b))((?:b|c)*)*\\2$" = .ok pattern ∧
        pattern.compile false = .ok program ∧
        program.matchAt {} (.ofString "abcb") = .ok (some m) :=
    ⟨_, _, _, by cbv, by cbv, by cbv⟩
  have first := matchAt_eq_firstMatch? parsed compiled answered
  exact ⟨pattern, program, m, parsed, compiled, answered, first⟩

/-- Attempts end by themselves: limits that are large enough are never passed, whatever the pattern
repeats and however its loops are nested. -/
theorem exists_sufficient_limits (parsed : Pattern.parse text = .ok pattern)
    (compiled : pattern.compile ignoreCase = .ok program) (start : Cursor) :
    ∃ n, ∀ limits : Limits, n ≤ limits.steps → n ≤ limits.depth →
      ∃ answer, program.matchAt limits start = .ok answer := by
  obtain ⟨used, ends⟩ := exists_attemptEnds parsed compiled start
  refine ⟨max used.steps used.depth, ?_⟩
  intro limits steps depth
  refine ⟨_, (ends.matchAt_eq_ok_iff limits _).2 ⟨⟨?_, ?_⟩, rfl⟩⟩
  · exact Nat.le_trans (Nat.le_max_left _ _) steps
  · exact Nat.le_trans (Nat.le_max_right _ _) depth

/-- Loops whose rounds may be empty, in a loop. There is no match, and it takes 173 instructions to
find that out. -/
theorem exists_sufficient_limits_of_empty_rounds :
    ∃ pattern program, Pattern.parse "(?:(a*)*|(?!b)\\1*)*c" = .ok pattern ∧
      pattern.compile true = .ok program ∧
      program.matchAt { steps := 172 } (.ofString "aab") = .error (.steps 172) ∧
      program.matchAt { steps := 173 } (.ofString "aab") = .ok none ∧
      ∃ n, ∀ limits : Limits, n ≤ limits.steps → n ≤ limits.depth →
        ∃ answer, program.matchAt limits (.ofString "aab") = .ok answer := by
  obtain ⟨pattern, program, parsed, compiled, few, enough_steps⟩ : ∃ pattern program,
      Pattern.parse "(?:(a*)*|(?!b)\\1*)*c" = .ok pattern ∧ pattern.compile true = .ok program ∧
        program.matchAt { steps := 172 } (.ofString "aab") = .error (.steps 172) ∧
        program.matchAt { steps := 173 } (.ofString "aab") = .ok none :=
    ⟨_, _, by cbv, by cbv, by decide +kernel, by decide +kernel⟩
  have enough := exists_sufficient_limits parsed compiled (.ofString "aab")
  exact ⟨pattern, program, parsed, compiled, few, enough_steps, enough⟩

end Pattern

end RegexEngine
