import Mathlib
import RegexEngine.Proofs.Branches.Placement

/-!
# The machine stays in range

Whatever a compiled pattern is run on and wherever it starts, every state that an attempt visits is
`State.Safe`: the next instruction exists, its operands name what there is, the position lies in the
text, and what the instruction relies on has happened before (`Pattern.safe_of_visits`). A state's
line is the end of a branch, so this is what holds along branches, read from the state's own stack.
-/

namespace RegexEngine.Machine

/-- Says that a frame keeps an alternative. -/
def Frame.IsRetry (frame : Frame) : Prop := ∃ pc here mark, frame = .retry pc here mark

namespace State

/-- Says that nothing is in the way of executing the next instruction of a state. -/
structure Safe (program : Program) (text : String) (start : Cursor) (s : State) : Prop where
  inside : s.pc < program.code.size
  operands : ∀ inst, program.code[s.pc]? = some inst → inst.InRange program
  ahead : start.Reaches s.here
  /-- The position is that of a character of the text, or the end of the text. -/
  boundary : ∃ before, text.toList = before ++ s.here.rest ∧ s.here.offset = byteLength before
  bounds : start.offset ≤ s.here.offset ∧ s.here.offset ≤ byteLength text.toList
  /-- A check compares with what the mark of the same round has noted: on the branch that leads here
  the mark has been executed, and behind it only instructions between the mark and the check. -/
  checks : ∀ register, program.code[s.pc]? = some (.check register) →
    ∃ round mark earlier, Branch program start (round ++ mark :: earlier) s.snapshot.thread ∧
      program.code[mark.pc]? = some (.mark register) ∧
      s.memory.register register = mark.here.offset ∧
      ∀ t ∈ round, mark.pc < t.pc ∧ t.pc < s.pc ∧
        program.code[t.pc]? ≠ some (.mark register) ∧ program.code[t.pc]? ≠ some (.check register)
  /-- The innermost open test is the one that is left. -/
  leaves : program.code[s.pc]? = some .leave →
    ∃ base looks positive here mark, s.looks = base :: looks ∧
      s.stack.at? base = some (.look positive (s.pc + 1) here mark) ∧
      ∀ frame ∈ s.stack.above (base + 1), frame.IsRetry
  /-- No test is open, and no group has one end only. -/
  accepts : program.code[s.pc]? = some .accept →
    s.looks = [] ∧ (∀ frame ∈ s.stack.items, frame.IsRetry) ∧
      ∀ i, (s.memory.slot (2 * i)).isSome = (s.memory.slot (2 * i + 1)).isSome

end State

/-! ## Rounds -/

section

variable {program : Program} {pattern : Pattern} {ignoreCase : Bool}

/-- A round lies between its mark and its check. -/
theorem Thread.Round.between {register : Nat} {mark t : Thread} {round : List Thread}
    (compiled : pattern.compile ignoreCase = .ok program)
    (h : Thread.Round program register mark round t)
    (check : program.code[t.pc]? = some (.check register)) :
    ∀ u ∈ round, mark.pc < u.pc ∧ u.pc < t.pc := by
  intro u mem
  obtain ⟨pc, before, marks, since⟩ := Program.exists_mark (h.inside u mem)
  obtain rfl := Pattern.eq_of_marks compiled h.marks marks
  refine ⟨before, Nat.lt_of_not_le fun le => ?_⟩
  -- behind the check the round is closed, and it is not opened again
  obtain ⟨outer, inside, absent⟩ := (Pattern.nested_of_compile compiled check).fits
  obtain ⟨pc, before', marks', -⟩ := Program.exists_mark (inside ▸ List.mem_cons_self)
  obtain rfl := Pattern.eq_of_marks compiled h.marks marks'
  have other : t.pc ≠ u.pc := fun same => h.unchecked u mem (same ▸ check)
  have still := since (t.pc + 1) (by omega) (by omega)
  rw [Program.inside_succ check, inside] at still
  exact absent still

end

/-! ## Tests -/

namespace Snapshot

theorem heights_eq_nil_of_tests {stack : List Frame} (h : tests stack = []) :
    heights stack = [] ∧ ∀ frame ∈ stack, ∃ pc here memory, frame = .retry pc here memory := by
  induction stack with
  | nil => exact ⟨rfl, nofun⟩
  | cons frame stack ih =>
    cases frame with
    | retry pc here memory =>
      obtain ⟨heights, retries⟩ := ih h
      exact ⟨heights, List.forall_mem_cons.2 ⟨⟨pc, here, memory, rfl⟩, retries⟩⟩
    | look => cases h

theorem tests_eq_nil_of_heights {stack : List Frame} (h : heights stack = []) :
    tests stack = [] := by
  induction stack with
  | nil => rfl
  | cons frame stack ih =>
    cases frame with
    | retry => exact ih h
    | look => cases h

end Snapshot

theorem isRetry_of_snapshot {frame : Frame} {memory : Memory} {trail : Stack Write}
    (h : ∃ pc here copy, frame.snapshot memory trail = .retry pc here copy) : frame.IsRetry := by
  obtain ⟨pc, here, copy, eq⟩ := h
  cases frame with
  | retry pc here mark => exact ⟨pc, here, mark, rfl⟩
  | look => cases eq

namespace State

variable {s : State} {program : Program} {start : Cursor}

theorem retries_of_tests (h : s.snapshot.thread.tests = []) (looks : s.looks =
    Snapshot.heights s.snapshot.stack) : s.looks = [] ∧ ∀ frame ∈ s.stack.items, frame.IsRetry := by
  obtain ⟨heights, retries⟩ := Snapshot.heights_eq_nil_of_tests h
  refine ⟨looks.trans heights, ?_⟩
  intro frame mem
  exact isRetry_of_snapshot (retries _ (List.mem_map_of_mem mem))

/-- The innermost test of a line lies where the state says that it does. -/
theorem innermost_of_tests {resume : Nat} {others : List Nat}
    (h : s.snapshot.thread.tests.map Test.resume = resume :: others)
    (looks : s.looks = Snapshot.heights s.snapshot.stack) :
    ∃ base looks positive here mark, s.looks = base :: looks ∧
      s.stack.at? base = some (.look positive resume here mark) ∧
      ∀ frame ∈ s.stack.above (base + 1), frame.IsRetry := by
  cases open_tests : Snapshot.heights s.snapshot.stack with
  | nil =>
    have none_open := Snapshot.tests_eq_nil_of_heights open_tests
    rw [Snapshot.State.thread, none_open] at h
    cases h
  | cons base rest =>
    obtain ⟨above, positive, resume', here, memory, below, stack, rfl, -, tests, retries, -⟩ :=
      Snapshot.exists_of_heights_eq_cons open_tests
    rw [Snapshot.State.thread, tests] at h
    obtain ⟨rfl, -⟩ := List.cons.inj h
    have height : s.stack.height - (below.length + 1) = above.length := by
      rw [← s.length_stack_snapshot, stack, List.length_append, List.length_cons]
      omega
    have top : s.snapshot.stack.reverse[below.length]? =
        some (.look positive resume' here memory) := by
      simp [stack]
    rw [s.getElem?_reverse_snapshot] at top
    obtain ⟨look, lies, copy⟩ := Option.map_eq_some_iff.1 top
    cases look with
    | retry => cases copy
    | look positive resume here mark =>
      cases copy
      refine ⟨below.length, rest, positive, here, mark, looks.trans open_tests, lies, ?_⟩
      intro frame mem
      rw [Stack.above, height] at mem
      have copied : frame.snapshot s.memory s.trail ∈ above := by
        have kept : (s.snapshot.stack).take above.length = above := by
          rw [stack, List.take_left' rfl]
        rw [← kept, State.snapshot, ← List.map_take]
        exact List.mem_map_of_mem mem
      exact isRetry_of_snapshot (retries _ copied)

theorem Visits.safe {pattern : Pattern} {ignoreCase : Bool} {limits : Limits} {n : Nat}
    {text : String} (normal : pattern.Normal) (compiled : pattern.compile ignoreCase = .ok program)
    (within : (Cursor.ofString text).Reaches start) (h : Visits program limits start n s) :
    s.Safe program text start := by
  obtain ⟨-, threaded⟩ := h.branch
  obtain ⟨past, branch⟩ := threaded.threads _ List.mem_cons_self
  obtain ⟨placed, grouped, rounded⟩ := branch.holds normal compiled
  have nested : ∀ inst, program.code[s.pc]? = some inst → program.Nested s.pc inst :=
    fun _ => Pattern.nested_of_compile compiled
  obtain ⟨before, rest, offset⟩ := within.trans placed.here
  have boundary : s.here.offset = byteLength before := offset.trans (Nat.zero_add _)
  constructor
  case inside => exact placed.inside
  case operands => exact fun inst => Pattern.inRange_of_compile normal compiled
  case ahead => exact placed.here
  case boundary => exact ⟨before, rest, boundary⟩
  case bounds =>
    refine ⟨placed.here.offset_le, ?_⟩
    rw [show text.toList = before ++ s.here.rest from rest, byteLength_append, boundary]
    exact Nat.le_add_right _ _
  case checks =>
    intro register code
    obtain ⟨outer, inside, -⟩ := (nested _ code).fits
    obtain ⟨round, mark, earlier, rfl, round_of⟩ :=
      rounded register (inside ▸ List.mem_cons_self)
    refine ⟨round, mark, earlier, branch, round_of.marks, round_of.noted, ?_⟩
    intro t mem
    obtain ⟨behind, ahead⟩ := round_of.between compiled code t mem
    exact ⟨behind, ahead, round_of.unmarked t mem, round_of.unchecked t mem⟩
  case leaves =>
    intro code
    obtain ⟨outer, inside⟩ := (nested _ code).fits
    have tests := placed.tests
    rw [show program.inside s.snapshot.thread.pc = .test (s.pc + 1) :: outer from inside] at tests
    exact innermost_of_tests tests threaded.looks
  case accepts =>
    intro code
    have outside : program.inside s.pc = [] := (nested _ code).fits
    have tests := placed.tests
    rw [show program.inside s.snapshot.thread.pc = [] from outside] at tests
    obtain ⟨looks, retries⟩ := retries_of_tests (List.map_eq_nil_iff.1 tests) threaded.looks
    refine ⟨looks, retries, ?_⟩
    intro i
    apply grouped.whole
    rw [show program.inside s.snapshot.thread.pc = [] from outside]
    exact List.not_mem_nil

end State

end RegexEngine.Machine

namespace RegexEngine.Pattern

open Machine State

/-- A compiled pattern never leads the machine astray: whatever it is run on, wherever it starts and
whatever the limits are, each state that an attempt visits is safe. -/
theorem safe_of_visits {pattern : Pattern} {ignoreCase : Bool} {program : Program}
    {limits : Limits} {start : Cursor} {source text : String} {n : Nat} {s : State}
    (parsed : Pattern.parse source = .ok pattern)
    (compiled : pattern.compile ignoreCase = .ok program)
    (within : (Cursor.ofString text).Reaches start)
    (visited : Visits program limits start n s) : s.Safe program text start :=
  visited.safe (normal_of_parse parsed) compiled within

/-- The check of a round that has read a character, inside of a test. -/
theorem safe_of_visits_of_check :
    ∃ pattern program s, Pattern.parse "(?=(a|)*)" = .ok pattern ∧
      pattern.compile false = .ok program ∧
      (Cursor.ofString "a").Reaches (.ofString "a") ∧
      Visits program {} (.ofString "a") 8 s ∧
      program.code[s.pc]? = some (.check 0) ∧ s.Safe program "a" (.ofString "a") := by
  let program : Program :=
    { code := #[.enter true 11, .split 2 10, .mark 0, .save 2, .split 5 7, .char 'a', .jump 7,
        .save 3, .check 0, .jump 1, .leave, .accept]
      groups := 1
      registers := 1
      ignoreCase := false
      anchored := false }
  obtain ⟨pattern, parsed, compiled⟩ : ∃ pattern, Pattern.parse "(?=(a|)*)" = .ok pattern ∧
      pattern.compile false = .ok program := ⟨_, by cbv, rfl⟩
  have tested : Visits program {} (.ofString "a") 1 _ := .step .initial (by decide) rfl (by decide)
  have chosen := tested.step (by decide) rfl (by decide)
  have marked := chosen.step (by decide) rfl (by decide)
  have opened := marked.step (by decide) rfl (by decide)
  have branched := opened.step (by decide) rfl (by decide)
  have read := branched.step (by decide) rfl (by decide)
  have jumped := read.step (by decide) rfl (by decide)
  have closed := jumped.step (by decide) rfl (by decide)
  have within := Cursor.Reaches.refl (.ofString "a")
  exact ⟨pattern, program, _, parsed, compiled, within, closed, rfl,
    safe_of_visits parsed compiled within closed⟩

end RegexEngine.Pattern
