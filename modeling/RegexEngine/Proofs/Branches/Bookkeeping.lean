import Mathlib
import RegexEngine.Machine.Forward
import RegexEngine.Proofs.Branches.Threads
import RegexEngine.Proofs.Text.Bytes

/-!
# Frames, open tests and the trail

The machine keeps the heights of open tests beside the stack on which the tests lie, and every frame
keeps a height of the trail. Pushing, popping, cutting the stack and taking back writes change these
in different orders, and nothing keeps a program from leaving a test that it never entered. All the
same, in every state that an attempt visits they fit together (`State.kept_of_visits`), whatever the
program is. So a height at which a test is said to lie is one at which a test lies, and leaving
never looks for a test in vain (`State.Kept.decided`).

That a state's list of open tests is what can be read off its stack, and that marks are in order, is
known from the machine that keeps copies (`Visits.branch`). What is left is to see that reading the
heights off a stack finds all of them, in order (`Snapshot.mem_heights_iff`).
-/

namespace RegexEngine.Machine

/-! ## Heights -/

namespace Snapshot

variable {stack : List Frame} {height : Nat}

theorem lt_of_mem_heights (h : height ∈ heights stack) : height < stack.length := by
  induction stack with
  | nil => cases h
  | cons frame stack ih =>
    cases frame with
    | retry => exact Nat.lt_succ_of_lt (ih h)
    | look =>
      rcases List.mem_cons.1 h with rfl | below
      · exact Nat.lt_succ_self _
      · exact Nat.lt_succ_of_lt (ih below)

theorem pairwise_heights (stack : List Frame) : (heights stack).Pairwise (· > ·) := by
  induction stack with
  | nil => exact .nil
  | cons frame stack ih =>
    cases frame with
    | retry => exact ih
    | look => exact List.pairwise_cons.2 ⟨fun _ => lt_of_mem_heights, ih⟩

/-- The frame at the top lies where the others end. -/
theorem getElem?_reverse_cons (frame : Frame) (stack : List Frame) (height : Nat) :
    (frame :: stack).reverse[height]? =
      if height = stack.length then some frame else stack.reverse[height]? := by
  rw [List.reverse_cons]
  split
  · simp [*]
  · rename_i other
    rcases Nat.lt_or_gt_of_ne other with below | above
    · rw [List.getElem?_append_left (by simpa using below)]
    · rw [List.getElem?_eq_none (by simpa using above),
        List.getElem?_eq_none (by simpa using Nat.le_of_lt above)]

theorem mem_heights_iff :
    height ∈ heights stack ↔
      ∃ positive resume here memory,
        stack.reverse[height]? = some (.look positive resume here memory) := by
  induction stack with
  | nil => simp [heights]
  | cons frame stack ih =>
    simp only [getElem?_reverse_cons]
    by_cases top : height = stack.length
    · have absent : height ∉ heights stack := fun mem => Nat.ne_of_lt (lt_of_mem_heights mem) top
      cases frame <;> simp [heights, top, top ▸ absent]
    · cases frame <;> simp [heights, top, ih]

end Snapshot

/-- Says that a frame keeps a test. -/
def Frame.IsTest (frame : Frame) : Prop :=
  ∃ positive resume here mark, frame = .look positive resume here mark

theorem isTest_iff_of_snapshot {frame : Frame} {memory : Memory} {trail : Stack Write} :
    frame.IsTest ↔ ∃ positive resume here copy,
      frame.snapshot memory trail = .look positive resume here copy := by
  cases frame <;> simp [Frame.IsTest, Frame.snapshot]

namespace State

/-- The heights that the snapshot's stack gives are those at which tests lie on the stack. -/
theorem mem_heights_snapshot_iff (s : State) (height : Nat) :
    height ∈ Snapshot.heights s.snapshot.stack ↔
      ∃ frame, s.stack.at? height = some frame ∧ frame.IsTest := by
  rw [Snapshot.mem_heights_iff]
  simp only [s.getElem?_reverse_snapshot, Option.map_eq_some_iff]
  constructor
  · rintro ⟨positive, resume, here, copy, frame, lies, eq⟩
    exact ⟨frame, lies, isTest_iff_of_snapshot.2 ⟨positive, resume, here, copy, eq⟩⟩
  · rintro ⟨frame, lies, test⟩
    obtain ⟨positive, resume, here, copy, eq⟩ := isTest_iff_of_snapshot.1 test
    exact ⟨positive, resume, here, copy, frame, lies, eq⟩

/-! ## States -/

theorem Visits.behind {program : Program} {limits : Limits} {start : Cursor} {n : Nat} {s : State}
    (h : Visits program limits start n s) : s.Behind start := by
  induction h with
  | initial => exact behind_initial _ _
  | step _ _ next _ ih =>
    have behind := ih.step program
    rwa [next] at behind

theorem Visits.within {program : Program} {limits : Limits} {start : Cursor} {n : Nat} {s : State}
    (h : Visits program limits start n s) :
    n ≤ limits.steps ∧ s.stack.height ≤ limits.depth := by
  cases h with
  | initial => exact ⟨Nat.zero_le _, Nat.zero_le _⟩
  | step _ enough _ low => exact ⟨enough, low⟩

/-- Says that what a state notes about its stack, its trail and the text is as it should be, `n`
instructions into an attempt from `start`. -/
structure Kept (limits : Limits) (text : String) (start : Cursor) (n : Nat) (s : State) : Prop where
  /-- The heights of open tests, read from the outermost test on, increase. -/
  increasing : s.looks.reverse.Pairwise (· < ·)
  /-- They are the heights at which tests lie, each of them and no other. -/
  listed : ∀ height, height ∈ s.looks ↔ ∃ frame, s.stack.at? height = some frame ∧ frame.IsTest
  /-- Marks do not grow from the top of the stack downward, and do not lie above the trail. -/
  ordered : s.stack.items.Pairwise fun above below => below.mark ≤ above.mark
  bounded : ∀ frame ∈ s.stack.items, frame.mark ≤ s.trail.height
  low : s.stack.height ≤ limits.depth
  few : n ≤ limits.steps
  /-- Positions are positions of the text at or behind the start, the frames' own included. -/
  here : Cursor.Lies text start s.here
  frames : ∀ frame ∈ s.stack.items, Cursor.Lies text start frame.here
  /-- Where the innermost test is said to lie there is a test to leave. -/
  decided : ∀ base looks, s.looks = base :: looks →
    ∃ frame, s.stack.at? base = some frame ∧ frame.IsTest

/-- In every state that an attempt visits, whatever the program, the text and the limits are, the
stack, the list of open tests and the trail fit together. -/
theorem kept_of_visits {program : Program} {limits : Limits} {text : String} {start : Cursor}
    {n : Nat} {s : State} (inside : (Cursor.ofString text).Reaches start)
    (visited : Visits program limits start n s) : s.Kept limits text start n := by
  obtain ⟨marked, threaded⟩ := visited.branch
  obtain ⟨few, low⟩ := visited.within
  have listed : ∀ height, height ∈ s.looks ↔
      ∃ frame, s.stack.at? height = some frame ∧ frame.IsTest := by
    intro height
    rw [← s.mem_heights_snapshot_iff, ← threaded.looks]
    rfl
  have decreasing : s.looks.Pairwise (· > ·) := by
    have looks : s.looks = Snapshot.heights s.snapshot.stack := threaded.looks
    rw [looks]
    exact Snapshot.pairwise_heights _
  constructor
  case increasing => exact List.pairwise_reverse.2 decreasing
  case listed => exact listed
  case ordered => exact marked.ordered
  case bounded => exact marked.bounded
  case low => exact low
  case few => exact few
  case here => exact visited.behind.here.lies inside
  case frames => exact fun frame mem => (visited.behind.frames frame mem).lies inside
  case decided =>
    intro base looks innermost
    exact (listed base).1 (innermost ▸ List.mem_cons_self)

/-- A program that was not compiled from a pattern: a test in a test, and one leave too many. -/
theorem kept_of_visits_of_nested_tests :
    ∃ program s, program.code = #[.enter true 5, .split 2 4, .enter false 4, .char 'a', .leave,
        .leave, .accept] ∧
      (Cursor.ofString "ba").Reaches ⟨1, ['a']⟩ ∧ Visits program {} ⟨1, ['a']⟩ 4 s ∧
      s.looks = [2, 0] ∧ s.Kept {} "ba" ⟨1, ['a']⟩ 4 := by
  let program : Program :=
    { code := #[.enter true 5, .split 2 4, .enter false 4, .char 'a', .leave, .leave, .accept]
      groups := 0
      registers := 0
      ignoreCase := false
      anchored := false }
  have tested : Visits program {} ⟨1, ['a']⟩ 1 _ := .step .initial (by decide) rfl (by decide)
  have chosen := tested.step (by decide) rfl (by decide)
  have nested := chosen.step (by decide) rfl (by decide)
  have read := nested.step (by decide) rfl (by decide)
  have inside := Cursor.reaches_append "b" "a"
  exact ⟨program, _, rfl, inside, read, rfl, kept_of_visits inside read⟩

end State

end RegexEngine.Machine
