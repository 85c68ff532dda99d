import RegexEngine.Machine.Usage

/-!
# Attempts that come to an end

What an attempt does is settled before any limit is known. `State.Ends` says that a run without
limits comes to an end, how it ends and what it uses on the way; from that the outcome under every
pair of limits can be read (`State.Ends.run_eq`). An attempt that succeeds or fails under some
limits has come to its end (`State.exists_ends_of_run`), and stays as it is under larger ones
(`Program.matchAt_mono`).
-/

namespace RegexEngine

namespace Machine.State

/-- Says how a run from a state ends, and what it uses, when nothing limits it. -/
inductive Ends (program : Program) : State → Usage → Option State → Prop where
  | accepted {s final : State} (h : s.step program = .accepted final) :
    Ends program s ⟨1, 0⟩ (some final)
  | failed {s : State} (h : s.step program = .failed) : Ends program s ⟨1, 0⟩ none
  | running {s t : State} {used : Usage} {answer : Option State}
    (h : s.step program = .running t) (rest : Ends program t used answer) :
    Ends program s ⟨used.steps + 1, max t.stack.height used.depth⟩ answer

/-- The most frames kept at a time while the first `n` instructions are executed. -/
def peak (program : Program) : Nat → State → Nat
  | 0, _ => 0
  | n + 1, s =>
    match s.step program with
    | .running t => max t.stack.height (peak program n t)
    | .accepted _ | .failed => 0

section

variable {program : Program} {s : State} {used : Usage} {answer : Option State}

theorem Ends.peak_le (h : Ends program s used answer) (n : Nat) :
    peak program n s ≤ used.depth := by
  induction h generalizing n with
  | @accepted s _ h =>
    cases n with
    | zero => exact Nat.le_refl 0
    | succ n =>
      have none_kept : peak program (n + 1) s = 0 := by rw [peak, h]
      exact Nat.le_of_eq none_kept
  | @failed s h =>
    cases n with
    | zero => exact Nat.le_refl 0
    | succ n =>
      have none_kept : peak program (n + 1) s = 0 := by rw [peak, h]
      exact Nat.le_of_eq none_kept
  | running h _ ih =>
    cases n with
    | zero => exact Nat.zero_le _
    | succ n =>
      rw [peak, h]
      have := ih n
      dsimp only
      omega

theorem Ends.peak_eq (h : Ends program s used answer) {n : Nat} (le : used.steps ≤ n) :
    peak program n s = used.depth := by
  induction h generalizing n with
  | accepted h =>
    obtain ⟨n, rfl⟩ := Nat.exists_eq_add_of_lt le
    rw [Nat.zero_add, peak, h]
  | failed h =>
    obtain ⟨n, rfl⟩ := Nat.exists_eq_add_of_lt le
    rw [Nat.zero_add, peak, h]
  | @running _ _ used _ h _ ih =>
    obtain ⟨n, rfl⟩ := Nat.exists_eq_add_of_le' (Nat.le_trans (Nat.le_add_left 1 _) le)
    rw [peak, h, ← ih (Nat.le_of_succ_le_succ le)]

theorem Ends.meter_eq (h : Ends program s used answer) {fuel : Nat} (le : used.steps ≤ fuel)
    (before : Usage) :
    s.meter program fuel before =
      some ⟨before.steps + used.steps, max before.depth used.depth⟩ := by
  induction h generalizing fuel before with
  | accepted h =>
    obtain ⟨n, rfl⟩ := Nat.exists_eq_add_of_lt le
    rw [Nat.zero_add, meter, h, Nat.max_zero]
  | failed h =>
    obtain ⟨n, rfl⟩ := Nat.exists_eq_add_of_lt le
    rw [Nat.zero_add, meter, h, Nat.max_zero]
  | @running _ _ used _ h _ ih =>
    obtain ⟨n, rfl⟩ := Nat.exists_eq_add_of_le' (Nat.le_trans (Nat.le_add_left 1 _) le)
    rw [meter, h]
    dsimp only
    rw [ih (Nat.le_of_succ_le_succ le), Nat.max_assoc, Nat.add_assoc, Nat.add_comm 1]

/-- What comes of a run under limits: the depth limit is hit first if the instructions that may be
executed lead above it; else the step limit is, if they do not suffice. -/
theorem Ends.run_eq (h : Ends program s used answer) (limits : Limits) (fuel : Nat) :
    s.run program limits fuel =
      if limits.depth < peak program fuel s then .error (.depth limits.depth)
      else if fuel < used.steps then .error (.steps limits.steps)
      else .ok answer := by
  induction h generalizing fuel with
  | accepted h =>
    cases fuel with
    | zero => rfl
    | succ fuel =>
      rw [run, peak, h, if_neg (Nat.not_lt_zero _), if_neg (Nat.not_lt_of_le (Nat.le_add_left 1 _))]
  | failed h =>
    cases fuel with
    | zero => rfl
    | succ fuel =>
      rw [run, peak, h, if_neg (Nat.not_lt_zero _), if_neg (Nat.not_lt_of_le (Nat.le_add_left 1 _))]
  | @running s t used _ h _ ih =>
    cases fuel with
    | zero =>
      rw [run, peak, if_neg (Nat.not_lt_zero _), if_pos (Nat.succ_pos _)]
    | succ fuel =>
      rw [run, peak, h]
      dsimp only
      -- the stack is looked at before the next instruction is
      rw [ih fuel]
      by_cases top : limits.depth < t.stack.height
      · rw [if_pos top, if_pos (Nat.lt_of_lt_of_le top (Nat.le_max_left _ _))]
      · rw [if_neg top]
        have deep : limits.depth < max t.stack.height (peak program fuel t) ↔
            limits.depth < peak program fuel t := by omega
        have long : fuel + 1 < used.steps + 1 ↔ fuel < used.steps := by omega
        simp only [deep, long]

theorem exists_ends_of_run {limits : Limits} {fuel : Nat}
    (h : s.run program limits fuel = .ok answer) : ∃ used, Ends program s used answer := by
  induction fuel generalizing s with
  | zero => cases h
  | succ fuel ih =>
    rw [run] at h
    cases hstep : s.step program with
    | running t =>
      rw [hstep] at h
      dsimp only at h
      split at h
      · cases h
      · obtain ⟨used, ends⟩ := ih h
        exact ⟨_, .running hstep ends⟩
    | accepted t =>
      rw [hstep] at h
      cases h
      exact ⟨_, .accepted hstep⟩
    | failed =>
      rw [hstep] at h
      cases h
      exact ⟨_, .failed hstep⟩

end

end Machine.State

/-! ## Attempts -/

/-- Limits are compared part by part. -/
instance : LE Limits := ⟨fun limits larger =>
  limits.steps ≤ larger.steps ∧ limits.depth ≤ larger.depth⟩

namespace Program

variable {program : Program} {start : Cursor}

/-- Says how the attempt at `start` ends, and what it uses, when nothing limits it. -/
def AttemptEnds (program : Program) (start : Cursor) (used : Usage) (answer : Option Match) :
    Prop :=
  ∃ final, Machine.State.Ends program (.initial program.registers start) used final ∧
    answer = final.map (·.toMatch start)

/-- The most frames that the attempt at `start` keeps while it executes `n` instructions. -/
def peakAt (program : Program) (n : Nat) (start : Cursor) : Nat :=
  Machine.State.peak program n (.initial program.registers start)

theorem AttemptEnds.matchAt_eq {used : Usage} {answer : Option Match}
    (h : program.AttemptEnds start used answer) (limits : Limits) :
    program.matchAt limits start =
      if limits.depth < program.peakAt limits.steps start then .error (.depth limits.depth)
      else if limits.steps < used.steps then .error (.steps limits.steps)
      else .ok answer := by
  obtain ⟨final, ends, rfl⟩ := h
  unfold matchAt peakAt
  rw [ends.run_eq limits limits.steps]
  split
  · rfl
  · split <;> rfl

theorem AttemptEnds.usageAt?_eq {used : Usage} {answer : Option Match}
    (h : program.AttemptEnds start used answer) :
    program.usageAt? used.steps start = some used := by
  obtain ⟨final, ends, -⟩ := h
  unfold usageAt?
  rw [ends.meter_eq (Nat.le_refl _), Nat.zero_add, Nat.zero_max]

theorem AttemptEnds.peakAt_le {used : Usage} {answer : Option Match}
    (h : program.AttemptEnds start used answer) (n : Nat) :
    program.peakAt n start ≤ used.depth := by
  obtain ⟨final, ends, -⟩ := h
  exact ends.peak_le n

theorem AttemptEnds.peakAt_eq {used : Usage} {answer : Option Match}
    (h : program.AttemptEnds start used answer) {n : Nat} (le : used.steps ≤ n) :
    program.peakAt n start = used.depth := by
  obtain ⟨final, ends, -⟩ := h
  exact ends.peak_eq le

theorem exists_attemptEnds_of_matchAt {limits : Limits} {answer : Option Match}
    (h : program.matchAt limits start = .ok answer) :
    ∃ used, program.AttemptEnds start used answer := by
  obtain ⟨final, run, h⟩ := bind_eq_ok_iff.1 h
  obtain ⟨used, ends⟩ := Machine.State.exists_ends_of_run run
  cases h
  exact ⟨used, final, ends, rfl⟩

/-- An attempt has an answer exactly under limits that cover what it uses. -/
theorem AttemptEnds.matchAt_eq_ok_iff {used : Usage} {answer : Option Match}
    (h : program.AttemptEnds start used answer) (limits : Limits) (other : Option Match) :
    program.matchAt limits start = .ok other ↔
      (used.steps ≤ limits.steps ∧ used.depth ≤ limits.depth) ∧ other = answer := by
  rw [h.matchAt_eq limits]
  by_cases deep : limits.depth < program.peakAt limits.steps start
  · have covered := h.peakAt_le limits.steps
    rw [if_pos deep]
    refine ⟨nofun, ?_⟩
    intro ok
    omega
  · rw [if_neg deep]
    by_cases long : limits.steps < used.steps
    · rw [if_pos long]
      refine ⟨nofun, ?_⟩
      intro ok
      omega
    · have enough := Nat.le_of_not_lt long
      rw [h.peakAt_eq enough] at deep
      rw [if_neg long, Except.ok.injEq, eq_comm]
      exact ⟨fun eq => ⟨⟨enough, Nat.le_of_not_lt deep⟩, eq⟩, fun ok => ok.2⟩

/-- An answer that has been found stays under larger limits. -/
theorem matchAt_mono {limits larger : Limits} {answer : Option Match} (le : limits ≤ larger)
    (h : program.matchAt limits start = .ok answer) :
    program.matchAt larger start = .ok answer := by
  obtain ⟨used, ends⟩ := exists_attemptEnds_of_matchAt h
  obtain ⟨enough, -⟩ := (ends.matchAt_eq_ok_iff limits answer).1 h
  refine (ends.matchAt_eq_ok_iff larger answer).2 ⟨?_, rfl⟩
  exact ⟨Nat.le_trans enough.1 le.1, Nat.le_trans enough.2 le.2⟩

end Program

end RegexEngine
