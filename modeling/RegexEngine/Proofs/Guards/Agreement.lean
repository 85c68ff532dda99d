import RegexEngine.Proofs.Guards.Abreast
import RegexEngine.Proofs.Snapshot.Refinement

/-!
# Machines that come to the same end

Two machines side by side `Agree` if their stacks are equally high whenever both get on, and if they
come to the same end, with the same groups noted if these count. Then they give the same answers
under the same limit of depth, as long as neither is stopped for its number of steps
(`Agree.matchAt_eq`). To agree is something that may be carried back over the steps of both, so it
is a relation that stretches of code can be compared by (`closed_agree`).
-/

namespace RegexEngine

namespace Machine.Snapshot

/-- Says that two machines come to the same end, with the same groups noted if these count, and that
their stacks are equally high whenever both get on. In between the second one may execute more
instructions. -/
inductive Agree (first second : Program) (noting : Prop) : Progress → Progress → Prop where
  | accepted {s s' : State} (here : s.here = s'.here)
    (slots : noting → s.memory.slots = s'.memory.slots) :
    Agree first second noting (.accepted s) (.accepted s')
  | failed : Agree first second noting .failed .failed
  | both {s s' : State} (height : s.stack.length = s'.stack.length)
    (rest : Agree first second noting (s.step first) (s'.step second)) :
    Agree first second noting (.running s) (.running s')
  | second {s s' : State} (height : s.stack.length = s'.stack.length)
    (rest : Agree first second noting (.running s) (s'.step second)) :
    Agree first second noting (.running s) (.running s')

/-- What becomes of a progress under limits. -/
def Progress.finish (program : Program) (limits : Limits) (fuel : Nat) :
    Progress → Except LimitError (Option State)
  | .running s =>
    if limits.depth < s.stack.length then .error (.depth limits.depth)
    else s.run program limits fuel
  | .accepted s => .ok (some s)
  | .failed => .ok none

namespace Progress

variable {program : Program} {limits : Limits} {fuel : Nat} {s : State}

theorem finish_of_above (above : limits.depth < s.stack.length) :
    (running s).finish program limits fuel = .error (.depth limits.depth) := if_pos above

/-- A machine that is not stopped for its steps executes one. -/
theorem exists_finish_step (within : ¬ limits.depth < s.stack.length)
    (ends : (running s).finish program limits fuel ≠ .error (.steps limits.steps)) :
    ∃ left, (running s).finish program limits fuel =
      (s.step program).finish program limits left := by
  have runs : (running s).finish program limits fuel = s.run program limits fuel := if_neg within
  rw [runs] at ends ⊢
  cases fuel with
  | zero => exact absurd rfl ends
  | succ left =>
    refine ⟨left, ?_⟩
    rw [State.run]
    cases s.step program <;> rfl

end Progress

theorem State.toMatch_congr {s s' : State} (here : s.here = s'.here)
    (slots : s.memory.slots = s'.memory.slots) (start : Cursor) :
    s.toMatch start = s'.toMatch start := by
  unfold State.toMatch
  simp only [here, Memory.group?_congr slots]

section

variable {first second : Program} {noting : Prop} {limits limits' : Limits} {start : Cursor}
  {α : Type} {view : Match → α}

/-- An end that neither machine misses for want of steps is the same for both, as far as it can be
seen from where it is and, if they count, from the groups. -/
theorem Agree.finish_eq {p p' : Progress} (h : Agree first second noting p p')
    (shows : ∀ s s' : State, s.here = s'.here →
      (noting → s.memory.slots = s'.memory.slots) →
      view (s.toMatch start) = view (s'.toMatch start))
    (depth : limits.depth = limits'.depth) (fuel fuel' : Nat)
    (ends : p.finish first limits fuel ≠ .error (.steps limits.steps))
    (ends' : p'.finish second limits' fuel' ≠ .error (.steps limits'.steps)) :
    (p.finish first limits fuel).map (Option.map fun s => view (s.toMatch start)) =
      (p'.finish second limits' fuel').map (Option.map fun s => view (s.toMatch start)) := by
  induction h generalizing fuel fuel' with
  | @accepted s s' here slots =>
    exact congrArg (fun seen => Except.ok (some seen)) (shows s s' here slots)
  | failed => rfl
  | @both s s' height rest ih =>
    by_cases above : limits.depth < s.stack.length
    · have above' : limits'.depth < s'.stack.length := depth ▸ height ▸ above
      rw [Progress.finish_of_above above, Progress.finish_of_above above', depth]
    · have below' : ¬ limits'.depth < s'.stack.length := depth ▸ height ▸ above
      obtain ⟨left, eq⟩ := Progress.exists_finish_step above ends
      obtain ⟨left', eq'⟩ := Progress.exists_finish_step below' ends'
      rw [eq] at ends ⊢
      rw [eq'] at ends' ⊢
      exact ih left left' ends ends'
  | @second s s' height rest ih =>
    by_cases above : limits.depth < s.stack.length
    · have above' : limits'.depth < s'.stack.length := depth ▸ height ▸ above
      rw [Progress.finish_of_above above, Progress.finish_of_above above', depth]
    · have below' : ¬ limits'.depth < s'.stack.length := depth ▸ height ▸ above
      obtain ⟨left', eq'⟩ := Progress.exists_finish_step below' ends'
      rw [eq'] at ends' ⊢
      exact ih fuel left' ends ends'

/-- Programs whose machines agree from the start give the same answers under the same limit of
depth, unless one of them is stopped for its number of steps. -/
theorem Agree.matchAt_eq
    (h : Agree first second noting (.running (.initial first.registers start))
      (.running (.initial second.registers start)))
    (shows : ∀ s s' : State, s.here = s'.here →
      (noting → s.memory.slots = s'.memory.slots) →
      view (s.toMatch start) = view (s'.toMatch start))
    (depth : limits.depth = limits'.depth)
    (ends : first.matchAt limits start ≠ .error (.steps limits.steps))
    (ends' : second.matchAt limits' start ≠ .error (.steps limits'.steps)) :
    (first.matchAt limits start).map (Option.map view) =
      (second.matchAt limits' start).map (Option.map view) := by
  have run (program : Program) (limits : Limits) : program.matchAt limits start =
      ((Progress.running (.initial program.registers start)).finish program limits
        limits.steps).map (Option.map (·.toMatch start)) := by
    rw [Program.matchAt_eq_map_run]
    rfl
  have missed {limits : Limits} {result : Except LimitError (Option State)}
      (h : result.map (Option.map (·.toMatch start)) ≠ .error (.steps limits.steps)) :
      result ≠ .error (.steps limits.steps) := by
    rintro rfl
    exact h rfl
  have seen (result : Except LimitError (Option State)) :
      (result.map (Option.map (·.toMatch start))).map (Option.map view) =
        result.map (Option.map fun s => view (s.toMatch start)) := by
    cases result with
    | error e => rfl
    | ok final => cases final <;> rfl
  rw [run] at ends ends' ⊢
  rw [run, seen, seen]
  exact h.finish_eq shows depth _ _ (missed ends) (missed ends')

end

/-- Agreeing may be carried back over the steps of both machines. -/
theorem closed_agree (first second : Program) (noting : Prop) :
    Comparison.Closed ⟨first, second, noting, Agree first second noting⟩ :=
  ⟨fun _ => .both, .second⟩

end Machine.Snapshot

end RegexEngine
