import RegexEngine.Machine.Run

/-!
# The machine reads forward

From the position where an attempt begins, every position the machine takes or keeps for later lies
at or behind it: `Program.matchAt` never ends a match before its start (`reaches_of_matchAt`).
-/

namespace RegexEngine.Machine

/-- A property that the next state has, if there is one. -/
def Progress.All (P : State → Prop) : Progress → Prop
  | .running s => P s
  | .accepted s => P s
  | .failed => True

theorem reaches_of_readText {ignoreCase : Bool} {expected : List Char} {here after : Cursor}
    (h : readText ignoreCase expected here = some after) : here.Reaches after := by
  induction expected generalizing here with
  | nil =>
    cases h
    exact .refl _
  | cons c expected ih =>
    unfold readText at h
    split at h
    · cases h
    · rename_i d next hn
      split at h
      · exact (Cursor.reaches_next hn).trans (ih h)
      · cases h

namespace State

/-- Where the machine stands, and every position it may go back to, lie at or behind `start`. -/
structure Behind (start : Cursor) (s : State) : Prop where
  here : start.Reaches s.here
  frames : ∀ frame ∈ s.stack.items, start.Reaches frame.here

variable {start : Cursor} {s : State}

theorem behind_initial (registers : Nat) (start : Cursor) :
    (initial registers start).Behind start :=
  ⟨.refl start, by simp [initial]⟩

theorem Behind.backtrack (hs : s.Behind start) : s.backtrack.All (Behind start) := by
  fun_induction State.backtrack s with
  | case1 => trivial
  | case2 s pc here mark stack hp =>
    have hp := Stack.pop?_eq_some_iff.1 hp
    have mem := hs.frames
    simp only [hp, Stack.items_push, List.forall_mem_cons] at mem
    exact ⟨mem.1, mem.2⟩
  | case3 s resume here mark stack s' hp ih =>
    have hp := Stack.pop?_eq_some_iff.1 hp
    have mem := hs.frames
    simp only [hp, Stack.items_push, List.forall_mem_cons] at mem
    exact ih ⟨hs.here, mem.2⟩
  | case4 s positive resume here mark stack hp s' _ =>
    have hp := Stack.pop?_eq_some_iff.1 hp
    have mem := hs.frames
    simp only [hp, Stack.items_push, List.forall_mem_cons] at mem
    exact ⟨mem.1, mem.2⟩

theorem Behind.require (hs : s.Behind start) (condition : Bool) :
    (s.require condition).All (Behind start) := by
  unfold State.require
  split
  · exact ⟨hs.here, hs.frames⟩
  · exact hs.backtrack

theorem Behind.readChar (hs : s.Behind start) (accepts : Char → Bool) :
    (s.readChar accepts).All (Behind start) := by
  unfold State.readChar
  split
  · rename_i c after hn
    split
    · exact ⟨hs.here.trans (Cursor.reaches_next hn), hs.frames⟩
    · exact hs.backtrack
  · exact hs.backtrack

theorem Behind.save (hs : s.Behind start) (slot : Nat) : (s.save slot).Behind start := by
  unfold State.save
  dsimp only
  split <;> exact ⟨hs.here, hs.frames⟩

theorem Behind.leave (hs : s.Behind start) : s.leave.All (Behind start) := by
  unfold State.leave
  split
  · exact hs.backtrack
  · rename_i base looks _
    split
    · rename_i positive resume here mark hat
      have truncated : ∀ frame ∈ (s.stack.truncate base).items, start.Reaches frame.here :=
        fun frame mem => hs.frames frame (List.mem_of_mem_drop mem)
      dsimp only
      split
      · exact ⟨hs.frames _ (Stack.mem_items_of_at? hat), truncated⟩
      · exact Behind.backtrack ⟨hs.here, truncated⟩
    · exact Behind.backtrack ⟨hs.here, hs.frames⟩

theorem reaches_of_readGroup {ignoreCase : Bool} {i : Nat} {after : Cursor}
    (h : s.readGroup ignoreCase i = some after) : s.here.Reaches after := by
  obtain ⟨span, -, h⟩ := Option.bind_eq_some_iff.1 h
  split at h
  · exact reaches_of_readText h
  · cases h

theorem Behind.execute (hs : s.Behind start) (ignoreCase : Bool) (inst : Inst) :
    (s.execute ignoreCase inst).All (Behind start) := by
  cases inst with
  | char | oneOf | any => exact hs.readChar _
  | split first second => exact ⟨hs.here, List.forall_mem_cons.2 ⟨hs.here, hs.frames⟩⟩
  | enter positive resume => exact ⟨hs.here, List.forall_mem_cons.2 ⟨hs.here, hs.frames⟩⟩
  | jump | mark | accept => exact ⟨hs.here, hs.frames⟩
  | save slot => exact ⟨(hs.save slot).here, (hs.save slot).frames⟩
  | atStart | atEnd | check => exact hs.require _
  | leave => exact hs.leave
  | backreference i =>
    unfold State.execute
    dsimp only
    split
    · rename_i after h
      exact ⟨hs.here.trans (reaches_of_readGroup h), hs.frames⟩
    · exact hs.backtrack

theorem Behind.step (hs : s.Behind start) (program : Program) :
    (s.step program).All (Behind start) := by
  unfold State.step
  split
  · exact hs.execute _ _
  · trivial

theorem behind_of_run {program : Program} {limits : Limits} {fuel : Nat} {final : State}
    (hs : s.Behind start) (h : s.run program limits fuel = .ok (some final)) :
    final.Behind start := by
  induction fuel generalizing s with
  | zero => cases h
  | succ fuel ih =>
    have next := hs.step program
    unfold State.run at h
    split at h
    · rename_i t hstep
      rw [hstep] at next
      split at h
      · cases h
      · exact ih next h
    · rename_i t hstep
      rw [hstep] at next
      cases h
      exact next
    · cases h

end State

end RegexEngine.Machine

namespace RegexEngine.Program

/-- An attempt's match begins where the attempt does. -/
theorem start_of_matchAt {program : Program} {limits : Limits} {start : Cursor} {m : Match}
    (h : program.matchAt limits start = .ok (some m)) : m.whole.start = start := by
  obtain ⟨final, -, h⟩ := bind_eq_ok_iff.1 h
  cases final <;> cases h
  rfl

/-- A match does not end before its start. -/
theorem reaches_of_matchAt {program : Program} {limits : Limits} {start : Cursor} {m : Match}
    (h : program.matchAt limits start = .ok (some m)) : start.Reaches m.whole.stop := by
  obtain ⟨final, run, h⟩ := bind_eq_ok_iff.1 h
  cases final <;> cases h
  exact (Machine.State.behind_of_run (Machine.State.behind_initial _ _) run).here

end RegexEngine.Program
