import RegexEngine.Proofs.Snapshot.Machine

/-!
# Trail and copies

The trail of the machine stands for the copies that the other machine keeps: what the memory was
when a frame was pushed is what taking back the writes behind the frame's mark gives
(`Memory.restored`). `State.snapshot` reads a state of the one machine as a state of the other, and
an instruction does the same on both sides (`State.WellMarked.mirrors_step`), so attempts have the
same answers (`Program.matchAt_eq_snapshotMatchAt`).

Two facts carry this. A frame's mark is never above the trail's height, so a new write lies above
every mark and taking it back first changes no copy. And marks do not grow from the top of the stack
downward, so the frames below one that is gone back to keep their copies when the trail is cut.
-/

namespace RegexEngine

/-! ## Parts of a stack -/

namespace Stack

variable {α : Type}

theorem above_push {s : Stack α} {n : Nat} (h : n ≤ s.height) (a : α) :
    (s.push a).above n = a :: s.above n := by
  unfold above
  rw [height_push, items_push, Nat.succ_sub h, List.take_succ_cons]

theorem above_height (s : Stack α) : s.above s.height = [] := by
  unfold above
  rw [Nat.sub_self, List.take_zero]

theorem above_eq_append_truncate {s : Stack α} {m n : Nat} (hn : n ≤ m) (hm : m ≤ s.height) :
    s.above n = s.above m ++ (s.truncate m).above n := by
  unfold above
  rw [height_truncate, items_truncate, Nat.min_eq_left hm, ← List.take_add]
  congr 1
  omega

theorem at?_eq_getElem?_reverse (s : Stack α) (n : Nat) : s.at? n = s.items.reverse[n]? := by
  unfold at?
  rw [s.height_eq]
  by_cases h : n < s.items.length
  · rw [if_pos h, List.getElem?_reverse h]
  · rw [if_neg h, List.getElem?_eq_none]
    rw [List.length_reverse]
    omega

theorem items_eq_of_at? {s : Stack α} {n : Nat} {a : α} (h : s.at? n = some a) :
    ∃ above, s.items = above ++ a :: (s.truncate n).items := by
  unfold at? at h
  split at h
  · rename_i lt
    obtain ⟨inside, eq⟩ := List.getElem?_eq_some_iff.1 h
    have next : s.height - 1 - n + 1 = s.height - n := by omega
    refine ⟨s.items.take (s.height - 1 - n), ?_⟩
    rw [items_truncate, ← next, ← eq, ← List.drop_eq_getElem_cons inside, List.take_append_drop]
  · cases h

end Stack

namespace Machine

/-! ## Copies read from the trail -/

/-- The memory as it was when the trail was `mark` long. -/
def Memory.restored (m : Memory) (trail : Stack Write) (mark : Nat) : Memory :=
  (trail.above mark).foldl Memory.undo m

theorem Memory.restored_height (m : Memory) (trail : Stack Write) :
    m.restored trail trail.height = m := by
  unfold restored
  rw [Stack.above_height]
  rfl

theorem Memory.restored_push {before after : Memory} {write : Write} {trail : Stack Write}
    {mark : Nat} (back : after.undo write = before) (h : mark ≤ trail.height) :
    after.restored (trail.push write) mark = before.restored trail mark := by
  unfold restored
  rw [Stack.above_push h, List.foldl_cons, back]

theorem Memory.restored_truncate (m : Memory) {trail : Stack Write} {mark mark' : Nat}
    (le : mark' ≤ mark) (h : mark ≤ trail.height) :
    (m.restored trail mark).restored (trail.truncate mark) mark' = m.restored trail mark' := by
  unfold restored
  rw [Stack.above_eq_append_truncate le h, List.foldl_append]

/-- A frame with its copy, read from the memory and the trail as they are now. -/
def Frame.snapshot (m : Memory) (trail : Stack Write) : Frame → Snapshot.Frame
  | .retry pc here mark => .retry pc here (m.restored trail mark)
  | .look positive resume here mark => .look positive resume here (m.restored trail mark)

theorem Frame.snapshot_congr {m m' : Memory} {trail trail' : Stack Write} {frame : Frame}
    (h : m.restored trail frame.mark = m'.restored trail' frame.mark) :
    frame.snapshot m trail = frame.snapshot m' trail' := by
  cases frame with
  | retry pc here mark => exact congrArg (Snapshot.Frame.retry pc here) h
  | look positive resume here mark => exact congrArg (Snapshot.Frame.look positive resume here) h

/-- Says that marks lie within the trail and do not grow from the top of the stack downward. -/
structure Marked (trail : Stack Write) (frames : List Frame) : Prop where
  bounded : ∀ frame ∈ frames, frame.mark ≤ trail.height
  ordered : frames.Pairwise fun above below => below.mark ≤ above.mark

namespace Marked

variable {trail : Stack Write} {frames : List Frame} {frame : Frame}

theorem push_write (h : Marked trail frames) (write : Write) :
    Marked (trail.push write) frames := by
  refine ⟨?_, h.ordered⟩
  intro frame mem
  exact Nat.le_succ_of_le (h.bounded frame mem)

theorem push_frame (h : Marked trail frames) (mark : frame.mark = trail.height) :
    Marked trail (frame :: frames) := by
  refine ⟨List.forall_mem_cons.2 ⟨Nat.le_of_eq mark, h.bounded⟩, ?_⟩
  refine List.pairwise_cons.2 ⟨?_, h.ordered⟩
  intro below mem
  rw [mark]
  exact h.bounded below mem

theorem sublist {others : List Frame} (h : Marked trail frames) (sub : others.Sublist frames) :
    Marked trail others := by
  refine ⟨?_, h.ordered.sublist sub⟩
  intro frame mem
  exact h.bounded frame (sub.subset mem)

/-- Frames below one that is gone back to keep their marks within the trail that is left. -/
theorem truncate (h : Marked trail (frame :: frames)) :
    Marked (trail.truncate frame.mark) frames := by
  obtain ⟨below, ordered⟩ := List.pairwise_cons.1 h.ordered
  refine ⟨?_, ordered⟩
  intro other mem
  rw [Stack.height_truncate]
  exact Nat.le_min.2 ⟨below other mem, h.bounded other (List.mem_cons_of_mem _ mem)⟩

theorem map_snapshot_push (h : Marked trail frames) {before after : Memory} {write : Write}
    (back : after.undo write = before) :
    frames.map (·.snapshot after (trail.push write)) = frames.map (·.snapshot before trail) := by
  apply List.map_congr_left
  intro frame mem
  exact Frame.snapshot_congr (Memory.restored_push back (h.bounded frame mem))

theorem map_snapshot_truncate (h : Marked trail (frame :: frames)) (m : Memory) :
    frames.map (·.snapshot (m.restored trail frame.mark) (trail.truncate frame.mark)) =
      frames.map (·.snapshot m trail) := by
  apply List.map_congr_left
  intro other mem
  have le := (List.pairwise_cons.1 h.ordered).1 other mem
  exact Frame.snapshot_congr (m.restored_truncate le (h.bounded frame List.mem_cons_self))

end Marked

/-! ## One state as the other -/

namespace State

/-- The state with a copy in every frame and no trail. -/
def snapshot (s : State) : Snapshot.State where
  pc := s.pc
  here := s.here
  memory := s.memory
  stack := s.stack.items.map (·.snapshot s.memory s.trail)
  looks := s.looks

/-- The invariant of a run: every frame's mark tells where its copy can be read. -/
def WellMarked (s : State) : Prop := Marked s.trail s.stack.items

theorem wellMarked_initial (registers : Nat) (start : Cursor) :
    (initial registers start).WellMarked :=
  ⟨nofun, .nil⟩

theorem snapshot_initial (registers : Nat) (start : Cursor) :
    (initial registers start).snapshot = .initial registers start := rfl

theorem length_stack_snapshot (s : State) : s.snapshot.stack.length = s.stack.height := by
  rw [s.stack.height_eq]
  exact List.length_map _

theorem getElem?_reverse_snapshot (s : State) (n : Nat) :
    s.snapshot.stack.reverse[n]? = (s.stack.at? n).map (·.snapshot s.memory s.trail) := by
  rw [Stack.at?_eq_getElem?_reverse, ← List.getElem?_map, List.map_reverse]
  rfl

theorem drop_snapshot (s : State) (n : Nat) :
    s.snapshot.stack.drop (s.snapshot.stack.length - n) =
      (s.stack.truncate n).items.map (·.snapshot s.memory s.trail) := by
  rw [s.length_stack_snapshot, Stack.items_truncate, List.map_drop]
  rfl

end State

/-- Says that two machines are equally far, and that the one with the trail may go on. -/
def Progress.Mirrors : Progress → Snapshot.Progress → Prop
  | .running s, other => s.WellMarked ∧ other = .running s.snapshot
  | .accepted s, other => other = .accepted s.snapshot
  | .failed, other => other = .failed

namespace State.WellMarked

variable {s : State}

theorem setSlot (hs : s.WellMarked) (i : Nat) (value : Option Cursor) :
    (s.setSlot i value).WellMarked ∧
      (s.setSlot i value).snapshot =
        { s.snapshot with memory := s.snapshot.memory.setSlot i value } := by
  refine ⟨hs.push_write _, ?_⟩
  have stack := hs.map_snapshot_push (s.memory.undo_setSlot i value)
  exact congrArg (fun stack => (⟨s.pc, s.here, _, stack, s.looks⟩ : Snapshot.State)) stack

theorem setRegister (hs : s.WellMarked) (i value : Nat) :
    (s.setRegister i value).WellMarked ∧
      (s.setRegister i value).snapshot =
        { s.snapshot with memory := s.snapshot.memory.setRegister i value } := by
  refine ⟨hs.push_write _, ?_⟩
  have stack := hs.map_snapshot_push (s.memory.undo_setRegister i value)
  exact congrArg (fun stack => (⟨s.pc, s.here, _, stack, s.looks⟩ : Snapshot.State)) stack

theorem save (hs : s.WellMarked) (slot : Nat) :
    (s.save slot).WellMarked ∧ (s.save slot).snapshot = s.snapshot.save slot := by
  obtain ⟨first, eq⟩ := hs.setSlot slot (some s.here)
  unfold State.save Snapshot.State.save
  dsimp only
  split
  · obtain ⟨second, eq'⟩ := first.setSlot (slot + 1) none
    refine ⟨second, ?_⟩
    rw [eq', eq]
    rfl
  · exact ⟨first, eq⟩

theorem snapshot_push (frame : Frame) (mark : frame.mark = s.trail.height) (hs : s.WellMarked) :
    Marked s.trail (frame :: s.stack.items) ∧
      s.memory.restored s.trail frame.mark = s.memory := by
  refine ⟨hs.push_frame mark, ?_⟩
  rw [mark]
  exact s.memory.restored_height s.trail

/-- What the top of the stack says about the invariant and about the other machine's stack. -/
theorem of_pop (hs : s.WellMarked) {frame : Frame} {stack : Stack Frame}
    (h : s.stack.pop? = some (frame, stack)) :
    Marked s.trail (frame :: stack.items) ∧
      s.snapshot.stack =
        frame.snapshot s.memory s.trail :: stack.items.map (·.snapshot s.memory s.trail) := by
  have eq : s.stack.items = frame :: stack.items := by
    rw [Stack.pop?_eq_some_iff.1 h, Stack.items_push]
  refine ⟨eq ▸ hs, ?_⟩
  rw [State.snapshot, eq, List.map_cons]

/-- Going back follows the frames; each one popped brings its copy back by rewinding. -/
theorem mirrors_backtrack (hs : s.WellMarked) : s.backtrack.Mirrors s.snapshot.backtrack := by
  -- positive tests are skipped one after the other, each with its own rewinding
  fun_induction State.backtrack s with
  | case1 s hp =>
    have empty : s.snapshot.stack = [] := by
      rw [snapshot, Stack.pop?_eq_none_iff.1 hp]
      rfl
    exact Snapshot.State.backtrack_nil empty
  | case2 s pc here mark stack hp =>
    obtain ⟨marked, top⟩ := hs.of_pop hp
    refine ⟨marked.truncate, ?_⟩
    rw [Snapshot.State.backtrack_retry top, ← marked.map_snapshot_truncate s.memory]
    rfl
  | case3 s resume here mark stack s' hp ih =>
    obtain ⟨marked, top⟩ := hs.of_pop hp
    have inner := ih marked.truncate
    rw [Snapshot.State.backtrack_look top, if_pos rfl, ← marked.map_snapshot_truncate s.memory]
    exact inner
  | case4 s positive resume here mark stack hp s' negative =>
    obtain ⟨marked, top⟩ := hs.of_pop hp
    refine ⟨marked.truncate, ?_⟩
    rw [Snapshot.State.backtrack_look top, if_neg negative,
      ← marked.map_snapshot_truncate s.memory]
    rfl

theorem mirrors_require (hs : s.WellMarked) (condition : Bool) :
    (s.require condition).Mirrors (s.snapshot.require condition) := by
  unfold State.require Snapshot.State.require
  split
  · exact ⟨hs, rfl⟩
  · exact hs.mirrors_backtrack

theorem mirrors_readChar (hs : s.WellMarked) (accepts : Char → Bool) :
    (s.readChar accepts).Mirrors (s.snapshot.readChar accepts) := by
  have here : s.snapshot.here = s.here := rfl
  unfold State.readChar Snapshot.State.readChar
  rw [here]
  cases s.here.next? with
  | none => exact hs.mirrors_backtrack
  | some next =>
    dsimp only
    split
    · exact ⟨hs, rfl⟩
    · exact hs.mirrors_backtrack

theorem mirrors_enter (hs : s.WellMarked) (positive : Bool) (resume : Nat) :
    (s.enter positive resume).WellMarked ∧
      (s.enter positive resume).snapshot = s.snapshot.enter positive resume := by
  obtain ⟨marked, copy⟩ := hs.snapshot_push (.look positive resume s.here s.trail.height) rfl
  refine ⟨marked, ?_⟩
  unfold Snapshot.State.enter
  rw [s.length_stack_snapshot]
  have top : Frame.snapshot s.memory s.trail (.look positive resume s.here s.trail.height) =
      .look positive resume s.here s.memory := congrArg _ copy
  exact congrArg (fun frame => (⟨s.pc + 1, s.here, s.memory,
    frame :: s.stack.items.map (·.snapshot s.memory s.trail),
    s.stack.height :: s.looks⟩ : Snapshot.State)) top

/-- Leaving a test cuts both stacks at the same height. What a negative test takes back are the
writes behind its own frame, which is the copy in that frame. -/
theorem mirrors_leave (hs : s.WellMarked) : s.leave.Mirrors s.snapshot.leave := by
  have open_looks : s.snapshot.looks = s.looks := rfl
  unfold State.leave Snapshot.State.leave
  rw [open_looks]
  cases s.looks with
  | nil => exact hs.mirrors_backtrack
  | cons base looks =>
    dsimp only
    rw [getElem?_reverse_snapshot, drop_snapshot]
    cases hat : s.stack.at? base with
    | none =>
      have same : WellMarked { s with looks } := hs
      exact same.mirrors_backtrack
    | some frame =>
      -- the frame stands on what both machines keep, so its mark bounds the marks below it
      obtain ⟨above, eq⟩ := Stack.items_eq_of_at? hat
      have marked : Marked s.trail (frame :: (s.stack.truncate base).items) :=
        hs.sublist (eq ▸ List.sublist_append_right above _)
      cases frame with
      | retry pc here mark =>
        have same : WellMarked { s with looks } := hs
        exact same.mirrors_backtrack
      | look positive resume here mark =>
        cases positive with
        | true =>
          refine ⟨marked.sublist (List.sublist_cons_self _ _), rfl⟩
        | false =>
          -- one rewinding to the frame's mark takes back what the frames above it have noted too
          have rewound :
              ({ s with looks, stack := s.stack.truncate base }.rewind mark).WellMarked :=
            marked.truncate
          have copies := marked.map_snapshot_truncate s.memory
          have inner := rewound.mirrors_backtrack
          rw [Option.map_some, ← copies]
          exact inner

theorem mirrors_execute (hs : s.WellMarked) (ignoreCase : Bool) (inst : Inst) :
    (s.execute ignoreCase inst).Mirrors (s.snapshot.execute ignoreCase inst) := by
  cases inst with
  | char | oneOf | any => exact hs.mirrors_readChar _
  | split first second =>
    obtain ⟨marked, copy⟩ := hs.snapshot_push (.retry second s.here s.trail.height) rfl
    refine ⟨marked, ?_⟩
    have top : Frame.snapshot s.memory s.trail (.retry second s.here s.trail.height) =
        .retry second s.here s.memory := congrArg _ copy
    unfold Snapshot.State.execute
    exact congrArg (fun frame => Snapshot.Progress.running ⟨first, s.here, s.memory,
      frame :: s.stack.items.map (·.snapshot s.memory s.trail), s.looks⟩) top.symm
  | jump target => exact ⟨hs, rfl⟩
  | save slot =>
    obtain ⟨saved, eq⟩ := hs.save slot
    refine ⟨saved, ?_⟩
    unfold Snapshot.State.execute
    dsimp only
    rw [← eq]
    rfl
  | atStart | atEnd | check => exact hs.mirrors_require _
  | enter positive resume =>
    obtain ⟨entered, eq⟩ := hs.mirrors_enter positive resume
    exact ⟨entered, congrArg Snapshot.Progress.running eq.symm⟩
  | leave => exact hs.mirrors_leave
  | backreference i =>
    have read : s.snapshot.readGroup ignoreCase i = s.readGroup ignoreCase i := rfl
    unfold State.execute Snapshot.State.execute
    dsimp only
    rw [read]
    cases s.readGroup ignoreCase i with
    | none => exact hs.mirrors_backtrack
    | some here => exact ⟨hs, rfl⟩
  | mark register =>
    obtain ⟨noted, eq⟩ := hs.setRegister register s.here.offset
    refine ⟨noted, ?_⟩
    unfold Snapshot.State.execute
    exact congrArg (fun t : Snapshot.State => Snapshot.Progress.running { t with pc := s.pc + 1 })
      eq.symm
  | accept => rfl

/-- One instruction keeps two machines that are equally far equally far. -/
theorem mirrors_step (hs : s.WellMarked) (program : Program) :
    (s.step program).Mirrors (s.snapshot.step program) := by
  have pc : s.snapshot.pc = s.pc := rfl
  unfold State.step Snapshot.State.step
  rw [pc]
  cases program.code[s.pc]? with
  | none => rfl
  | some inst => exact hs.mirrors_execute _ _

theorem map_run (hs : s.WellMarked) (program : Program) (limits : Limits) (fuel : Nat) :
    (s.run program limits fuel).map (Option.map State.snapshot) =
      s.snapshot.run program limits fuel := by
  induction fuel generalizing s with
  | zero => rfl
  | succ fuel ih =>
    have mirrors := hs.mirrors_step program
    unfold State.run Snapshot.State.run
    cases hstep : s.step program with
    | running t =>
      rw [hstep] at mirrors
      obtain ⟨ht, eq⟩ := mirrors
      rw [eq]
      dsimp only
      rw [t.length_stack_snapshot]
      split
      · rfl
      · exact ih ht
    | accepted t =>
      rw [hstep] at mirrors
      rw [show s.snapshot.step program = .accepted t.snapshot from mirrors]
      rfl
    | failed =>
      rw [hstep] at mirrors
      rw [show s.snapshot.step program = .failed from mirrors]
      rfl

end State.WellMarked

theorem State.toMatch_snapshot (s : State) (start : Cursor) :
    s.snapshot.toMatch start = s.toMatch start := rfl

end Machine

/-- An attempt is a run of the machine that keeps copies. -/
theorem Program.matchAt_eq_map_run (program : Program) (limits : Limits) (start : Cursor) :
    program.matchAt limits start =
      (Machine.Snapshot.State.run program limits limits.steps
        (.initial program.registers start)).map (Option.map (·.toMatch start)) := by
  have runs := (Machine.State.wellMarked_initial program.registers start).map_run program limits
    limits.steps
  rw [Machine.State.snapshot_initial] at runs
  rw [← runs, matchAt]
  cases Machine.State.run program limits limits.steps (.initial program.registers start) with
  | error e => rfl
  | ok final => cases final <;> rfl

/-- Undoing writes and keeping copies come to the same: for every program, start and limits the two
machines find the same match with the same groups, find none, or pass the same limit. -/
theorem Program.matchAt_eq_snapshotMatchAt (program : Program) (limits : Limits) (start : Cursor) :
    program.matchAt limits start = program.snapshotMatchAt limits start := by
  have runs := (Machine.State.wellMarked_initial program.registers start).map_run program limits
    limits.steps
  rw [Machine.State.snapshot_initial] at runs
  unfold matchAt snapshotMatchAt
  rw [← runs]
  cases Machine.State.run program limits limits.steps (.initial program.registers start) with
  | error e => rfl
  | ok final => cases final <;> rfl

end RegexEngine
