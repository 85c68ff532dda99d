import RegexEngine.Proofs.Snapshot.Refinement

/-!
# Branches of an attempt

An attempt follows one line of instructions at a time and keeps others waiting in its frames. A
`Thread` is such a line by itself, and `Thread.next` says which lines an instruction leads to: a
split leads to both of its sides, and a negative test both to its body and, should that fail, to
what comes behind it. What holds of the first line and of every line that another one leads to holds
of all lines of every state that an attempt visits (`State.Visits.threads`), whatever it goes back
to on the way. In particular each of them is the end of a `Branch` (`State.Visits.branch`).
-/

namespace RegexEngine.Machine

/-! ## One line by itself -/

/-- A test that has been entered and not yet decided. -/
structure Test where
  positive : Bool
  resume : Nat
  here : Cursor

/-- One line of an attempt. -/
structure Thread where
  pc : Nat
  here : Cursor
  memory : Memory
  /-- The open tests, the innermost first. -/
  tests : List Test

namespace Thread

def initial (registers : Nat) (start : Cursor) : Thread := ⟨0, start, .blank registers, []⟩

/-- The machine on this line, with nothing to go back to. -/
def alone (t : Thread) : Snapshot.State := ⟨t.pc, t.here, t.memory, [], []⟩

/-- The lines that an instruction leads to. -/
def follow (t : Thread) (ignoreCase : Bool) : Inst → List Thread
  | .split first second => [{ t with pc := first }, { t with pc := second }]
  | .enter positive resume =>
    { t with pc := t.pc + 1, tests := ⟨positive, resume, t.here⟩ :: t.tests } ::
      if positive then [] else [{ t with pc := resume }]
  | .leave =>
    match t.tests with
    | ⟨true, resume, here⟩ :: tests => [{ t with pc := resume, here, tests }]
    | _ => []
  | inst =>
    match t.alone.execute ignoreCase inst with
    | .running s => [⟨s.pc, s.here, s.memory, t.tests⟩]
    | .accepted _ | .failed => []

def next (program : Program) (t : Thread) : List Thread :=
  match program.code[t.pc]? with
  | some inst => t.follow program.ignoreCase inst
  | none => []

end Thread

/-- Says that following instructions leads from the start to a line; the lines in between come the
latest first. -/
inductive Branch (program : Program) (start : Cursor) : List Thread → Thread → Prop where
  | initial : Branch program start [] (.initial program.registers start)
  | next {past : List Thread} {t u : Thread} (before : Branch program start past t)
    (leads : u ∈ t.next program) : Branch program start (t :: past) u

namespace Snapshot

/-! ## The lines of a state -/

def tests : List Frame → List Test
  | [] => []
  | .retry _ _ _ :: stack => tests stack
  | .look positive resume here _ :: stack => ⟨positive, resume, here⟩ :: tests stack

/-- The heights at which tests lie. -/
def heights : List Frame → List Nat
  | [] => []
  | .retry _ _ _ :: stack => heights stack
  | .look _ _ _ _ :: stack => stack.length :: heights stack

/-- The lines that the frames keep. A positive test that fails is not gone back to. -/
def waiting : List Frame → List Thread
  | [] => []
  | .retry pc here memory :: stack => ⟨pc, here, memory, tests stack⟩ :: waiting stack
  | .look true _ _ _ :: stack => waiting stack
  | .look false resume here memory :: stack =>
    ⟨resume, here, memory, tests stack⟩ :: waiting stack

namespace State

def thread (s : State) : Thread := ⟨s.pc, s.here, s.memory, tests s.stack⟩

def threads (s : State) : List Thread := s.thread :: waiting s.stack

/-- Says that the open tests are where the state says, and that all of its lines have a property. -/
structure Threaded (P : Thread → Prop) (s : State) : Prop where
  looks : s.looks = heights s.stack
  threads : ∀ t ∈ s.threads, P t

end State

/-! ## Steps -/

section

variable {P : Thread → Prop} {s t : State} {stack : List Frame} {looks : List Nat}

/-- Going back takes up a line that has waited. -/
theorem threaded_of_fallBack (open_looks : looks = heights stack)
    (waits : ∀ t ∈ waiting stack, P t) (h : State.fallBack stack looks = .running s) :
    s.Threaded P := by
  induction stack generalizing looks with
  | nil => cases h
  | cons frame stack ih =>
    cases frame with
    | retry pc here memory =>
      cases h
      exact ⟨open_looks, waits⟩
    | look positive resume here memory =>
      rw [heights] at open_looks
      rw [State.fallBack, open_looks, List.tail_cons] at h
      cases positive with
      | true => exact ih rfl waits h
      | false =>
        cases h
        exact ⟨rfl, waits⟩

namespace State.Threaded

theorem backtrack (hs : s.Threaded P) (h : s.backtrack = .running t) : t.Threaded P := by
  rw [backtrack_eq_fallBack] at h
  exact threaded_of_fallBack hs.looks (List.forall_mem_cons.1 hs.threads).2 h

/-- The line goes on and the others wait as before. -/
theorem proceed (hs : s.Threaded P) {pc : Nat} {here : Cursor} {memory : Memory}
    (line : P ⟨pc, here, memory, tests s.stack⟩) :
    State.Threaded P { s with pc, here, memory } :=
  ⟨hs.looks, List.forall_mem_cons.2 ⟨line, (List.forall_mem_cons.1 hs.threads).2⟩⟩

end State.Threaded

/-- The innermost open test, and what lies below it. -/
theorem exists_of_heights_eq_cons {base : Nat} (h : heights stack = base :: looks) :
    ∃ above positive resume here memory below,
      stack = above ++ .look positive resume here memory :: below ∧ below.length = base ∧
        heights below = looks ∧ tests stack = ⟨positive, resume, here⟩ :: tests below ∧
        (∀ frame ∈ above, ∃ pc here memory, frame = .retry pc here memory) ∧
        ∀ t ∈ waiting below, t ∈ waiting stack := by
  induction stack with
  | nil => cases h
  | cons frame stack ih =>
    cases frame with
    | retry pc here memory =>
      obtain ⟨above, positive, resume, here', memory', below, rfl, length, rest, tested, retries,
        waits⟩ := ih h
      refine ⟨.retry pc here memory :: above, positive, resume, here', memory', below, rfl, length,
        rest, tested, ?_, ?_⟩
      · exact List.forall_mem_cons.2 ⟨⟨pc, here, memory, rfl⟩, retries⟩
      · intro t mem
        exact List.mem_cons_of_mem _ (waits t mem)
    | look positive resume here memory =>
      cases h
      refine ⟨[], positive, resume, here, memory, stack, rfl, rfl, rfl, rfl, nofun, ?_⟩
      intro t mem
      cases positive with
      | true => exact mem
      | false => exact List.mem_cons_of_mem _ mem

end

/-! ### Instructions that follow one line -/

/-- Says that an instruction does to a state what it does to its line alone, or makes it go back. -/
def State.KeepsLine (s : State) (ignoreCase : Bool) (inst : Inst) : Prop :=
  (∃ pc here memory,
    s.thread.alone.execute ignoreCase inst = .running ⟨pc, here, memory, [], []⟩ ∧
      s.execute ignoreCase inst = .running { s with pc, here, memory }) ∨
    s.execute ignoreCase inst = s.backtrack

section

variable (s : State) (ignoreCase : Bool) {inst : Inst}

theorem keepsLine_require {condition : State → Bool}
    (execute : ∀ s : State, s.execute ignoreCase inst = s.require (condition s))
    (same : condition s.thread.alone = condition s) : s.KeepsLine ignoreCase inst := by
  unfold State.KeepsLine
  rw [execute, execute, same]
  unfold State.require
  cases condition s with
  | true => exact .inl ⟨_, _, _, rfl, rfl⟩
  | false => exact .inr rfl

theorem keepsLine_readChar {accepts : Char → Bool}
    (execute : ∀ s : State, s.execute ignoreCase inst = s.readChar accepts) :
    s.KeepsLine ignoreCase inst := by
  have here : s.thread.alone.here = s.here := rfl
  unfold State.KeepsLine
  rw [execute, execute]
  unfold State.readChar
  rw [here]
  cases s.here.next? with
  | none => exact .inr rfl
  | some next =>
    dsimp only
    cases accepts next.1 with
    | true => exact .inl ⟨_, _, _, rfl, rfl⟩
    | false => exact .inr rfl

theorem keepsLine_backreference (i : Nat) : s.KeepsLine ignoreCase (.backreference i) := by
  have group : s.thread.alone.readGroup ignoreCase i = s.readGroup ignoreCase i := rfl
  unfold State.KeepsLine State.execute
  dsimp only
  rw [group]
  cases s.readGroup ignoreCase i with
  | none => exact .inr rfl
  | some here => exact .inl ⟨_, _, _, rfl, rfl⟩

end

namespace State.Threaded

variable {P : Thread → Prop} {s t : State} {program : Program} {inst : Inst}
  (closed : ∀ t, P t → ∀ u ∈ t.next program, P u)

include closed

theorem keepsLine (hs : s.Threaded P) (code : program.code[s.pc]? = some inst)
    (follow : s.thread.follow program.ignoreCase inst =
      match s.thread.alone.execute program.ignoreCase inst with
      | .running u => [⟨u.pc, u.here, u.memory, tests s.stack⟩]
      | .accepted _ | .failed => [])
    (line : s.KeepsLine program.ignoreCase inst)
    (h : s.execute program.ignoreCase inst = .running t) : t.Threaded P := by
  rcases line with ⟨pc, here, memory, alone, eq⟩ | eq
  · cases eq.symm.trans h
    refine hs.proceed (closed _ (hs.threads _ List.mem_cons_self) _ ?_)
    have same : s.thread.pc = s.pc := rfl
    rw [Thread.next, same, code]
    dsimp only
    rw [follow, alone]
    exact List.mem_singleton_self _
  · exact hs.backtrack (eq.symm.trans h)

theorem leave (hs : s.Threaded P) (code : program.code[s.pc]? = some .leave)
    (h : s.leave = .running t) : t.Threaded P := by
  cases looks : s.looks with
  | nil =>
    rw [State.leave, looks] at h
    exact hs.backtrack h
  | cons base others =>
    obtain ⟨above, positive, resume, here, memory, below, stack, rfl, rest, tested, -, waits⟩ :=
      exists_of_heights_eq_cons (hs.looks.symm.trans looks)
    obtain ⟨current, others_wait⟩ := List.forall_mem_cons.1 hs.threads
    rw [State.leave_eq stack looks] at h
    cases positive with
    | true =>
      cases h
      refine ⟨rest.symm, List.forall_mem_cons.2 ⟨closed _ current _ ?_, ?_⟩⟩
      · have same : s.thread.pc = s.pc := rfl
        have open_tests : s.thread.tests = ⟨true, resume, here⟩ :: tests below := tested
        rw [Thread.next, same, code]
        dsimp only [Thread.follow]
        rw [open_tests]
        exact List.mem_singleton_self _
      · exact fun u mem => others_wait u (waits u mem)
    | false =>
      rw [if_neg Bool.false_ne_true] at h
      exact threaded_of_fallBack rest.symm (fun u mem => others_wait u (waits u mem)) h

theorem execute (hs : s.Threaded P) (code : program.code[s.pc]? = some inst)
    (h : s.execute program.ignoreCase inst = .running t) : t.Threaded P := by
  have lines := closed _ (hs.threads _ List.mem_cons_self)
  have same : s.thread.pc = s.pc := rfl
  rw [Thread.next, same, code] at lines
  cases inst with
  | char | oneOf | any =>
    exact hs.keepsLine closed code rfl (keepsLine_readChar s _ fun _ => rfl) h
  | atStart | atEnd =>
    exact hs.keepsLine closed code rfl (keepsLine_require s _ (fun _ => rfl) rfl) h
  | check =>
    exact hs.keepsLine closed code rfl (keepsLine_require s _ (fun _ => rfl) rfl) h
  | jump | save | mark => exact hs.keepsLine closed code rfl (.inl ⟨_, _, _, rfl, rfl⟩) h
  | backreference i => exact hs.keepsLine closed code rfl (keepsLine_backreference s _ i) h
  | split first second =>
    cases h
    obtain ⟨now, later⟩ := List.forall_mem_cons.1 lines
    refine ⟨hs.looks, List.forall_mem_cons.2 ⟨now, List.forall_mem_cons.2 ⟨?_, ?_⟩⟩⟩
    · exact later _ (List.mem_singleton_self _)
    · exact (List.forall_mem_cons.1 hs.threads).2
  | enter positive resume =>
    cases h
    obtain ⟨now, later⟩ := List.forall_mem_cons.1 lines
    refine ⟨congrArg _ hs.looks, List.forall_mem_cons.2 ⟨now, ?_⟩⟩
    cases positive with
    | true => exact (List.forall_mem_cons.1 hs.threads).2
    | false =>
      refine List.forall_mem_cons.2 ⟨?_, (List.forall_mem_cons.1 hs.threads).2⟩
      exact later _ (List.mem_singleton_self _)
  | leave => exact hs.leave closed code h
  | accept => cases h

theorem step (hs : s.Threaded P) (h : s.step program = .running t) : t.Threaded P := by
  unfold State.step at h
  split at h
  · rename_i inst code
    exact hs.execute closed code h
  · cases h

end State.Threaded

end Snapshot

namespace State

/-! ## Accepting -/

theorem backtrack_ne_accepted (s t : State) : s.backtrack ≠ .accepted t := by
  fun_induction State.backtrack s with
  | case1 | case2 | case4 =>
    intro h
    cases h
  | case3 _ _ _ _ _ _ _ ih => exact ih

theorem require_ne_accepted (s t : State) (condition : Bool) :
    s.require condition ≠ .accepted t := by
  unfold State.require
  split
  · exact nofun
  · exact backtrack_ne_accepted s t

theorem readChar_ne_accepted (s t : State) (accepts : Char → Bool) :
    s.readChar accepts ≠ .accepted t := by
  unfold State.readChar
  split
  · split
    · exact nofun
    · exact backtrack_ne_accepted s t
  · exact backtrack_ne_accepted s t

theorem leave_ne_accepted (s t : State) : s.leave ≠ .accepted t := by
  unfold State.leave
  split
  · exact backtrack_ne_accepted s t
  · split
    · dsimp only
      split
      · exact nofun
      · exact backtrack_ne_accepted _ t
    · exact backtrack_ne_accepted _ t

/-- The state that an attempt ends with is the one in which it accepts. -/
theorem eq_of_step_accepted {program : Program} {s t : State}
    (h : s.step program = .accepted t) : t = s := by
  unfold State.step at h
  split at h
  · rename_i inst _
    cases inst with
    | accept =>
      cases h
      rfl
    | char | oneOf | any => exact absurd h (readChar_ne_accepted s t _)
    | atStart | atEnd | check => exact absurd h (require_ne_accepted s t _)
    | leave => exact absurd h (leave_ne_accepted s t)
    | backreference i =>
      unfold State.execute at h
      dsimp only at h
      split at h
      · cases h
      · exact absurd h (backtrack_ne_accepted s t)
    | split | jump | save | enter | mark => cases h
  · cases h

/-! ## Visited states -/

/-- Says that an attempt is in a state when it has executed `n` instructions within its limits. -/
inductive Visits (program : Program) (limits : Limits) (start : Cursor) : Nat → State → Prop where
  | initial : Visits program limits start 0 (.initial program.registers start)
  | step {n : Nat} {s t : State} (before : Visits program limits start n s)
    (enough : n < limits.steps) (next : s.step program = .running t)
    (low : t.stack.height ≤ limits.depth) : Visits program limits start (n + 1) t

namespace Visits

variable {program : Program} {limits : Limits} {start : Cursor} {n : Nat} {s : State}

/-- What an attempt answers is what it answers from any state that it visits, with the instructions
that are left. -/
theorem run_eq (h : Visits program limits start n s) :
    (State.initial program.registers start).run program limits limits.steps =
      s.run program limits (limits.steps - n) := by
  induction h with
  | initial => rfl
  | @step n s t _ enough next low ih =>
    have left : limits.steps - n = limits.steps - (n + 1) + 1 := by omega
    rw [ih, left, run, next]
    dsimp only
    rw [if_neg (Nat.not_lt.2 low)]

/-- The state that ends a successful run is one that the attempt visits. -/
theorem visits_of_run {fuel : Nat} {final : State} (h : Visits program limits start n s)
    (enough : n + fuel ≤ limits.steps) (run : s.run program limits fuel = .ok (some final)) :
    ∃ n, Visits program limits start n final := by
  induction fuel generalizing n s with
  | zero => cases run
  | succ fuel ih =>
    unfold State.run at run
    split at run
    · rename_i t next
      split at run
      · cases run
      · rename_i low
        exact ih (h.step (by omega) next (Nat.le_of_not_lt low)) (by omega) run
    · rename_i t accepts
      cases run
      exact ⟨n, eq_of_step_accepted accepts ▸ h⟩
    · cases run

theorem threads {P : Thread → Prop} (initial : P (.initial program.registers start))
    (closed : ∀ t, P t → ∀ u ∈ t.next program, P u) (h : Visits program limits start n s) :
    s.WellMarked ∧ s.snapshot.Threaded P := by
  induction h with
  | initial =>
    refine ⟨wellMarked_initial _ _, rfl, ?_⟩
    intro t mem
    rwa [List.mem_singleton.1 mem]
  | @step _ s t _ _ next _ ih =>
    obtain ⟨marked, threaded⟩ := ih
    have mirrors := marked.mirrors_step program
    rw [next] at mirrors
    exact ⟨mirrors.1, threaded.step closed mirrors.2⟩

/-- Each line of a visited state is the end of a branch. -/
theorem branch (h : Visits program limits start n s) :
    s.WellMarked ∧ s.snapshot.Threaded fun t => ∃ past, Branch program start past t := by
  refine h.threads ⟨[], .initial⟩ ?_
  rintro t ⟨past, before⟩ u leads
  exact ⟨t :: past, before.next leads⟩

end Visits

end State

end RegexEngine.Machine
