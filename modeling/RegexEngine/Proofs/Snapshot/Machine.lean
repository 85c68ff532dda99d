import RegexEngine.Machine.Run

/-!
# The machine that keeps copies

The machine of `RegexEngine.Machine.State` with one difference: there is no trail. A frame holds a
copy of everything that was noted when it was pushed, and going back to a frame brings the copy
back. Nothing here is shared between frames, which makes this machine the easier one to reason
about; `RegexEngine.Proofs.Snapshot.Refinement` shows that the two cannot be told apart.
-/

namespace RegexEngine.Machine.Snapshot

/-- What to go back to when an attempt fails, with all that was noted by then. -/
inductive Frame where
  | retry (pc : Nat) (here : Cursor) (memory : Memory)
  | look (positive : Bool) (resume : Nat) (here : Cursor) (memory : Memory)

/-- The machine between two instructions. The stack has its top first; `looks` holds the heights at
which open tests lie on it, the innermost first. -/
structure State where
  pc : Nat
  here : Cursor
  memory : Memory
  stack : List Frame
  looks : List Nat

inductive Progress where
  | running (s : State)
  | accepted (s : State)
  | failed

namespace State

def initial (registers : Nat) (start : Cursor) : State :=
  ⟨0, start, .blank registers, [], []⟩

/-- Go back to the latest alternative, bringing back the copy in every frame that is popped. -/
def backtrack (s : State) : Progress :=
  match _h : s.stack with
  | [] => .failed
  | .retry pc here memory :: stack => .running { s with pc, here, memory, stack }
  | .look positive resume here memory :: stack =>
    let s := { s with memory, stack, looks := s.looks.tail }
    if positive then s.backtrack else .running { s with pc := resume, here }
termination_by s.stack.length
decreasing_by
  rw [_h]
  exact Nat.lt_succ_self _

def require (s : State) (condition : Bool) : Progress :=
  if condition then .running { s with pc := s.pc + 1 } else s.backtrack

def readChar (s : State) (accepts : Char → Bool) : Progress :=
  match s.here.next? with
  | some (c, after) =>
    if accepts c then .running { s with pc := s.pc + 1, here := after } else s.backtrack
  | none => s.backtrack

def save (s : State) (slot : Nat) : State :=
  let memory := s.memory.setSlot slot (some s.here)
  { s with memory := if slot % 2 = 0 then memory.setSlot (slot + 1) none else memory }

def readGroup (s : State) (ignoreCase : Bool) (i : Nat) : Option Cursor := do
  let span ← s.memory.group? i
  if span.start.offset ≤ span.stop.offset then readText ignoreCase span.chars s.here else none

def enter (s : State) (positive : Bool) (resume : Nat) : State :=
  { s with
    pc := s.pc + 1
    stack := .look positive resume s.here s.memory :: s.stack
    looks := s.stack.length :: s.looks }

/-- The body of the innermost test has succeeded. A negative test brings back the copy that its
frame holds and fails. -/
def leave (s : State) : Progress :=
  match s.looks with
  | [] => s.backtrack
  | base :: looks =>
    match s.stack.reverse[base]? with
    | some (.look positive resume here memory) =>
      let s := { s with looks, stack := s.stack.drop (s.stack.length - base) }
      if positive then .running { s with pc := resume, here } else { s with memory }.backtrack
    | _ => { s with looks }.backtrack

def execute (s : State) (ignoreCase : Bool) : Inst → Progress
  | .char c => s.readChar (sameChar ignoreCase c)
  | .oneOf cls => s.readChar (cls.accepts ignoreCase)
  | .any => s.readChar (· != '\n')
  | .split first second =>
    .running { s with pc := first, stack := .retry second s.here s.memory :: s.stack }
  | .jump target => .running { s with pc := target }
  | .save slot => .running { s.save slot with pc := s.pc + 1 }
  | .atStart => s.require (s.here.offset == 0)
  | .atEnd => s.require s.here.rest.isEmpty
  | .enter positive resume => .running (s.enter positive resume)
  | .leave => s.leave
  | .backreference i =>
    match s.readGroup ignoreCase i with
    | some here => .running { s with pc := s.pc + 1, here }
    | none => s.backtrack
  | .mark register =>
    .running { s with pc := s.pc + 1, memory := s.memory.setRegister register s.here.offset }
  | .check register => s.require (s.here.offset != s.memory.register register)
  | .accept => .accepted s

def step (program : Program) (s : State) : Progress :=
  match program.code[s.pc]? with
  | some inst => s.execute program.ignoreCase inst
  | none => .failed

/-- Run from a state while `fuel` lasts, under the same limits as the machine with a trail. -/
def run (program : Program) (limits : Limits) : Nat → State → Except LimitError (Option State)
  | 0, _ => .error (.steps limits.steps)
  | fuel + 1, s =>
    match s.step program with
    | .running s =>
      if limits.depth < s.stack.length then .error (.depth limits.depth)
      else run program limits fuel s
    | .accepted s => .ok (some s)
    | .failed => .ok none

def toMatch (s : State) (start : Cursor) : Match where
  whole := ⟨start, s.here⟩
  groups := Vector.ofFn fun i => s.memory.group? (i + 1)

/-! ## Going back, frame by frame -/

/-- Where the machine goes on when it goes back: only the stack and the open tests have a say. -/
def fallBack : List Frame → List Nat → Progress
  | [], _ => .failed
  | .retry pc here memory :: stack, looks => .running ⟨pc, here, memory, stack, looks⟩
  | .look positive resume here memory :: stack, looks =>
    if positive then fallBack stack looks.tail
    else .running ⟨resume, here, memory, stack, looks.tail⟩

theorem backtrack_eq_fallBack (s : State) : s.backtrack = fallBack s.stack s.looks := by
  fun_induction backtrack s with
  | case1 s h => rw [h, fallBack]
  | case2 s pc here memory stack h => rw [h, fallBack]
  | case3 s resume here memory stack s' h ih =>
    rw [h, fallBack, if_pos rfl]
    exact ih
  | case4 s positive resume here memory stack h s' negative =>
    rw [h, fallBack, if_neg negative]

theorem backtrack_nil {s : State} (h : s.stack = []) : s.backtrack = .failed := by
  rw [backtrack_eq_fallBack, h, fallBack]

theorem backtrack_retry {s : State} {pc : Nat} {here : Cursor} {memory : Memory}
    {stack : List Frame} (h : s.stack = .retry pc here memory :: stack) :
    s.backtrack = .running { s with pc, here, memory, stack } := by
  rw [backtrack_eq_fallBack, h, fallBack]

theorem backtrack_look {s : State} {positive : Bool} {resume : Nat} {here : Cursor}
    {memory : Memory} {stack : List Frame}
    (h : s.stack = .look positive resume here memory :: stack) :
    s.backtrack =
      if positive then { s with memory, stack, looks := s.looks.tail }.backtrack
      else .running { s with pc := resume, here, memory, stack, looks := s.looks.tail } := by
  rw [backtrack_eq_fallBack, backtrack_eq_fallBack, h, fallBack]

/-- Leaving the innermost test drops its frame and everything above. -/
theorem leave_eq {s : State} {above below : List Frame} {positive : Bool} {resume : Nat}
    {here : Cursor} {memory : Memory} {looks : List Nat}
    (stack : s.stack = above ++ .look positive resume here memory :: below)
    (open_looks : s.looks = below.length :: looks) :
    s.leave =
      if positive then .running { s with pc := resume, here, stack := below, looks }
      else fallBack below looks := by
  have frame : s.stack.reverse[below.length]? = some (.look positive resume here memory) := by
    simp [stack]
  have kept : s.stack.drop (s.stack.length - below.length) = below := by
    rw [stack, List.append_cons, List.length_append, Nat.add_sub_cancel, List.drop_left' rfl]
  rw [leave, open_looks]
  dsimp only
  rw [frame, kept]
  cases positive with
  | true => rfl
  | false => exact backtrack_eq_fallBack _

end State

end RegexEngine.Machine.Snapshot

namespace RegexEngine

/-- The match that begins at `start`, if there is one, as the machine that keeps copies finds it. -/
def Program.snapshotMatchAt (program : Program) (limits : Limits) (start : Cursor) :
    Except LimitError (Option Match) := do
  let final ← Machine.Snapshot.State.run program limits limits.steps
    (.initial program.registers start)
  return final.map (·.toMatch start)

end RegexEngine
