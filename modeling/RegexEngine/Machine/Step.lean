import RegexEngine.Machine.State
import RegexEngine.Program.Inst

/-!
# One instruction

What an instruction does to a state. An instruction that fails goes back to the latest alternative;
a test that runs out of alternatives has failed as well, which is what a negative test asks for.
No limit is known here: limits belong to whoever runs the machine.
-/

namespace RegexEngine.Machine

/-- Whether a character of the text stands for an expected one. -/
def sameChar (ignoreCase : Bool) (expected c : Char) : Bool :=
  c == expected || (ignoreCase && CaseMapping.sameLetter c expected)

/-- The position behind `expected`, if the text goes on with it. -/
def readText (ignoreCase : Bool) : List Char → Cursor → Option Cursor
  | [], here => some here
  | c :: expected, here =>
    match here.next? with
    | none => none
    | some (d, after) =>
      if sameChar ignoreCase c d then readText ignoreCase expected after else none

inductive Progress where
  | running (s : State)
  /-- The text matches; the state's position ends the match. -/
  | accepted (s : State)
  | failed

namespace State

/-- Go back to the latest alternative. -/
def backtrack (s : State) : Progress :=
  match _h : s.stack.pop? with
  | none => .failed
  | some (.retry pc here mark, stack) => .running { s.rewind mark with pc, here, stack }
  | some (.look positive resume here mark, stack) =>
    let s := { s.rewind mark with stack, looks := s.looks.tail }
    if positive then s.backtrack else .running { s with pc := resume, here }
termination_by s.stack.height
decreasing_by
  rw [Stack.pop?_eq_some_iff.1 _h]
  exact Nat.lt_succ_self _

/-- Go on with the next instruction if the condition holds. -/
def require (s : State) (condition : Bool) : Progress :=
  if condition then .running { s with pc := s.pc + 1 } else s.backtrack

/-- Read a character that is accepted. -/
@[inline] def readChar (s : State) (accepts : Char → Bool) : Progress :=
  match s.here.next? with
  | some (c, after) =>
    if accepts c then .running { s with pc := s.pc + 1, here := after } else s.backtrack
  | none => s.backtrack

/-- Note the position in a slot. A group that opens again forgets where it ended, so that both ends
always belong to the same round. -/
def save (s : State) (slot : Nat) : State :=
  let s := s.setSlot slot (some s.here)
  if slot % 2 = 0 then s.setSlot (slot + 1) none else s

/-- Read the text that group `i` holds; a group with an end unset, or with its ends in the wrong
order, holds none and cannot be read. -/
def readGroup (s : State) (ignoreCase : Bool) (i : Nat) : Option Cursor := do
  let span ← s.memory.group? i
  if span.start.offset ≤ span.stop.offset then readText ignoreCase span.chars s.here else none

def enter (s : State) (positive : Bool) (resume : Nat) : State :=
  { s with
    pc := s.pc + 1
    stack := s.stack.push (.look positive resume s.here s.trail.height)
    looks := s.stack.height :: s.looks }

/-- The body of the innermost test has succeeded, so its other alternatives are given up. A positive
test goes on where it began and keeps what its body noted; a negative one fails. -/
def leave (s : State) : Progress :=
  match s.looks with
  | [] => s.backtrack
  | base :: looks =>
    match s.stack.at? base with
    | some (.look positive resume here mark) =>
      let s := { s with looks, stack := s.stack.truncate base }
      if positive then .running { s with pc := resume, here } else (s.rewind mark).backtrack
    | _ => { s with looks }.backtrack

def execute (s : State) (ignoreCase : Bool) : Inst → Progress
  | .char c => s.readChar (sameChar ignoreCase c)
  | .oneOf cls => s.readChar (cls.accepts ignoreCase)
  | .any => s.readChar (· != '\n')
  | .split first second =>
    .running { s with pc := first, stack := s.stack.push (.retry second s.here s.trail.height) }
  | .jump target => .running { s with pc := target }
  | .save slot => .running { s.save slot with pc := s.pc + 1 }
  | .atStart => s.require (s.here.offset == 0)
  | .atEnd => s.require s.here.rest.isEmpty
  | .enter positive resume => .running (s.enter positive resume)
  | .leave => s.leave
  | .backreference i =>
    match s.readGroup ignoreCase i with
    | some here => .running { s with pc := s.pc + 1, here }
    | none => s.backtrack
  | .mark register =>
    .running { s.setRegister register s.here.offset with pc := s.pc + 1 }
  | .check register => s.require (s.here.offset != s.memory.register register)
  | .accept => .accepted s

/-- Execute the next instruction; behind the last one there is nothing to match with. -/
def step (program : Program) (s : State) : Progress :=
  match program.code[s.pc]? with
  | some inst => s.execute program.ignoreCase inst
  | none => .failed

end State

end RegexEngine.Machine
