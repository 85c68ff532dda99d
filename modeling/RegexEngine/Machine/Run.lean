import RegexEngine.Fallible
import RegexEngine.Machine.Step

/-!
# Attempts and their limits

An attempt runs a program from one position of a text. It may execute a limited number of
instructions and keep a limited number of frames; passing a limit ends the attempt with an error and
never with another answer.
-/

namespace RegexEngine

structure Limits where
  /-- How many instructions it may execute. -/
  steps : Nat := 1000000
  /-- How many frames it may keep at a time. -/
  depth : Nat := 1000
deriving Repr, DecidableEq

/-- The limit that an attempt has passed. -/
inductive LimitError where
  | steps (limit : Nat)
  | depth (limit : Nat)
deriving Repr, DecidableEq

namespace Machine

/-- The match that an accepting state stands for. -/
def State.toMatch (s : State) (start : Cursor) : Match where
  whole := ⟨start, s.here⟩
  groups := Vector.ofFn fun i => s.memory.group? (i + 1)

/-- Run from a state while `fuel` lasts; `limits` are what an error reports. -/
def State.run (program : Program) (limits : Limits) :
    Nat → State → Except LimitError (Option State)
  | 0, _ => .error (.steps limits.steps)
  | fuel + 1, s =>
    match s.step program with
    | .running s =>
      if limits.depth < s.stack.height then .error (.depth limits.depth)
      else run program limits fuel s
    | .accepted s => .ok (some s)
    | .failed => .ok none

end Machine

/-- The match that begins at `start`, if there is one. -/
def Program.matchAt (program : Program) (limits : Limits) (start : Cursor) :
    Except LimitError (Option Match) := do
  let final ← Machine.State.run program limits limits.steps (.initial program.registers start)
  return final.map (·.toMatch start)

end RegexEngine
