import RegexEngine.Machine.Run

/-!
# What an attempt uses

The meters that the limits of an attempt are set against: instructions executed and the most frames
kept at a time.
-/

namespace RegexEngine

structure Usage where
  steps : Nat
  depth : Nat
deriving Repr, DecidableEq

namespace Machine

/-- Run to the end, if `fuel` instructions suffice, adding to what has been used before. -/
def State.meter (program : Program) : Nat → Usage → State → Option Usage
  | 0, _, _ => none
  | fuel + 1, used, s =>
    match s.step program with
    | .running s => meter program fuel ⟨used.steps + 1, max used.depth s.stack.height⟩ s
    | .accepted _ | .failed => some ⟨used.steps + 1, used.depth⟩

end Machine

/-- What the attempt at `start` uses without limits, if it ends within `fuel` instructions. -/
def Program.usageAt? (program : Program) (fuel : Nat) (start : Cursor) : Option Usage :=
  (Machine.State.initial program.registers start).meter program fuel ⟨0, 0⟩

end RegexEngine
