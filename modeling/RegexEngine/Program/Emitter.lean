import RegexEngine.Pattern.Error
import RegexEngine.Program.Inst
import RegexEngine.Program.Size

/-!
# Compiling patterns

Code is written in one pass, front to back. Where a part ends is known from its size before it is
written, so a jump over it is complete at once. The pass counts the instructions it writes and the
nodes it visits, each copy that a counted repetition makes included, and gives up where either
count would pass its ceiling.
-/

namespace RegexEngine

/-- The most instructions a program may have. -/
def maxProgramLength : Nat := 200000

/-- The most nodes that may be visited while writing a program. -/
def maxCompileVisits : Nat := 2000000

/-- Code as far as it has been written. -/
structure Emitter where
  code : Array Inst
  /-- How many registers have been handed out. -/
  registers : Nat
  visits : Nat

namespace Emitter

def empty : Emitter := ⟨#[], 0, 0⟩

def pc (e : Emitter) : Nat := e.code.size

def push (e : Emitter) (inst : Inst) : Except PatternError Emitter :=
  if e.code.size < maxProgramLength then .ok { e with code := e.code.push inst }
  else .error ⟨.tooLarge, 0⟩

def visit (e : Emitter) : Except PatternError Emitter :=
  if e.visits < maxCompileVisits then .ok { e with visits := e.visits + 1 }
  else .error ⟨.tooLarge, 0⟩

def allocate (e : Emitter) : Emitter := { e with registers := e.registers + 1 }

def times (write : Emitter → Except PatternError Emitter) :
    Nat → Emitter → Except PatternError Emitter
  | 0, e => .ok e
  | n + 1, e => do times write n (← write e)

theorem push_eq_ok_iff {e e' : Emitter} {inst : Inst} :
    e.push inst = .ok e' ↔
      e.code.size < maxProgramLength ∧ { e with code := e.code.push inst } = e' := by
  unfold push
  split
  · rename_i h
    exact ⟨fun ok => ⟨h, Except.ok.inj ok⟩, fun ok => congrArg Except.ok ok.2⟩
  · rename_i h
    exact ⟨nofun, fun ok => absurd ok.1 h⟩

theorem visit_eq_ok_iff {e e' : Emitter} :
    e.visit = .ok e' ↔
      e.visits < maxCompileVisits ∧ { e with visits := e.visits + 1 } = e' := by
  unfold visit
  split
  · rename_i h
    exact ⟨fun ok => ⟨h, Except.ok.inj ok⟩, fun ok => congrArg Except.ok ok.2⟩
  · rename_i h
    exact ⟨nofun, fun ok => absurd ok.1 h⟩

end Emitter

/-- The choice between a body and what comes after it, in the order that `greedy` asks for. -/
def Inst.choose (greedy : Bool) (body exit : Nat) : Inst :=
  if greedy then .split body exit else .split exit body

namespace Node

mutual

/-- Write the code of a node.

* A choice is `split branch next; branch; jump end; next: ...; end:`, the last branch alone.
* A repetition is its required copies, then a loop or as many optional copies as the bounds allow;
  nothing at all if its body has no code.
* A group that captures notes its two ends around the body. -/
def emit : Node → Emitter → Except PatternError Emitter
  | char c, e => do (← e.visit).push (.char c)
  | any, e => do (← e.visit).push .any
  | oneOf cls, e => do (← e.visit).push (.oneOf cls)
  | backreference index, e => do (← e.visit).push (.backreference index)
  | atStart, e => do (← e.visit).push .atStart
  | atEnd, e => do (← e.visit).push .atEnd
  | sequence parts, e => do emitSequence parts (← e.visit)
  | choice branches, e => do
    let e ← e.visit
    emitChoice (e.pc + (choiceShape branches).size) branches e
  | group body, e => do emit body (← e.visit)
  | capture index body, e => do
    let e ← (← e.visit).push (.save (2 * index))
    (← emit body e).push (.save (2 * index + 1))
  | look positive body, e => do
    let e ← e.visit
    let e ← e.push (.enter positive (e.pc + body.shape.size + 2))
    (← emit body e).push .leave
  | repeated body q, e => do
    let e ← e.visit
    let shape := body.shape
    if shape.emitsNothing then
      return e
    let e ← Emitter.times (emit body) q.min e
    match q.max with
    | some max =>
      let exit := e.pc + (max - q.min) * (shape.size + 1)
      Emitter.times (fun e => do emit body (← e.push (.choose q.greedy (e.pc + 1) exit)))
        (max - q.min) e
    | none =>
      let start := e.pc
      let exit := start + shape.size + guardSize shape.nullable + 2
      let e ← e.push (.choose q.greedy (start + 1) exit)
      if shape.nullable then
        let register := e.registers
        let e ← e.allocate.push (.mark register)
        let e ← (← emit body e).push (.check register)
        e.push (.jump start)
      else
        (← emit body e).push (.jump start)

def emitSequence : List Node → Emitter → Except PatternError Emitter
  | [], e => .ok e
  | node :: nodes, e => do emitSequence nodes (← emit node e)

/-- Write branches that all go on at `exit`. -/
def emitChoice (exit : Nat) : List Node → Emitter → Except PatternError Emitter
  | [], e => .ok e
  | node :: nodes, e =>
    match nodes with
    | [] => emit node e
    | _ :: _ => do
      let e ← e.push (.split (e.pc + 1) (e.pc + node.shape.size + 2))
      let e ← (← emit node e).push (.jump exit)
      emitChoice exit nodes e

end

end Node

/-- Whether a program can succeed at the start of a text only, as its first instruction shows. -/
def beginsAtStart (code : Array Inst) : Bool := code[0]? == some .atStart

def Pattern.compile (pattern : Pattern) (ignoreCase : Bool) : Except PatternError Program := do
  let e ← pattern.root.emit .empty
  let e ← e.push .accept
  return {
    code := e.code
    groups := pattern.groups
    registers := e.registers
    ignoreCase
    anchored := beginsAtStart e.code }

end RegexEngine
