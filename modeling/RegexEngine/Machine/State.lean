import RegexEngine.Match
import RegexEngine.Machine.Stack

/-!
# States of the machine

What the machine knows between two instructions. Slots and registers are kept once; every write is
noted in a trail with the value it replaced, and a frame remembers only how long the trail was when
it was pushed. Going back to the frame takes back the writes behind that mark.
-/

namespace RegexEngine.Machine

/-- Two slots for every group, the whole match included. -/
def slotCount : Nat := 2 * (maxGroups + 1)

/-- What the machine has noted: the ends of groups in slots, the starts of rounds in registers. -/
structure Memory where
  slots : Vector (Option Cursor) slotCount
  registers : Array Nat

/-- A write to the memory, with the value that it replaced. -/
inductive Write where
  | slot (index : Nat) (old : Option Cursor)
  | register (index : Nat) (old : Nat)

namespace Memory

/-- Nothing noted: every slot is unset, and registers hold the offset of the text's start. -/
def blank (registers : Nat) : Memory where
  slots := Vector.replicate slotCount none
  registers := Array.replicate registers 0

/-- What slot `i` holds; slots that do not exist are never set. -/
def slot (m : Memory) (i : Nat) : Option Cursor := m.slots[i]?.join

def setSlot (m : Memory) (i : Nat) (value : Option Cursor) : Memory :=
  { m with slots := m.slots.setIfInBounds i value }

def register (m : Memory) (i : Nat) : Nat := m.registers[i]?.getD 0

def setRegister (m : Memory) (i : Nat) (value : Nat) : Memory :=
  { m with registers := m.registers.setIfInBounds i value }

def undo (m : Memory) : Write → Memory
  | .slot i old => m.setSlot i old
  | .register i old => m.setRegister i old

/-- What group `i` holds, if both its ends are set. -/
def group? (m : Memory) (i : Nat) : Option Span :=
  match m.slot (2 * i), m.slot (2 * i + 1) with
  | some start, some stop => some ⟨start, stop⟩
  | _, _ => none

/-! ### What the operations do to slots and registers -/

@[simp] theorem slot_blank (registers i : Nat) : (blank registers).slot i = none := by
  rw [slot, blank, Vector.getElem?_replicate]
  split <;> rfl

theorem slot_setSlot (m : Memory) (i j : Nat) (value : Option Cursor) :
    (m.setSlot i value).slot j = if i = j ∧ i < slotCount then value else m.slot j := by
  rw [slot, setSlot, Vector.getElem?_setIfInBounds]
  by_cases same : i = j
  · subst same
    by_cases inside : i < slotCount
    · simp [inside]
    · simp [inside, slot]
  · simp [same, slot]

theorem register_setRegister (m : Memory) (i j value : Nat) :
    (m.setRegister i value).register j =
      if i = j ∧ i < m.registers.size then value else m.register j := by
  rw [register, setRegister, Array.getElem?_setIfInBounds]
  by_cases same : i = j
  · subst same
    by_cases inside : i < m.registers.size
    · simp [inside]
    · simp [inside, register]
  · simp [same, register]

@[simp] theorem slot_setRegister (m : Memory) (i j value : Nat) :
    (m.setRegister i value).slot j = m.slot j := rfl

@[simp] theorem register_setSlot (m : Memory) (i j : Nat) (value : Option Cursor) :
    (m.setSlot i value).register j = m.register j := rfl

/-- Taking a write back restores the memory before it. -/
theorem undo_setSlot (m : Memory) (i : Nat) (value : Option Cursor) :
    (m.setSlot i value).undo (.slot i (m.slot i)) = m := by
  obtain ⟨slots, registers⟩ := m
  simp only [undo, setSlot, slot, Memory.mk.injEq, and_true]
  ext j hj : 1
  rw [Vector.getElem_setIfInBounds, Vector.getElem_setIfInBounds]
  split
  · rename_i same
    subst same
    rw [Vector.getElem?_eq_getElem hj]
    rfl
  · rfl

theorem undo_setRegister (m : Memory) (i value : Nat) :
    (m.setRegister i value).undo (.register i (m.register i)) = m := by
  obtain ⟨slots, registers⟩ := m
  simp only [undo, setRegister, register, Memory.mk.injEq, true_and]
  ext j hj hj'
  · simp
  · rw [Array.getElem_setIfInBounds, Array.getElem_setIfInBounds]
    split
    · rename_i same
      subst same
      rw [Array.getElem?_eq_getElem hj']
      rfl
    · rfl
    · rw [Array.size_setIfInBounds]
      exact hj'

end Memory

/-- What to go back to when an attempt fails. -/
inductive Frame where
  /-- An alternative that has not been tried. -/
  | retry (pc : Nat) (here : Cursor) (mark : Nat)
  /-- A test that has been entered and not yet decided. -/
  | look (positive : Bool) (resume : Nat) (here : Cursor) (mark : Nat)

namespace Frame

/-- How long the trail was when the frame was pushed. -/
def mark : Frame → Nat
  | .retry _ _ mark => mark
  | .look _ _ _ mark => mark

def here : Frame → Cursor
  | .retry _ here _ => here
  | .look _ _ here _ => here

end Frame

/-- The machine between two instructions. -/
structure State where
  pc : Nat
  here : Cursor
  memory : Memory
  stack : Stack Frame
  trail : Stack Write
  /-- The heights at which open tests lie on the stack, the innermost first. -/
  looks : List Nat

namespace State

def initial (registers : Nat) (start : Cursor) : State :=
  ⟨0, start, .blank registers, .empty, .empty, []⟩

/-- Write a slot, noting the value it held. -/
def setSlot (s : State) (i : Nat) (value : Option Cursor) : State :=
  { s with
    trail := s.trail.push (.slot i (s.memory.slot i))
    memory := s.memory.setSlot i value }

def setRegister (s : State) (i : Nat) (value : Nat) : State :=
  { s with
    trail := s.trail.push (.register i (s.memory.register i))
    memory := s.memory.setRegister i value }

/-- Take back every write behind a mark. -/
def rewind (s : State) (mark : Nat) : State :=
  { s with
    memory := (s.trail.above mark).foldl Memory.undo s.memory
    trail := s.trail.truncate mark }

end State

end RegexEngine.Machine
