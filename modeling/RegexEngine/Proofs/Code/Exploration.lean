import RegexEngine.Proofs.Readings.Results
import RegexEngine.Proofs.Snapshot.Machine

/-!
# Exploring readings

How a stretch of code behaves among the alternatives that lie on the stack. `Explores` says that the
machine comes to the end of the stretch once for every reading of a list, in order: with the first
reading at once, with each further one when it goes back from where the one before has led, and that
it goes back below the stretch when the list is used up. Stretches are put together by
`Explores.bind`, which explores what follows from every reading in turn.

A list may name readings again that it has just named (`Explores.again`): the machine need not come
back for them, since what follows has already failed from there.
-/

namespace RegexEngine.Machine

/-! ## What memory says about groups and registers -/

namespace Memory

def captures (m : Memory) : Captures where
  starts := Vector.ofFn fun i => m.slot (2 * i)
  stops := Vector.ofFn fun i => m.slot (2 * i + 1)

theorem slot_eq_none (m : Memory) {i : Nat} (h : slotCount ≤ i) : m.slot i = none := by
  rw [slot, Vector.getElem?_eq_none h]
  rfl

theorem starts_captures (m : Memory) (i : Nat) : m.captures.starts[i]?.join = m.slot (2 * i) := by
  by_cases h : i < maxGroups + 1
  · simp [captures, h]
  · rw [slot_eq_none m (by unfold slotCount; omega), Vector.getElem?_eq_none (by omega)]
    rfl

theorem stops_captures (m : Memory) (i : Nat) :
    m.captures.stops[i]?.join = m.slot (2 * i + 1) := by
  by_cases h : i < maxGroups + 1
  · simp [captures, h]
  · rw [slot_eq_none m (by unfold slotCount; omega), Vector.getElem?_eq_none (by omega)]
    rfl

theorem span?_captures (m : Memory) (i : Nat) : m.captures.span? i = m.group? i := by
  have starts := m.starts_captures i
  have stops := m.stops_captures i
  unfold Captures.span? group?
  generalize m.slot (2 * i) = start at starts ⊢
  generalize m.slot (2 * i + 1) = stop at stops ⊢
  cases start <;> cases stop <;> rw [starts, stops]

theorem captures_blank (registers : Nat) : (blank registers).captures = .unset := by
  refine congr (congrArg Captures.mk ?_) ?_
  · ext i hi : 1
    simp
  · ext i hi : 1
    simp

/-- Writing the slot that begins a group and unsetting the one that ends it opens the group. -/
theorem captures_enter (m : Memory) (i : Nat) (here : Cursor) :
    ((m.setSlot (2 * i) (some here)).setSlot (2 * i + 1) none).captures =
      m.captures.enter i here := by
  unfold captures Captures.enter
  congr 1
  · ext j hj : 1
    have inside : 2 * j < slotCount := by
      unfold slotCount
      omega
    simp only [Vector.getElem_ofFn, Vector.getElem_setIfInBounds, slot_setSlot]
    grind
  · ext j hj : 1
    have inside : 2 * j + 1 < slotCount := by
      unfold slotCount
      omega
    simp only [Vector.getElem_ofFn, Vector.getElem_setIfInBounds, slot_setSlot]
    grind

theorem captures_leave (m : Memory) (i : Nat) (here : Cursor) :
    (m.setSlot (2 * i + 1) (some here)).captures = m.captures.leave i here := by
  unfold captures Captures.leave
  congr 1
  · ext j hj : 1
    simp only [Vector.getElem_ofFn, slot_setSlot]
    rw [if_neg (by omega)]
  · ext j hj : 1
    have inside : 2 * j + 1 < slotCount := by
      unfold slotCount
      omega
    simp only [Vector.getElem_ofFn, Vector.getElem_setIfInBounds, slot_setSlot]
    grind

/-- Says that `after` has the registers of `before`, and that those below `low` hold the same. -/
structure Keeps (low : Nat) (before after : Memory) : Prop where
  size : after.registers.size = before.registers.size
  register : ∀ i < low, after.register i = before.register i

variable {low high : Nat} {a b c : Memory}

theorem Keeps.refl (low : Nat) (a : Memory) : Keeps low a a := ⟨rfl, fun _ _ => rfl⟩

theorem Keeps.trans (hab : Keeps low a b) (hbc : Keeps low b c) : Keeps low a c := by
  refine ⟨hbc.size.trans hab.size, ?_⟩
  intro i lt
  exact (hbc.register i lt).trans (hab.register i lt)

theorem Keeps.mono (h : Keeps high a b) (le : low ≤ high) : Keeps low a b := by
  refine ⟨h.size, ?_⟩
  intro i lt
  exact h.register i (Nat.lt_of_lt_of_le lt le)

theorem keeps_setSlot (low : Nat) (a : Memory) (i : Nat) (value : Option Cursor) :
    Keeps low a (a.setSlot i value) := ⟨rfl, fun _ _ => rfl⟩

theorem keeps_setRegister (a : Memory) {i : Nat} (le : low ≤ i) (value : Nat) :
    Keeps low a (a.setRegister i value) := by
  refine ⟨Array.size_setIfInBounds, ?_⟩
  intro j lt
  rw [register_setRegister, if_neg (by omega)]

end Memory

namespace Snapshot

/-- How far the machine has read, and what the groups hold. -/
def State.reading (s : State) : Reading := ⟨s.here, s.memory.captures⟩

/-! ## Going back and going on -/

/-- Says that executing some instructions leads from one progress to another. -/
inductive Leads (program : Program) : Progress → Progress → Prop where
  | refl (p : Progress) : Leads program p p
  | step {s : State} {p : Progress} (rest : Leads program (s.step program) p) :
    Leads program (.running s) p

theorem Leads.trans {program : Program} {p q r : Progress} (first : Leads program p q)
    (second : Leads program q r) : Leads program p r := by
  induction first with
  | refl => exact second
  | step _ ih => exact .step (ih second)

theorem leads_step {program : Program} {s : State} {p : Progress} (h : s.step program = p) :
    Leads program (.running s) p := .step (h ▸ .refl _)

/-! ## Exploration -/

/-- Says that, from a progress on, the machine comes to `exit` with each of some readings in turn.
Below what it has pushed on the way lies `stack`, and to that it goes back in the end; `looks` are
the open tests, and the registers below `low` stay as they are in `memory`. -/
inductive Explores (program : Program) (exit : Nat) (stack : List Frame) (looks : List Nat)
    (low : Nat) (memory : Memory) : List Reading → Progress → Prop where
  | exhausted {p : Progress} (leads : Leads program p (State.fallBack stack looks)) :
    Explores program exit stack looks low memory [] p
  | found {p : Progress} {s : State} {above : List Frame} {others : List Reading}
    (leads : Leads program p (.running s)) (pc : s.pc = exit) (stack_eq : s.stack = above ++ stack)
    (looks_eq : s.looks = looks) (keeps : memory.Keeps low s.memory)
    (rest : Explores program exit stack looks low memory others (State.fallBack s.stack looks)) :
    Explores program exit stack looks low memory (s.reading :: others) p
  | again {p : Progress} {readings others : List Reading}
    (once : Explores program exit stack looks low memory (readings ++ others) p) :
    Explores program exit stack looks low memory (readings ++ (readings ++ others)) p

namespace Explores

variable {program : Program} {exit mid : Nat} {stack above : List Frame} {looks : List Nat}
  {low high : Nat} {memory memory' : Memory} {readings others : List Reading} {p q : Progress}

theorem of_leads (leads : Leads program p q)
    (h : Explores program exit stack looks low memory readings q) :
    Explores program exit stack looks low memory readings p := by
  induction h with
  | exhausted rest => exact .exhausted (leads.trans rest)
  | found rest pc stack_eq looks_eq keeps others _ =>
    exact .found (leads.trans rest) pc stack_eq looks_eq keeps others
  | again _ ih => exact .again (ih leads)

theorem weaken (h : Explores program exit stack looks high memory' readings p) (le : low ≤ high)
    (keeps : memory.Keeps low memory') :
    Explores program exit stack looks low memory readings p := by
  induction h with
  | exhausted leads => exact .exhausted leads
  | found leads pc stack_eq looks_eq kept _ ih =>
    exact .found leads pc stack_eq looks_eq (keeps.trans (kept.mono le)) ih
  | again _ ih => exact .again ih

/-- When the frames above `stack` are used up, what lies on `stack` is explored. -/
theorem append (first : Explores program exit (above ++ stack) looks low memory readings p)
    (second : Explores program exit stack looks low memory others
      (State.fallBack (above ++ stack) looks)) :
    Explores program exit stack looks low memory (readings ++ others) p := by
  induction first with
  | exhausted leads => exact second.of_leads leads
  | found leads pc stack_eq looks_eq keeps _ ih =>
    rw [← List.append_assoc] at stack_eq
    exact .found leads pc stack_eq looks_eq keeps ih
  | again _ ih =>
    rw [List.append_assoc] at ih
    rw [List.append_assoc, List.append_assoc]
    exact .again ih

/-- What follows is explored from every reading in turn. -/
theorem bind {next : Reading → List Reading}
    (first : Explores program mid stack looks low memory readings p)
    (second : ∀ s : State, s.pc = mid → s.looks = looks → memory.Keeps low s.memory →
      s.reading ∈ readings →
      Explores program exit s.stack looks low s.memory (next s.reading) (.running s)) :
    Explores program exit stack looks low memory (readings.flatMap next) p := by
  induction first with
  | exhausted leads => exact .exhausted leads
  | @found _ s above others leads pc stack_eq looks_eq keeps _ ih =>
    have here := second s pc looks_eq keeps List.mem_cons_self
    have later := ih fun t pc looks_eq keeps mem =>
      second t pc looks_eq keeps (List.mem_cons_of_mem _ mem)
    -- what follows pushes on the frames above `stack`; below it wait the other readings
    rw [stack_eq] at here later
    rw [List.flatMap_cons]
    exact ((here.weaken (Nat.le_refl _) keeps).append later).of_leads leads
  | @again _ readings others _ ih =>
    have once := ih fun t pc looks_eq keeps mem =>
      second t pc looks_eq keeps (List.mem_append_right _ mem)
    rw [List.flatMap_append] at once
    rw [List.flatMap_append, List.flatMap_append]
    exact .again once

/-! ### Reading an exploration back -/

theorem leads_of_nil (h : Explores program exit stack looks low memory [] p) :
    Leads program p (State.fallBack stack looks) := by
  generalize empty : ([] : List Reading) = readings at h
  induction h with
  | exhausted leads => exact leads
  | found => cases empty
  | again _ ih => exact ih (List.append_eq_nil_iff.1 empty.symm).2.symm

/-- Exploring comes to the first reading first. -/
theorem exists_of_cons {r : Reading}
    (h : Explores program exit stack looks low memory (r :: readings) p) :
    ∃ s above, Leads program p (.running s) ∧ s.pc = exit ∧ s.stack = above ++ stack ∧
      s.looks = looks ∧ memory.Keeps low s.memory ∧ s.reading = r := by
  generalize eq : r :: readings = all at h
  induction h generalizing readings with
  | exhausted => cases eq
  | @found _ s above _ leads pc stack_eq looks_eq keeps =>
    cases eq
    exact ⟨s, above, leads, pc, stack_eq, looks_eq, keeps, rfl⟩
  | @again _ first others _ ih =>
    -- a repeated part that is not empty begins with the same reading
    cases first with
    | nil => exact ih eq
    | cons t first =>
      cases eq
      exact ih rfl

theorem replicate {r : Reading} (h : Explores program exit stack looks low memory [r] p)
    (n : Nat) : Explores program exit stack looks low memory (List.replicate (n + 1) r) p := by
  induction n with
  | zero => exact h
  | succ n ih => exact @again _ _ _ _ _ _ _ [r] _ ih

end Explores

end Snapshot

end RegexEngine.Machine
