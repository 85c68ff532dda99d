import Mathlib.Data.List.Forall2
import RegexEngine.Proofs.Branches.Placement

/-!
# Attempts further behind

Text that is put before a text moves every position of it by the same number of bytes. An attempt
that begins that much further behind goes the same way, with every position that it holds moved
(`Snapshot.State.Shifted`), as long as it does not ask for the start of the text: at each step both
machines stand at the same instruction with stacks of the same height. So it ends in the same way
and passes the same limits (`Pattern.matchAt_shift`).

Registers are the exception. They hold 0 before they are marked, wherever an attempt begins, and so
they are compared only in rounds that are open (`Memory.Shifted`). That is enough because a check
stands inside of the round that its register was marked for.
-/

namespace RegexEngine

/-! ## Positions -/

/-- The position with so many more bytes before it. -/
def Cursor.shift (n : Nat) (here : Cursor) : Cursor := ⟨here.offset + n, here.rest⟩

def Span.shift (n : Nat) (span : Span) : Span := ⟨span.start.shift n, span.stop.shift n⟩

def Match.shift (n : Nat) (m : Match) : Match where
  whole := m.whole.shift n
  groups := m.groups.map (Option.map (·.shift n))

namespace Cursor

@[simp] theorem offset_shift (n : Nat) (here : Cursor) : (here.shift n).offset = here.offset + n :=
  rfl

@[simp] theorem rest_shift (n : Nat) (here : Cursor) : (here.shift n).rest = here.rest := rfl

theorem advance_shift (n : Nat) (here : Cursor) (c : Char) (rest : List Char) :
    (here.shift n).advance c rest = (here.advance c rest).shift n := by
  simp only [advance, shift, Nat.add_right_comm]

theorem next?_shift (n : Nat) (here : Cursor) :
    (here.shift n).next? = here.next?.map fun next => (next.1, next.2.shift n) := by
  unfold next?
  rw [rest_shift]
  cases here.rest with
  | nil => rfl
  | cons c rest => exact congrArg (fun after => some (c, after)) (advance_shift n here c rest)

theorem textTo_shift (n : Nat) (start stop : Cursor) :
    (start.shift n).textTo (stop.shift n) = start.textTo stop := by
  unfold textTo
  rw [offset_shift, offset_shift, rest_shift, Nat.add_sub_add_right]

end Cursor

namespace Machine

theorem readText_shift (ignoreCase : Bool) (n : Nat) (expected : List Char) (here : Cursor) :
    readText ignoreCase expected (here.shift n) =
      (readText ignoreCase expected here).map (·.shift n) := by
  induction expected generalizing here with
  | nil => rfl
  | cons c expected ih =>
    rw [readText, readText, Cursor.next?_shift]
    cases here.next? with
    | none => rfl
    | some next =>
      dsimp only [Option.map_some]
      rw [ih]
      split <;> rfl

/-! ## What a machine holds -/

/-- Says that slots hold shifted positions, and registers shifted offsets as far as their rounds are
open. -/
structure Memory.Shifted (n : Nat) (inside : List Bracket) (m m' : Memory) : Prop where
  slots : ∀ i, m'.slot i = (m.slot i).map (·.shift n)
  size : m'.registers.size = m.registers.size
  registers : ∀ r, .round r ∈ inside → m'.register r = m.register r + n

namespace Snapshot

/-- Says that a frame keeps the same alternative, shifted. What it keeps is looked at where the
alternative goes on. -/
inductive Frame.Shifted (program : Program) (n : Nat) : Frame → Frame → Prop where
  | retry {pc : Nat} {here : Cursor} {m m' : Memory} (memory : m.Shifted n (program.inside pc) m') :
    Shifted program n (.retry pc here m) (.retry pc (here.shift n) m')
  | look {positive : Bool} {resume : Nat} {here : Cursor} {m m' : Memory}
    (memory : m.Shifted n (program.inside resume) m') :
    Shifted program n (.look positive resume here m) (.look positive resume (here.shift n) m')

/-- Says that two states differ only by how far the positions lie behind that they hold. -/
structure State.Shifted (program : Program) (n : Nat) (s s' : State) : Prop where
  pc : s'.pc = s.pc
  here : s'.here = s.here.shift n
  memory : s.memory.Shifted n (program.inside s.pc) s'.memory
  stack : List.Forall₂ (Frame.Shifted program n) s.stack s'.stack
  looks : s'.looks = s.looks

inductive Progress.Shifted (program : Program) (n : Nat) : Progress → Progress → Prop where
  | running {s s' : State} (h : s.Shifted program n s') :
    Shifted program n (.running s) (.running s')
  | accepted {s s' : State} (h : s.Shifted program n s') :
    Shifted program n (.accepted s) (.accepted s')
  | failed : Shifted program n .failed .failed

end Snapshot

variable {program : Program} {n : Nat}

namespace Memory

variable {inside inside' : List Bracket} {m m' : Memory}

theorem shifted_blank (n registers : Nat) : (blank registers).Shifted n [] (blank registers) :=
  ⟨fun i => by simp, rfl, nofun⟩

namespace Shifted

theorem mono (h : m.Shifted n inside m') (rounds : ∀ r, .round r ∈ inside' → .round r ∈ inside) :
    m.Shifted n inside' m' :=
  ⟨h.slots, h.size, fun r mem => h.registers r (rounds r mem)⟩

theorem setSlot (h : m.Shifted n inside m') (i : Nat) {value value' : Option Cursor}
    (shift : value' = value.map (·.shift n)) :
    (m.setSlot i value).Shifted n inside (m'.setSlot i value') := by
  refine ⟨?_, h.size, h.registers⟩
  intro j
  rw [slot_setSlot, slot_setSlot, h.slots j, shift]
  split <;> rfl

/-- A mark makes a register comparable. -/
theorem mark (h : m.Shifted n inside m') {r : Nat} (exist : r < m.registers.size) (value : Nat) :
    (m.setRegister r value).Shifted n (.round r :: inside) (m'.setRegister r (value + n)) := by
  refine ⟨h.slots, ?_, ?_⟩
  · exact Array.size_setIfInBounds.trans (h.size.trans Array.size_setIfInBounds.symm)
  · intro other mem
    rw [register_setRegister, register_setRegister, h.size]
    by_cases same : r = other
    · rw [if_pos ⟨same, exist⟩, if_pos ⟨same, exist⟩]
    · rw [if_neg fun both => same both.1, if_neg fun both => same both.1]
      rw [List.mem_cons, Bracket.round.injEq] at mem
      exact h.registers other (mem.resolve_left (Ne.symm same))

theorem group? (h : m.Shifted n inside m') (i : Nat) :
    m'.group? i = (m.group? i).map (·.shift n) := by
  unfold Memory.group?
  rw [h.slots, h.slots]
  cases m.slot (2 * i) with
  | none => rfl
  | some start => cases m.slot (2 * i + 1) <;> rfl

end Shifted

end Memory

namespace Snapshot

theorem State.Shifted.toMatch {s s' : State} (h : s.Shifted program n s') (start : Cursor) :
    s'.toMatch (start.shift n) = (s.toMatch start).shift n := by
  unfold State.toMatch Match.shift Span.shift
  simp only [Vector.map_ofFn, Match.mk.injEq, true_and, h.here]
  refine congrArg Vector.ofFn ?_
  funext i
  exact h.memory.group? (i + 1)

/-! ## One instruction -/

theorem exists_append_of_forall₂ {α β : Type} {R : α → β → Prop} {above below : List α} {a : α}
    {bs : List β} (h : List.Forall₂ R (above ++ a :: below) bs) :
    ∃ above' b below', bs = above' ++ b :: below' ∧ R a b ∧ List.Forall₂ R below below' := by
  induction above generalizing bs with
  | nil =>
    obtain ⟨b, below', related, kept, rfl⟩ := List.forall₂_cons_left_iff.1 h
    exact ⟨[], b, below', rfl, related, kept⟩
  | cons _ _ ih =>
    obtain ⟨c, _, -, rest, rfl⟩ := List.forall₂_cons_left_iff.1 h
    obtain ⟨above', b, below', rfl, related, kept⟩ := ih rest
    exact ⟨c :: above', b, below', rfl, related, kept⟩

theorem shifted_fallBack {stack stack' : List Frame}
    (h : List.Forall₂ (Frame.Shifted program n) stack stack') (looks : List Nat) :
    (State.fallBack stack looks).Shifted program n (State.fallBack stack' looks) := by
  induction h generalizing looks with
  | nil => exact .failed
  | cons top below ih =>
    cases top with
    | retry memory => exact .running ⟨rfl, rfl, memory, below, rfl⟩
    | @look positive _ _ _ _ memory =>
      cases positive with
      | true => exact ih looks.tail
      | false => exact .running ⟨rfl, rfl, memory, below, rfl⟩

namespace State.Shifted

variable {s s' : State} {inst : Inst} {start : Cursor}

theorem backtrack (h : s.Shifted program n s') : s.backtrack.Shifted program n s'.backtrack := by
  rw [backtrack_eq_fallBack, backtrack_eq_fallBack, h.looks]
  exact shifted_fallBack h.stack s.looks

/-- Both go on with the next instruction. -/
theorem proceed (h : s.Shifted program n s') (here : Cursor) {m m' : Memory}
    (memory : m.Shifted n (program.inside (s.pc + 1)) m') :
    Progress.Shifted program n (.running { s with pc := s.pc + 1, here, memory := m })
      (.running { s' with pc := s'.pc + 1, here := here.shift n, memory := m' }) :=
  .running ⟨congrArg (· + 1) h.pc, rfl, memory, h.stack, h.looks⟩

/-- Only a mark opens a round. -/
theorem memory_next (h : s.Shifted program n s') (code : program.code[s.pc]? = some inst)
    (noMark : ∀ r, inst ≠ .mark r) :
    s.memory.Shifted n (program.inside (s.pc + 1)) s'.memory := by
  rw [Program.inside_succ code]
  exact h.memory.mono fun r mem => (Inst.mark_or_mem_of_mem_nest mem).resolve_left (noMark r)

theorem memory_of_target (h : s.Shifted program n s') (nested : program.Nested s.pc inst)
    (target : Nat) (mem : target ∈ inst.targets) :
    s.memory.Shifted n (program.inside target) s'.memory := by
  rw [(nested.targets target mem).2]
  exact h.memory

theorem require (h : s.Shifted program n s') (code : program.code[s.pc]? = some inst)
    (noMark : ∀ r, inst ≠ .mark r) {condition condition' : Bool} (same : condition' = condition) :
    (s.require condition).Shifted program n (s'.require condition') := by
  subst same
  unfold State.require
  split
  · have further := h.proceed s.here (h.memory_next code noMark)
    rwa [← h.here] at further
  · exact h.backtrack

theorem readChar (h : s.Shifted program n s') (code : program.code[s.pc]? = some inst)
    (noMark : ∀ r, inst ≠ .mark r) (accepts : Char → Bool) :
    (s.readChar accepts).Shifted program n (s'.readChar accepts) := by
  unfold State.readChar
  rw [h.here, Cursor.next?_shift]
  cases s.here.next? with
  | none => exact h.backtrack
  | some next =>
    dsimp only [Option.map_some]
    split
    · exact h.proceed _ (h.memory_next code noMark)
    · exact h.backtrack

theorem save (h : s.Shifted program n s') {slot : Nat}
    (code : program.code[s.pc]? = some (.save slot)) :
    Progress.Shifted program n (.running { s.save slot with pc := s.pc + 1 })
      (.running { s'.save slot with pc := s'.pc + 1 }) := by
  have noted := (h.memory_next code nofun).setSlot slot
    (show some s'.here = (some s.here).map _ from congrArg some h.here)
  unfold State.save
  dsimp only
  rw [h.here] at noted ⊢
  split
  · exact h.proceed _ (noted.setSlot (slot + 1) rfl)
  · exact h.proceed _ noted

theorem readGroup (h : s.Shifted program n s') (ignoreCase : Bool) (i : Nat) :
    s'.readGroup ignoreCase i = (s.readGroup ignoreCase i).map (·.shift n) := by
  unfold State.readGroup
  rw [h.memory.group?]
  cases s.memory.group? i with
  | none => rfl
  | some span =>
    have chars : (span.shift n).chars = span.chars := Cursor.textTo_shift n span.start span.stop
    have order : (span.shift n).start.offset ≤ (span.shift n).stop.offset ↔
        span.start.offset ≤ span.stop.offset := Nat.add_le_add_iff_right
    simp only [Option.map_some, Option.bind_eq_bind, Option.bind_some, chars, order, h.here,
      readText_shift]
    split <;> rfl

/-- The innermost test lies at the same height in both stacks, and it goes on right behind the
instruction that leaves it, where no more rounds are open. -/
theorem leave (h : s.Shifted program n s') (code : program.code[s.pc]? = some .leave)
    (nested : program.Nested s.pc .leave) (placed : s.thread.Placed program start)
    (open_looks : s.looks = heights s.stack) : s.leave.Shifted program n s'.leave := by
  cases looks : s.looks with
  | nil =>
    rw [State.leave, State.leave, h.looks, looks]
    exact h.backtrack
  | cons base others =>
    obtain ⟨above, positive, resume, here, m, below, stack, rfl, -, tested, -⟩ :=
      exists_of_heights_eq_cons (open_looks.symm.trans looks)
    obtain ⟨above', frame', below', stack', top, kept⟩ := exists_append_of_forall₂ (stack ▸ h.stack)
    have looks' : s'.looks = below'.length :: others := by rw [h.looks, looks, kept.length_eq]
    obtain ⟨outer, inside⟩ := nested.fits
    obtain rfl : resume = s.pc + 1 := by
      have tests := placed.tests
      rw [show s.thread.tests = _ from tested, show program.inside s.thread.pc = _ from inside]
        at tests
      exact (List.cons.inj tests).1
    have memory := h.memory_next code fun _ => Inst.noConfusion
    cases top with
    | look =>
      rw [State.leave_eq stack looks, State.leave_eq stack' looks']
      cases positive with
      | true => exact .running ⟨rfl, rfl, memory, kept, rfl⟩
      | false =>
        rw [if_neg Bool.false_ne_true, if_neg Bool.false_ne_true]
        exact shifted_fallBack kept others

/-- One instruction. The one that asks for the start of the text is not met, or is asked behind the
start on both sides. -/
theorem execute (h : s.Shifted program n s') (code : program.code[s.pc]? = some inst)
    (nested : program.Nested s.pc inst) (placed : s.thread.Placed program start)
    (open_looks : s.looks = heights s.stack) (marks : ∀ r, inst = .mark r → r < program.registers)
    (behind : inst = .atStart → 0 < start.offset) (ignoreCase : Bool) :
    (s.execute ignoreCase inst).Shifted program n (s'.execute ignoreCase inst) := by
  cases inst with
  | char | oneOf | any => exact h.readChar code nofun _
  | split first second =>
    have now := h.memory_of_target nested first (by simp [Inst.targets])
    have later := h.memory_of_target nested second (by simp [Inst.targets])
    exact .running ⟨rfl, h.here, now, .cons (h.here ▸ .retry later) h.stack, h.looks⟩
  | jump target =>
    have memory := h.memory_of_target nested target (List.mem_singleton_self _)
    exact .running ⟨rfl, h.here, memory, h.stack, h.looks⟩
  | save slot => exact h.save code
  | atStart =>
    have low : 0 < s.here.offset := Nat.lt_of_lt_of_le (behind rfl) placed.here.offset_le
    refine h.require code nofun ?_
    simp [h.here, Nat.ne_of_gt low]
  | atEnd => exact h.require code nofun (congrArg (·.rest.isEmpty) h.here)
  | enter positive resume =>
    have memory := h.memory_next code nofun
    have later := h.memory_of_target nested resume (List.mem_singleton_self _)
    refine .running
      ⟨congrArg (· + 1) h.pc, h.here, memory, .cons (h.here ▸ .look later) h.stack, ?_⟩
    exact congrArg₂ List.cons h.stack.length_eq.symm h.looks
  | leave => exact h.leave code nested placed open_looks
  | backreference i =>
    unfold State.execute
    dsimp only
    rw [h.readGroup]
    cases s.readGroup ignoreCase i with
    | none => exact h.backtrack
    | some here => exact h.proceed here (h.memory_next code nofun)
  | mark register =>
    have exist : register < s.memory.registers.size := by
      rw [show s.memory.registers.size = _ from placed.registers]
      exact marks register rfl
    have memory := h.memory.mark exist s.here.offset
    rw [show _ :: program.inside s.pc = _ from (Program.inside_succ code).symm] at memory
    unfold State.execute
    dsimp only
    rw [h.here]
    exact h.proceed _ memory
  | check register =>
    obtain ⟨outer, inside, -⟩ := nested.fits
    have noted := h.memory.registers register (inside ▸ List.mem_cons_self)
    refine h.require code nofun (Bool.eq_iff_iff.2 ?_)
    simp [h.here, noted]
  | accept => exact .accepted h

/-! ## Whole attempts -/

variable {pattern : Pattern} {ignoreCase : Bool}

theorem step (h : s.Shifted program n s') (compiled : pattern.compile ignoreCase = .ok program)
    (threaded : s.Threaded (Thread.Placed program start))
    (begins : .atStart ∉ program.code ∨ 0 < start.offset) :
    (s.step program).Shifted program n (s'.step program) := by
  unfold State.step
  rw [h.pc]
  cases code : program.code[s.pc]? with
  | none => exact .failed
  | some inst =>
    have placed := threaded.threads _ List.mem_cons_self
    refine h.execute code (Pattern.nested_of_compile compiled code) placed threaded.looks ?_ ?_ _
    · rintro r rfl
      exact Pattern.lt_of_mark compiled code
    · rintro rfl
      exact begins.resolve_left fun absent => absent (Array.mem_of_getElem? code)

/-- Both attempts end in the same way and have found the same, shifted. -/
theorem run (h : s.Shifted program n s') (compiled : pattern.compile ignoreCase = .ok program)
    (threaded : s.Threaded (Thread.Placed program start))
    (begins : .atStart ∉ program.code ∨ 0 < start.offset) (limits : Limits) (fuel : Nat) :
    (s'.run program limits fuel).map (Option.map (·.toMatch (start.shift n))) =
      (s.run program limits fuel).map (Option.map fun t => (t.toMatch start).shift n) := by
  induction fuel generalizing s s' with
  | zero => rfl
  | succ fuel ih =>
    have shifted := h.step compiled threaded begins
    have closed : ∀ t, s.step program = .running t → t.Threaded (Thread.Placed program start) :=
      fun t => threaded.step fun t ht u leads => ht.next compiled leads
    unfold State.run
    generalize s.step program = p, s'.step program = p' at shifted closed
    cases shifted with
    | running next =>
      dsimp only
      rw [next.stack.length_eq]
      split
      · rfl
      · exact ih next (closed _ rfl)
    | accepted last => exact congrArg (Except.ok ∘ some) (last.toMatch start)
    | failed => rfl

end State.Shifted

theorem shifted_initial (program : Program) (n : Nat) (start : Cursor) :
    (State.initial program.registers start).Shifted program n
      (.initial program.registers (start.shift n)) :=
  ⟨rfl, rfl, Memory.shifted_blank n _, .nil, rfl⟩

end Snapshot

end Machine

open Machine in
/-- Text before a text changes nothing about the attempts behind it but the offsets, as long as they
do not begin at the start and ask for it. -/
theorem Pattern.matchAt_shift {pattern : Pattern} {ignoreCase : Bool} {program : Program}
    (compiled : pattern.compile ignoreCase = .ok program) {start : Cursor}
    (begins : .atStart ∉ program.code ∨ 0 < start.offset) (limits : Limits) (n : Nat) :
    program.matchAt limits (start.shift n) =
      (program.matchAt limits start).map (Option.map (·.shift n)) := by
  have threaded : Snapshot.State.Threaded (Thread.Placed program start)
      (.initial program.registers start) :=
    ⟨rfl, List.forall_mem_singleton.2 (Thread.placed_initial compiled start)⟩
  have runs := (Snapshot.shifted_initial program n start).run compiled threaded begins limits
    limits.steps
  rw [Program.matchAt_eq_map_run, Program.matchAt_eq_map_run, runs]
  cases Snapshot.State.run program limits limits.steps (.initial program.registers start) with
  | error e => rfl
  | ok final => cases final <;> rfl

end RegexEngine
