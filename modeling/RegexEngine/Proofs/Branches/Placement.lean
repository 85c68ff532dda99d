import RegexEngine.Machine.Forward
import RegexEngine.Proofs.Branches.Threads
import RegexEngine.Proofs.Code.Operands

/-!
# What holds along a branch

A branch of a compiled pattern stays in its code, and at every address what it has opened and not
yet closed are the brackets that are open there: its tests are those of the brackets
(`Thread.Placed`), the groups inside of which it is have begun (`Thread.Grouped`), and it has marked
the round that it is in and stayed in that round since (`Thread.Rounded`).

What an instruction does to a line is said once (`Thread.Leads`, `leads_of_follow`), and each of
these is shown to be kept from that.
-/

namespace RegexEngine

/-- Where a test goes on. -/
def Bracket.resume? : Bracket → Option Nat
  | .test resume => some resume
  | _ => none

namespace Machine

variable {program : Program} {start : Cursor} {t u : Thread} {inst : Inst} {ignoreCase : Bool}

/-! ## One instruction -/

namespace Thread

/-- The memory behind an instruction that goes on with the next one. -/
def note (t : Thread) : Inst → Memory
  | .save slot => (t.alone.save slot).memory
  | .mark register => t.memory.setRegister register t.here.offset
  | _ => t.memory

/-- Says that a line goes on behind an instruction or at an address that the instruction names. -/
inductive Moves (t : Thread) (inst : Inst) (u : Thread) : Prop where
  | on (pc : u.pc = t.pc + 1) (memory : u.memory = t.note inst)
  | away (target : u.pc ∈ inst.targets) (memory : u.memory = t.memory)

/-- The ways in which an instruction leads from one line to the next. -/
inductive Leads (t : Thread) (inst : Inst) (u : Thread) : Prop where
  | on (noTest : ∀ positive resume, inst ≠ .enter positive resume) (noEnd : inst ≠ .leave)
    (running : inst ≠ .accept) (pc : u.pc = t.pc + 1) (memory : u.memory = t.note inst)
    (here : t.here.Reaches u.here) (tests : u.tests = t.tests)
  | away (target : u.pc ∈ inst.targets) (memory : u.memory = t.memory)
    (here : t.here.Reaches u.here) (tests : u.tests = t.tests)
  | enter (positive : Bool) (resume : Nat) (opens : inst = .enter positive resume)
    (pc : u.pc = t.pc + 1) (memory : u.memory = t.memory) (here : u.here = t.here)
    (tests : u.tests = ⟨positive, resume, t.here⟩ :: t.tests)
  | leave (closes : inst = .leave) (memory : u.memory = t.memory)
    (tests : t.tests = ⟨true, u.pc, u.here⟩ :: u.tests)

theorem size_registers_note (t : Thread) (inst : Inst) :
    (t.note inst).registers.size = t.memory.registers.size := by
  cases inst with
  | save slot =>
    unfold note Snapshot.State.save
    dsimp only
    split <;> rfl
  | mark register => exact Array.size_setIfInBounds
  | _ => rfl

end Thread

theorem alone_require {condition : Bool} {s : Snapshot.State}
    (h : t.alone.require condition = .running s) : s = { t.alone with pc := t.pc + 1 } := by
  unfold Snapshot.State.require at h
  split at h
  · cases h
    rfl
  · rw [Snapshot.State.backtrack_nil rfl] at h
    cases h

theorem alone_readChar {accepts : Char → Bool} {s : Snapshot.State}
    (h : t.alone.readChar accepts = .running s) :
    ∃ here, t.here.Reaches here ∧ s = { t.alone with pc := t.pc + 1, here } := by
  unfold Snapshot.State.readChar at h
  split at h
  · rename_i c after next
    split at h
    · cases h
      exact ⟨after, Cursor.reaches_next next, rfl⟩
    · rw [Snapshot.State.backtrack_nil rfl] at h
      cases h
  · rw [Snapshot.State.backtrack_nil rfl] at h
    cases h

/-- What an instruction that is neither a split nor the bracket of a test does to a line. -/
theorem leads_of_execute {s : Snapshot.State} (h : t.alone.execute ignoreCase inst = .running s)
    (noSplit : ∀ first second, inst ≠ .split first second)
    (noTest : ∀ positive resume, inst ≠ .enter positive resume) (noEnd : inst ≠ .leave) :
    t.Leads inst ⟨s.pc, s.here, s.memory, t.tests⟩ := by
  cases inst with
  | char | oneOf | any =>
    obtain ⟨here, ahead, rfl⟩ := alone_readChar h
    exact .on nofun nofun nofun rfl rfl ahead rfl
  | atStart | atEnd | check =>
    obtain rfl := alone_require h
    exact .on nofun nofun nofun rfl rfl (.refl _) rfl
  | save | mark =>
    cases h
    exact .on nofun nofun nofun rfl rfl (.refl _) rfl
  | jump target =>
    cases h
    exact .away (List.mem_singleton_self _) rfl (.refl _) rfl
  | backreference i =>
    unfold Snapshot.State.execute at h
    dsimp only at h
    split at h
    · rename_i after reads
      cases h
      obtain ⟨span, -, reads⟩ := Option.bind_eq_some_iff.1 reads
      split at reads
      · exact .on nofun nofun nofun rfl rfl (reaches_of_readText reads) rfl
      · cases reads
    · rw [Snapshot.State.backtrack_nil rfl] at h
      cases h
  | split first second => exact absurd rfl (noSplit first second)
  | enter positive resume => exact absurd rfl (noTest positive resume)
  | leave => exact absurd rfl noEnd
  | accept => cases h

theorem leads_of_alone (ignoreCase : Bool)
    (noSplit : ∀ first second, inst ≠ .split first second)
    (noTest : ∀ positive resume, inst ≠ .enter positive resume) (noEnd : inst ≠ .leave)
    (h : u ∈
      match t.alone.execute ignoreCase inst with
      | .running s => [(⟨s.pc, s.here, s.memory, t.tests⟩ : Thread)]
      | .accepted _ | .failed => []) : t.Leads inst u := by
  split at h
  · rename_i s execute
    obtain rfl := List.mem_singleton.1 h
    exact leads_of_execute execute noSplit noTest noEnd
  · cases h
  · cases h

theorem leads_of_follow (h : u ∈ t.follow ignoreCase inst) : t.Leads inst u := by
  cases inst with
  | split first second =>
    simp only [Thread.follow, List.mem_cons, List.not_mem_nil, or_false] at h
    rcases h with rfl | rfl <;> exact .away (by simp [Inst.targets]) rfl (.refl _) rfl
  | enter positive resume =>
    rcases List.mem_cons.1 h with rfl | h
    · exact .enter positive resume rfl rfl rfl rfl rfl
    · -- only a negative test leads behind itself at once
      obtain rfl : u = { t with pc := resume } := by
        cases positive with
        | true => cases h
        | false => exact List.mem_singleton.1 h
      exact .away (List.mem_singleton_self _) rfl (.refl _) rfl
  | leave =>
    unfold Thread.follow at h
    dsimp only at h
    split at h
    · rename_i resume here others eq
      obtain rfl := List.mem_singleton.1 h
      exact .leave rfl rfl eq
    · cases h
  | char | oneOf | any | atStart | atEnd | check | save | mark | jump | backreference | accept =>
    exact leads_of_alone ignoreCase nofun nofun nofun h

theorem exists_leads_of_next (h : u ∈ t.next program) :
    ∃ inst, program.code[t.pc]? = some inst ∧ t.Leads inst u := by
  unfold Thread.next at h
  split at h
  · rename_i inst code
    exact ⟨inst, code, leads_of_follow h⟩
  · cases h

/-! ## Addresses, tests and positions -/

/-- Says that a line is in the code, that its open tests are those of the brackets that are open
there, and that nothing it holds lies before the start. -/
structure Thread.Placed (program : Program) (start : Cursor) (t : Thread) : Prop where
  inside : t.pc < program.code.size
  tests : t.tests.map Test.resume = (program.inside t.pc).filterMap Bracket.resume?
  here : start.Reaches t.here
  opened : ∀ test ∈ t.tests, start.Reaches test.here
  registers : t.memory.registers.size = program.registers

/-- Only the brackets of tests change which tests are open. -/
theorem filterMap_resume_nest {pc : Nat} {inside : List Bracket} (fits : inst.Fits pc inside)
    (noTest : ∀ positive resume, inst ≠ .enter positive resume) (noEnd : inst ≠ .leave) :
    (inst.nest inside).filterMap Bracket.resume? = inside.filterMap Bracket.resume? := by
  cases inst with
  | save slot =>
    rw [Inst.nest]
    split
    · rfl
    · obtain ⟨outer, rfl⟩ := fits (by omega)
      rfl
  | check =>
    obtain ⟨outer, rfl, -⟩ := fits
    rfl
  | enter positive resume => exact absurd rfl (noTest positive resume)
  | leave => exact absurd rfl noEnd
  | _ => rfl

namespace Thread.Placed

theorem of_moves (ht : t.Placed program start)
    (nested : program.Nested t.pc inst) (running : inst ≠ .accept) (moves : t.Moves inst u)
    (tests : u.tests.map Test.resume = (program.inside u.pc).filterMap Bracket.resume?)
    (here : start.Reaches u.here) (opened : ∀ test ∈ u.tests, start.Reaches test.here) :
    u.Placed program start := by
  cases moves with
  | on pc memory =>
    refine ⟨pc ▸ nested.next running, tests, here, opened, ?_⟩
    rw [memory, size_registers_note, ht.registers]
  | away target memory =>
    refine ⟨(nested.targets _ target).1, tests, here, opened, ?_⟩
    rw [memory, ht.registers]

theorem follow (ht : t.Placed program start) (code : program.code[t.pc]? = some inst)
    (nested : program.Nested t.pc inst) (h : t.Leads inst u) :
    u.Placed program start ∧ t.Moves inst u := by
  have open_tests := ht.tests
  have opened := ht.opened
  cases h with
  | on noTest noEnd running pc memory here tests =>
    have moves : t.Moves inst u := .on pc memory
    refine ⟨ht.of_moves nested running moves ?_ (ht.here.trans here) (tests ▸ opened), moves⟩
    rw [tests, open_tests, pc, Program.inside_succ code,
      filterMap_resume_nest nested.fits noTest noEnd]
  | away target memory here tests =>
    have running : inst ≠ .accept := by
      rintro rfl
      cases target
    have moves : t.Moves inst u := .away target memory
    refine ⟨ht.of_moves nested running moves ?_ (ht.here.trans here) (tests ▸ opened), moves⟩
    rw [tests, open_tests, (nested.targets _ target).2]
  | enter positive resume opens pc memory here tests =>
    subst opens
    have moves : t.Moves (.enter positive resume) u := .on pc memory
    refine ⟨ht.of_moves nested nofun moves ?_ (here ▸ ht.here) ?_, moves⟩
    · rw [tests, pc, Program.inside_succ code]
      exact congrArg (resume :: ·) open_tests
    · rw [tests]
      exact List.forall_mem_cons.2 ⟨ht.here, opened⟩
  | leave closes memory tests =>
    subst closes
    obtain ⟨outer, inside⟩ := nested.fits
    rw [inside, tests] at open_tests
    rw [tests] at opened
    obtain ⟨pc, rest⟩ := List.cons.inj open_tests
    obtain ⟨first, below⟩ := List.forall_mem_cons.1 opened
    have moves : t.Moves .leave u := .on pc memory
    refine ⟨ht.of_moves nested nofun moves ?_ first below, moves⟩
    rw [show u.pc = t.pc + 1 from pc, Program.inside_succ code, inside]
    exact rest

end Thread.Placed

/-! ## Groups -/

/-- Says that the groups inside of which a line is have begun, and that both or none of the ends of
every other group are set. -/
structure Thread.Grouped (program : Program) (t : Thread) : Prop where
  begun : ∀ i, .group i ∈ program.inside t.pc → (t.memory.slot (2 * i)).isSome = true
  whole : ∀ i, .group i ∉ program.inside t.pc →
    (t.memory.slot (2 * i)).isSome = (t.memory.slot (2 * i + 1)).isSome

/-- Only saves change which groups are open. -/
theorem group_mem_nest_iff {pc i : Nat} {inside : List Bracket} (fits : inst.Fits pc inside)
    (noSave : ∀ slot, inst ≠ .save slot) : .group i ∈ inst.nest inside ↔ .group i ∈ inside := by
  cases inst with
  | save slot => exact absurd rfl (noSave slot)
  | leave =>
    obtain ⟨outer, rfl⟩ := fits
    simp [Inst.nest]
  | check =>
    obtain ⟨outer, rfl, -⟩ := fits
    simp [Inst.nest]
  | enter | mark => simp [Inst.nest]
  | _ => rfl

theorem slot_note (noSave : ∀ slot, inst ≠ .save slot) (k : Nat) :
    (t.note inst).slot k = t.memory.slot k := by
  cases inst with
  | save slot => exact absurd rfl (noSave slot)
  | _ => rfl

theorem slot_note_start {i k : Nat} (small : 2 * i + 1 < slotCount) :
    (t.note (.save (2 * i))).slot k =
      if 2 * i + 1 = k then none else if 2 * i = k then some t.here else t.memory.slot k := by
  simp only [Thread.note, Snapshot.State.save]
  rw [if_pos (Nat.mul_mod_right 2 i), Memory.slot_setSlot, Memory.slot_setSlot]
  simp only [small, and_true, Nat.lt_of_succ_lt small]
  rfl

theorem slot_note_stop {i k : Nat} (small : 2 * i + 1 < slotCount) :
    (t.note (.save (2 * i + 1))).slot k =
      if 2 * i + 1 = k then some t.here else t.memory.slot k := by
  simp only [Thread.note, Snapshot.State.save]
  rw [if_neg (by omega), Memory.slot_setSlot]
  simp only [small, and_true]
  rfl

namespace Thread.Grouped

theorem of_start {i : Nat} (ht : t.Grouped program)
    (code : program.code[t.pc]? = some (.save (2 * i))) (small : 2 * i + 1 < slotCount)
    (pc : u.pc = t.pc + 1) (memory : u.memory = t.note (.save (2 * i))) : u.Grouped program := by
  have inside : program.inside u.pc = .group i :: program.inside t.pc := by
    rw [pc, Program.inside_succ code, Inst.nest, if_pos (Nat.mul_mod_right 2 i),
      Nat.mul_div_cancel_left i Nat.two_pos]
  constructor
  · intro j mem
    rw [memory, slot_note_start small, if_neg (by omega)]
    by_cases same : i = j
    · rw [if_pos (congrArg _ same)]
      rfl
    · rw [if_neg (by omega)]
      rw [inside, List.mem_cons, Bracket.group.injEq] at mem
      exact ht.begun j (mem.resolve_left (Ne.symm same))
  · intro j outside
    rw [inside, List.mem_cons, Bracket.group.injEq, not_or] at outside
    obtain ⟨other, outside⟩ := outside
    rw [memory, slot_note_start small, slot_note_start small, if_neg (by omega), if_neg (by omega),
      if_neg (by omega), if_neg (by omega)]
    exact ht.whole j outside

theorem of_stop {i : Nat} {outer : List Bracket} (ht : t.Grouped program)
    (code : program.code[t.pc]? = some (.save (2 * i + 1)))
    (inside : program.inside t.pc = .group i :: outer) (small : 2 * i + 1 < slotCount)
    (pc : u.pc = t.pc + 1) (memory : u.memory = t.note (.save (2 * i + 1))) :
    u.Grouped program := by
  have outside : program.inside u.pc = outer := by
    rw [pc, Program.inside_succ code, Inst.nest, if_neg (by omega), inside, List.tail_cons]
  constructor
  · intro j mem
    rw [memory, slot_note_stop small, if_neg (by omega)]
    exact ht.begun j (inside ▸ List.mem_cons_of_mem _ (outside ▸ mem))
  · intro j closed
    rw [memory, slot_note_stop small, slot_note_stop small, if_neg (by omega)]
    by_cases same : i = j
    · -- the end is noted now, and the start was when the group opened
      rw [if_pos (by omega), ht.begun j (by rw [inside, same]; exact List.mem_cons_self)]
      rfl
    · rw [if_neg (by omega)]
      apply ht.whole
      rw [inside, List.mem_cons, Bracket.group.injEq, not_or]
      exact ⟨Ne.symm same, outside ▸ closed⟩

theorem next (ht : t.Grouped program) (code : program.code[t.pc]? = some inst)
    (nested : program.Nested t.pc inst) (range : inst.InRange program) (moves : t.Moves inst u) :
    u.Grouped program := by
  cases moves with
  | away target memory =>
    have same := (nested.targets _ target).2
    exact ⟨fun i mem => memory ▸ ht.begun i (same ▸ mem),
      fun i outside => memory ▸ ht.whole i (same ▸ outside)⟩
  | on pc memory =>
    by_cases save : ∃ slot, inst = .save slot
    · obtain ⟨slot, rfl⟩ := save
      obtain ⟨small, small'⟩ := range
      obtain ⟨i, rfl | rfl⟩ : ∃ i, slot = 2 * i ∨ slot = 2 * i + 1 := ⟨slot / 2, by omega⟩
      · exact ht.of_start code (small' (Nat.mul_mod_right 2 i)) pc memory
      · obtain ⟨outer, inside⟩ := nested.fits (by omega)
        rw [show (2 * i + 1) / 2 = i by omega] at inside
        exact ht.of_stop code inside small pc memory
    · have noSave : ∀ slot, inst ≠ .save slot := fun slot eq => save ⟨slot, eq⟩
      have same (i : Nat) : .group i ∈ program.inside u.pc ↔ .group i ∈ program.inside t.pc := by
        rw [pc, Program.inside_succ code]
        exact group_mem_nest_iff nested.fits noSave
      constructor
      · intro i mem
        rw [memory, slot_note noSave]
        exact ht.begun i ((same i).1 mem)
      · intro i outside
        rw [memory, slot_note noSave, slot_note noSave]
        exact ht.whole i (fun mem => outside ((same i).2 mem))

end Thread.Grouped

/-! ## Rounds -/

/-- Says that the lines in `round`, the latest first, lead from a mark of the register to `t`, all
of them inside of the round that begins there, and that what was noted there still is. -/
structure Thread.Round (program : Program) (register : Nat) (mark : Thread) (round : List Thread)
    (t : Thread) : Prop where
  marks : program.code[mark.pc]? = some (.mark register)
  noted : t.memory.register register = mark.here.offset
  inside : ∀ u ∈ round, .round register ∈ program.inside u.pc
  unmarked : ∀ u ∈ round, program.code[u.pc]? ≠ some (.mark register)
  unchecked : ∀ u ∈ round, program.code[u.pc]? ≠ some (.check register)

/-- Says that a line with this past has marked every round that it is inside of. -/
def Thread.Rounded (program : Program) (past : List Thread) (t : Thread) : Prop :=
  ∀ register, .round register ∈ program.inside t.pc →
    ∃ round mark earlier, past = round ++ mark :: earlier ∧
      Thread.Round program register mark round t

theorem register_note {register : Nat} (noMark : inst ≠ .mark register) :
    (t.note inst).register register = t.memory.register register := by
  cases inst with
  | save slot =>
    unfold Thread.note Snapshot.State.save
    dsimp only
    split <;> rfl
  | mark other =>
    have differ : other ≠ register := fun same => noMark (congrArg _ same)
    rw [Thread.note, Memory.register_setRegister, if_neg fun both => differ both.1]
  | _ => rfl

namespace Thread.Rounded

variable {past : List Thread} {register : Nat}

/-- A round goes on with any instruction that neither begins nor ends it. -/
theorem extend (ht : t.Rounded program past) (code : program.code[t.pc]? = some inst)
    (inside : .round register ∈ program.inside t.pc) (noMark : inst ≠ .mark register)
    (noCheck : inst ≠ .check register)
    (memory : u.memory.register register = t.memory.register register) :
    ∃ round mark earlier, t :: past = round ++ mark :: earlier ∧
      Thread.Round program register mark round u := by
  obtain ⟨round, mark, earlier, rfl, h⟩ := ht register inside
  refine ⟨t :: round, mark, earlier, rfl, h.marks, memory.trans h.noted, ?_, ?_, ?_⟩
  · exact List.forall_mem_cons.2 ⟨inside, h.inside⟩
  · refine List.forall_mem_cons.2 ⟨?_, h.unmarked⟩
    rw [code]
    exact fun same => noMark (Option.some.inj same)
  · refine List.forall_mem_cons.2 ⟨?_, h.unchecked⟩
    rw [code]
    exact fun same => noCheck (Option.some.inj same)

theorem next (ht : t.Rounded program past) (placed : t.Placed program start)
    (code : program.code[t.pc]? = some inst) (nested : program.Nested t.pc inst)
    (range : inst.InRange program) (moves : t.Moves inst u) : u.Rounded program (t :: past) := by
  intro register inside
  cases moves with
  | away target memory =>
    have noMark : inst ≠ .mark register := by
      rintro rfl
      cases target
    have noCheck : inst ≠ .check register := by
      rintro rfl
      cases target
    exact ht.extend code ((nested.targets _ target).2 ▸ inside) noMark noCheck
      (congrArg (·.register register) memory)
  | on pc memory =>
    rw [pc, Program.inside_succ code] at inside
    by_cases isMark : inst = .mark register
    · subst isMark
      refine ⟨[], t, past, rfl, code, ?_, nofun, nofun, nofun⟩
      have exists_register : register < t.memory.registers.size := placed.registers ▸ range
      rw [memory, note, Memory.register_setRegister, if_pos ⟨rfl, exists_register⟩]
    · have before := (Inst.mark_or_mem_of_mem_nest inside).resolve_left isMark
      have noCheck : inst ≠ .check register := by
        rintro rfl
        obtain ⟨outer, eq, absent⟩ := nested.fits
        rw [eq] at inside
        exact absent inside
      refine ht.extend code before isMark noCheck ?_
      rw [memory, register_note isMark]

end Thread.Rounded

/-! ## Branches of compiled patterns -/

section

variable {pattern : Pattern}

theorem Thread.placed_initial (compiled : pattern.compile ignoreCase = .ok program)
    (start : Cursor) : (Thread.initial program.registers start).Placed program start := by
  refine ⟨?_, rfl, .refl start, nofun, Array.size_replicate⟩
  exact Pattern.size_of_compile compiled ▸ Nat.succ_pos _

theorem Thread.Placed.next (compiled : pattern.compile ignoreCase = .ok program)
    (ht : t.Placed program start) (leads : u ∈ t.next program) : u.Placed program start := by
  obtain ⟨inst, code, leads⟩ := exists_leads_of_next leads
  exact (ht.follow code (Pattern.nested_of_compile compiled code) leads).1

end

theorem Branch.holds {pattern : Pattern} (normal : pattern.Normal)
    (compiled : pattern.compile ignoreCase = .ok program) {past : List Thread}
    (h : Branch program start past t) :
    t.Placed program start ∧ t.Grouped program ∧ t.Rounded program past := by
  induction h with
  | initial =>
    refine ⟨Thread.placed_initial compiled start, ⟨nofun, ?_⟩, nofun⟩
    intro i _
    simp [Thread.initial]
  | @next past t u _ leads ih =>
    obtain ⟨placed, grouped, rounded⟩ := ih
    obtain ⟨inst, code, leads⟩ := exists_leads_of_next leads
    have nested := Pattern.nested_of_compile compiled code
    have range := Pattern.inRange_of_compile normal compiled code
    obtain ⟨placed', moves⟩ := placed.follow code nested leads
    exact ⟨placed', grouped.next code nested range moves,
      rounded.next placed code nested range moves⟩

end Machine

end RegexEngine
