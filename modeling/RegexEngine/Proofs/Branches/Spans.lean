import RegexEngine.Proofs.Branches.Placement
import RegexEngine.Proofs.Code.Openings

/-!
# What groups hold along a branch

The ends of a group are noted one by one, and between the two a branch may read on, repeat the group
or go back to where a test began. All the same a group never ends before it starts
(`Thread.Spanned`). What carries this is that the start of a group that is open lies at or before
the position, and that of one that was open when a test was entered at or before the position where
the test was (`Memory.Ordered`): that is where the branch goes back to when it leaves the test.
-/

namespace RegexEngine.Machine

variable {program : Program} {start : Cursor} {t u : Thread} {inst : Inst}

/-! ## Open groups -/

/-- Says that every open group has started, at or before the position that the branch has in the
test in which the group is. -/
def Memory.Ordered (m : Memory) : List Bracket → List Test → Cursor → Prop
  | [], _, _ => True
  | .group i :: inside, tests, here =>
    (∃ c, m.slot (2 * i) = some c ∧ c.Reaches here) ∧ m.Ordered inside tests here
  | .round _ :: inside, tests, here => m.Ordered inside tests here
  | .test _ :: _, [], _ => True
  | .test _ :: inside, test :: tests, _ => m.Ordered inside tests test.here

namespace Memory.Ordered

variable {m m' : Memory} {inside : List Bracket} {tests : List Test} {here after : Cursor}

theorem forward (h : m.Ordered inside tests here) (ahead : here.Reaches after) :
    m.Ordered inside tests after := by
  induction inside with
  | nil => trivial
  | cons bracket inside ih =>
    cases bracket with
    | group i =>
      obtain ⟨⟨c, noted, reaches⟩, others⟩ := h
      exact ⟨⟨c, noted, reaches.trans ahead⟩, ih others⟩
    | round => exact ih h
    | test => cases tests <;> exact h

/-- Only the starts of the groups that are open matter. -/
theorem congr (h : m.Ordered inside tests here)
    (same : ∀ i, .group i ∈ inside → m'.slot (2 * i) = m.slot (2 * i)) :
    m'.Ordered inside tests here := by
  induction inside generalizing tests here with
  | nil => trivial
  | cons bracket inside ih =>
    have below (i : Nat) (mem : .group i ∈ inside) : m'.slot (2 * i) = m.slot (2 * i) :=
      same i (List.mem_cons_of_mem _ mem)
    cases bracket with
    | group i =>
      obtain ⟨⟨c, noted, reaches⟩, others⟩ := h
      exact ⟨⟨c, (same i List.mem_cons_self).trans noted, reaches⟩, ih others below⟩
    | round => exact ih h below
    | test =>
      cases tests with
      | nil => trivial
      | cons test tests =>
        have outside : m.Ordered inside tests test.here := h
        exact ih outside below

/-- Rounds do not matter. -/
theorem nest {pc : Nat} (h : m.Ordered inside tests here) (fits : inst.Fits pc inside)
    (noTest : ∀ positive resume, inst ≠ .enter positive resume) (noEnd : inst ≠ .leave)
    (noSave : ∀ slot, inst ≠ .save slot) : m.Ordered (inst.nest inside) tests here := by
  cases inst with
  | check =>
    obtain ⟨outer, rfl, -⟩ := fits
    exact h
  | save slot => exact absurd rfl (noSave slot)
  | enter positive resume => exact absurd rfl (noTest positive resume)
  | leave => exact absurd rfl noEnd
  | _ => exact h

end Memory.Ordered

/-! ## Slots -/

/-- Says what holds of a position that a slot holds when a branch from `start` is at `here`. -/
structure Noted (program : Program) (start here : Cursor) (slot : Nat) (c : Cursor) : Prop where
  ahead : start.Reaches c
  known : 1 ≤ slot / 2 ∧ slot / 2 ≤ program.groups
  /-- Only leaving a test leads back to before a position that has been noted. -/
  behind : .leave ∉ program.code → c.Reaches here

/-- Says that a line has noted only positions from the start on, and only for groups that there are,
and that every group that has ended did so at or behind where it started. -/
structure Thread.Spanned (program : Program) (start : Cursor) (t : Thread) : Prop where
  noted : ∀ slot c, t.memory.slot slot = some c → Noted program start t.here slot c
  ordered : t.memory.Ordered (program.inside t.pc) t.tests t.here
  ended : ∀ i c d, t.memory.slot (2 * i) = some c → t.memory.slot (2 * i + 1) = some d →
    c.Reaches d

theorem Noted.forward {here after c : Cursor} {slot : Nat} (h : Noted program start here slot c)
    (ahead : here.Reaches after) : Noted program start after slot c :=
  ⟨h.ahead, h.known, fun absent => (h.behind absent).trans ahead⟩

namespace Thread.Spanned

theorem initial (start : Cursor) :
    (Thread.initial program.registers start).Spanned program start := by
  refine ⟨?_, trivial, ?_⟩ <;> simp [Thread.initial]

/-- A group that starts here has no end, and starts at the position. -/
theorem of_start {i : Nat} (ht : t.Spanned program start) (placed : t.Placed program start)
    (code : program.code[t.pc]? = some (.save (2 * i))) (small : 2 * i + 1 < slotCount)
    (known : 1 ≤ i ∧ i ≤ program.groups) (new : .group i ∉ program.inside t.pc)
    (pc : u.pc = t.pc + 1) (memory : u.memory = t.note (.save (2 * i)))
    (here : t.here.Reaches u.here) (tests : u.tests = t.tests) : u.Spanned program start := by
  have slots (k : Nat) := memory ▸ slot_note_start (t := t) (k := k) small
  have inside : program.inside u.pc = .group i :: program.inside t.pc := by
    rw [pc, Program.inside_succ code, Inst.nest, if_pos (Nat.mul_mod_right 2 i),
      Nat.mul_div_cancel_left i Nat.two_pos]
  constructor
  case noted =>
    intro slot c holds
    rw [slots] at holds
    split at holds
    · cases holds
    split at holds
    · rename_i same
      cases holds
      refine ⟨placed.here, ?_, fun _ => here⟩
      rw [← same, Nat.mul_div_cancel_left i Nat.two_pos]
      exact known
    · exact (ht.noted slot c holds).forward here
  case ordered =>
    rw [inside, tests]
    refine ⟨⟨t.here, ?_, here⟩, (ht.ordered.forward here).congr ?_⟩
    · rw [slots, if_neg (by omega), if_pos rfl]
    · -- the starts of the groups around it are not written again
      intro j mem
      have other : i ≠ j := fun same => new (same ▸ mem)
      rw [slots, if_neg (by omega), if_neg (by omega)]
  case ended =>
    intro j c d starts stops
    rw [slots] at starts stops
    split at stops
    · cases stops
    · rename_i other
      rw [if_neg (by omega)] at stops
      rw [if_neg (by omega), if_neg (by omega)] at starts
      exact ht.ended j c d starts stops

/-- A group that ends here is the innermost one, and has started at or before the position. -/
theorem of_stop {i : Nat} {outer : List Bracket} (ht : t.Spanned program start)
    (placed : t.Placed program start) (code : program.code[t.pc]? = some (.save (2 * i + 1)))
    (innermost : program.inside t.pc = .group i :: outer) (small : 2 * i + 1 < slotCount)
    (known : 1 ≤ i ∧ i ≤ program.groups) (pc : u.pc = t.pc + 1)
    (memory : u.memory = t.note (.save (2 * i + 1))) (here : t.here.Reaches u.here)
    (tests : u.tests = t.tests) : u.Spanned program start := by
  have slots (k : Nat) := memory ▸ slot_note_stop (t := t) (k := k) small
  have inside : program.inside u.pc = outer := by
    rw [pc, Program.inside_succ code, Inst.nest, if_neg (by omega), innermost, List.tail_cons]
  have ordered := ht.ordered
  rw [innermost] at ordered
  obtain ⟨⟨started, holds_start, reaches⟩, others⟩ := ordered
  constructor
  case noted =>
    intro slot c holds
    rw [slots] at holds
    split at holds
    · rename_i same
      cases holds
      refine ⟨placed.here, ?_, fun _ => here⟩
      rw [← same, show (2 * i + 1) / 2 = i by omega]
      exact known
    · exact (ht.noted slot c holds).forward here
  case ordered =>
    rw [inside, tests]
    refine (others.forward here).congr ?_
    intro j mem
    rw [slots, if_neg (by omega)]
  case ended =>
    intro j c d starts stops
    rw [slots, if_neg (by omega)] at starts
    rw [slots] at stops
    split at stops
    · rename_i same
      obtain rfl : i = j := by omega
      cases stops
      cases holds_start.symm.trans starts
      exact reaches
    · exact ht.ended j c d starts stops

theorem next (ht : t.Spanned program start) (placed : t.Placed program start)
    (code : program.code[t.pc]? = some inst) (nested : program.Nested t.pc inst)
    (range : inst.InRange program)
    (known : ∀ slot, inst = .save slot → 1 ≤ slot / 2 ∧ slot / 2 ≤ program.groups)
    (new : ∀ i, inst = .save (2 * i) → .group i ∉ program.inside t.pc)
    (leads : t.Leads inst u) : u.Spanned program start := by
  cases leads with
  | on noTest noEnd running pc memory here tests =>
    by_cases save : ∃ slot, inst = .save slot
    · obtain ⟨slot, rfl⟩ := save
      obtain ⟨small, small'⟩ := range
      have known := known slot rfl
      obtain ⟨i, rfl | rfl⟩ : ∃ i, slot = 2 * i ∨ slot = 2 * i + 1 := ⟨slot / 2, by omega⟩
      · exact ht.of_start placed code (small' (Nat.mul_mod_right 2 i)) (by omega) (new i rfl) pc
          memory here tests
      · obtain ⟨outer, inside⟩ := nested.fits (by omega)
        rw [show (2 * i + 1) / 2 = i by omega] at inside
        exact ht.of_stop placed code inside small (by omega) pc memory here tests
    · have noSave : ∀ slot, inst ≠ .save slot := fun slot eq => save ⟨slot, eq⟩
      have slots (k : Nat) : u.memory.slot k = t.memory.slot k := memory ▸ slot_note noSave k
      constructor
      case noted =>
        intro slot c holds
        exact (ht.noted slot c (slots slot ▸ holds)).forward here
      case ordered =>
        rw [pc, Program.inside_succ code, tests]
        refine Memory.Ordered.congr ?_ fun i _ => slots (2 * i)
        exact (ht.ordered.forward here).nest nested.fits noTest noEnd noSave
      case ended =>
        intro i c d
        rw [slots, slots]
        exact ht.ended i c d
  | away target memory here tests =>
    refine ⟨?_, ?_, memory ▸ ht.ended⟩
    · rw [memory]
      exact fun slot c holds => (ht.noted slot c holds).forward here
    · rw [(nested.targets _ target).2, memory, tests]
      exact ht.ordered.forward here
  | enter positive resume opens pc memory here tests =>
    subst opens
    refine ⟨?_, ?_, memory ▸ ht.ended⟩
    · rw [memory, here]
      exact ht.noted
    · rw [pc, Program.inside_succ code, memory, tests]
      exact ht.ordered
  | leave closes memory tests =>
    subst closes
    obtain ⟨outer, inside⟩ := nested.fits
    have ordered := ht.ordered
    have open_tests := placed.tests
    rw [inside, tests] at ordered open_tests
    obtain ⟨pc, -⟩ := List.cons.inj open_tests
    refine ⟨?_, ?_, memory ▸ ht.ended⟩
    · -- the position is that of the test again, so what its body has noted may lie behind it
      intro slot c holds
      obtain ⟨ahead, known, -⟩ := ht.noted slot c (memory ▸ holds)
      exact ⟨ahead, known, fun absent => absurd (Array.mem_of_getElem? code) absent⟩
    · rw [show u.pc = t.pc + 1 from pc, Program.inside_succ code, inside, memory]
      exact ordered

end Thread.Spanned

/-! ## Branches of compiled patterns -/

theorem Branch.spanned {pattern : Pattern} {ignoreCase : Bool} (normal : pattern.Normal)
    (compiled : pattern.compile ignoreCase = .ok program) {past : List Thread}
    (h : Branch program start past t) : t.Spanned program start := by
  induction h with
  | initial => exact .initial start
  | @next past t u before leads ih =>
    obtain ⟨placed, -, -⟩ := before.holds normal compiled
    obtain ⟨inst, code, leads⟩ := exists_leads_of_next leads
    refine ih.next placed code (Pattern.nested_of_compile compiled code)
      (Pattern.inRange_of_compile normal compiled code) ?_ ?_ leads
    · rintro slot rfl
      exact Pattern.slot_of_save normal compiled code
    · rintro i rfl
      exact Pattern.group_not_mem_inside normal compiled code

end RegexEngine.Machine
