import RegexEngine.Program.Emitter
import RegexEngine.Search.Leftmost

/-!
# What a search answers

A search tries every position in turn and answers with the first attempt that does not come to
nothing, be it a match or a limit that has been passed (`Program.find?_eq_none_or_firstAnswer`).
That a program which can only match at the start is tried nowhere else makes no difference: behind
the start its first instruction fails at once, and an attempt that has been made at all was allowed
that one instruction.
-/

namespace RegexEngine

namespace Program

variable {program : Program} {limits : Limits} {here q : Cursor}

/-- Says that the attempt at `q` answers with a match or an error, and that no attempt from `here`
on and before `q` does. -/
structure FirstAnswer (program : Program) (limits : Limits) (here q : Cursor)
    (answer : Except LimitError (Option Match)) : Prop where
  reaches : here.Reaches q
  attempt : program.matchAt limits q = answer
  answers : answer ≠ .ok none
  before : ∀ p, here.Reaches p → p.offset < q.offset → program.matchAt limits p = .ok none

/-- Says that attempts from `here` on come to nothing. -/
def FindsNothing (program : Program) (limits : Limits) (here : Cursor) : Prop :=
  ∀ q, here.Reaches q → program.matchAt limits q = .ok none

theorem firstAnswer_here {answer : Except LimitError (Option Match)}
    (attempt : program.matchAt limits here = answer) (answers : answer ≠ .ok none) :
    program.FirstAnswer limits here here answer := by
  refine ⟨.refl here, attempt, answers, ?_⟩
  intro p reaches lt
  exact absurd reaches.offset_le (Nat.not_le_of_lt lt)

section

variable {offset : Nat} {c : Char} {rest : List Char}

theorem FindsNothing.cons
    (first : program.matchAt limits ⟨offset, c :: rest⟩ = .ok none)
    (others : program.FindsNothing limits ⟨offset + c.utf8Size, rest⟩) :
    program.FindsNothing limits ⟨offset, c :: rest⟩ := by
  intro q reaches
  rcases reaches.eq_or_advance with rfl | ahead
  · exact first
  · exact others q ahead

theorem FirstAnswer.cons {answer : Except LimitError (Option Match)}
    (first : program.matchAt limits ⟨offset, c :: rest⟩ = .ok none)
    (others : program.FirstAnswer limits ⟨offset + c.utf8Size, rest⟩ q answer) :
    program.FirstAnswer limits ⟨offset, c :: rest⟩ q answer := by
  have next : (⟨offset, c :: rest⟩ : Cursor).Reaches ⟨offset + c.utf8Size, rest⟩ :=
    Cursor.reaches_advance rfl
  refine ⟨next.trans others.reaches, others.attempt, others.answers, ?_⟩
  intro p reaches lt
  rcases reaches.eq_or_advance with rfl | ahead
  · exact first
  · exact others.before p ahead lt

end

/-! ## Programs that can only match at the start -/

theorem anchored_of_compile {pattern : Pattern} {ignoreCase : Bool}
    (h : pattern.compile ignoreCase = .ok program) :
    program.anchored = beginsAtStart program.code := by
  obtain ⟨e₁, -, h⟩ := bind_eq_ok_iff.1 h
  obtain ⟨e₂, -, h⟩ := bind_eq_ok_iff.1 h
  cases h
  rfl

theorem anchored_eq_false {pattern : Pattern} {ignoreCase : Bool}
    (h : pattern.compile ignoreCase = .ok program) (absent : .atStart ∉ program.code) :
    program.anchored = false := by
  rw [anchored_of_compile h, beginsAtStart, beq_eq_false_iff_ne]
  exact fun first => absent (Array.mem_of_getElem? first)

/-- An attempt that has an answer was allowed an instruction. -/
theorem steps_pos_of_matchAt {answer : Option Match}
    (h : program.matchAt limits here = .ok answer) : 0 < limits.steps := by
  rcases Nat.eq_zero_or_pos limits.steps with none_allowed | pos
  · obtain ⟨final, run, -⟩ := bind_eq_ok_iff.1 h
    rw [none_allowed] at run
    cases run
  · exact pos

/-- Behind the start of the text the first instruction of such a program fails. -/
theorem matchAt_eq_none_of_beginsAtStart (begins : beginsAtStart program.code = true)
    (steps : 0 < limits.steps) (behind : 0 < here.offset) :
    program.matchAt limits here = .ok none := by
  have first : program.code[0]? = some .atStart := eq_of_beq begins
  have fails : (Machine.State.initial program.registers here).step program = .failed := by
    unfold Machine.State.step Machine.State.initial
    dsimp only
    rw [first]
    dsimp only [Machine.State.execute]
    rw [Machine.State.require, if_neg (by simpa using Nat.ne_of_gt behind)]
    unfold Machine.State.backtrack
    rfl
  obtain ⟨n, hn⟩ := Nat.exists_eq_add_one_of_ne_zero (Nat.ne_of_gt steps)
  unfold matchAt
  rw [hn, Machine.State.run, fails]
  rfl

theorem findsNothing_of_beginsAtStart (begins : beginsAtStart program.code = true)
    (steps : 0 < limits.steps) (behind : 0 < here.offset) :
    program.FindsNothing limits here := by
  intro q reaches
  exact matchAt_eq_none_of_beginsAtStart begins steps (Nat.lt_of_lt_of_le behind reaches.offset_le)

/-! ## Searches -/

theorem leftmost_cons_of_answer {offset : Nat} {c : Char} {rest : List Char}
    (h : program.matchAt limits ⟨offset, c :: rest⟩ ≠ .ok none) :
    program.leftmost limits offset (c :: rest) = program.matchAt limits ⟨offset, c :: rest⟩ := by
  rw [leftmost]
  cases attempt : program.matchAt limits ⟨offset, c :: rest⟩ with
  | error e => rfl
  | ok answer =>
    cases answer with
    | none => exact absurd attempt h
    | some m => rfl

theorem leftmost_cons_of_nothing {offset : Nat} {c : Char} {rest : List Char}
    (h : program.matchAt limits ⟨offset, c :: rest⟩ = .ok none) :
    program.leftmost limits offset (c :: rest) =
      if program.anchored then .ok none
      else program.leftmost limits (offset + c.utf8Size) rest := by
  rw [leftmost, h]
  rfl

theorem leftmost_eq_none_or_firstAnswer (anchored : program.anchored = beginsAtStart program.code)
    (offset : Nat) (rest : List Char) :
    program.leftmost limits offset rest = .ok none ∧ program.FindsNothing limits ⟨offset, rest⟩ ∨
      ∃ q, program.FirstAnswer limits ⟨offset, rest⟩ q (program.leftmost limits offset rest) := by
  induction rest generalizing offset with
  | nil =>
    rw [leftmost]
    by_cases nothing : program.matchAt limits ⟨offset, []⟩ = .ok none
    · left
      refine ⟨nothing, ?_⟩
      intro q reaches
      rw [Cursor.eq_of_reaches_of_rest_eq_nil reaches rfl]
      exact nothing
    · exact .inr ⟨_, firstAnswer_here rfl nothing⟩
  | cons c rest ih =>
    by_cases nothing : program.matchAt limits ⟨offset, c :: rest⟩ = .ok none
    · rw [leftmost_cons_of_nothing nothing]
      by_cases begins : program.anchored = true
      · -- the attempts that are not made would have come to nothing
        rw [if_pos begins]
        have behind : 0 < (⟨offset + c.utf8Size, rest⟩ : Cursor).offset :=
          Nat.add_pos_right _ c.utf8Size_pos
        have others := findsNothing_of_beginsAtStart (anchored ▸ begins)
          (steps_pos_of_matchAt nothing) behind
        exact .inl ⟨rfl, .cons nothing others⟩
      · rw [if_neg begins]
        rcases ih (offset + c.utf8Size) with ⟨ends, others⟩ | ⟨q, first⟩
        · exact .inl ⟨ends, .cons nothing others⟩
        · exact .inr ⟨q, .cons nothing first⟩
    · rw [leftmost_cons_of_answer nothing]
      exact .inr ⟨_, firstAnswer_here rfl nothing⟩

/-- A search finds nothing because there is nothing, or answers as the first attempt that answers.
It is asked behind the start of a text only where an attempt is allowed an instruction. -/
theorem find?_eq_none_or_firstAnswer (anchored : program.anchored = beginsAtStart program.code)
    (allowed : 0 < here.offset → 0 < limits.steps) :
    program.find? limits here = .ok none ∧ program.FindsNothing limits here ∨
      ∃ q, program.FirstAnswer limits here q (program.find? limits here) := by
  unfold find?
  by_cases skipped : (program.anchored && decide (0 < here.offset)) = true
  · rw [if_pos skipped]
    obtain ⟨begins, behind⟩ := Bool.and_eq_true_iff.1 skipped
    have behind := of_decide_eq_true behind
    exact .inl ⟨rfl, findsNothing_of_beginsAtStart (anchored ▸ begins) (allowed behind) behind⟩
  · rw [if_neg skipped]
    exact leftmost_eq_none_or_firstAnswer anchored here.offset here.rest

/-- A search of a whole text is one from its first position on. -/
theorem findAt?_zero (text : String) :
    program.findAt? limits text 0 = program.find? limits (.ofString text) := by
  have start : Cursor.atByte? text 0 = some (.ofString text) := by
    unfold Cursor.atByte? Cursor.ofString
    cases text.toList <;> rfl
  unfold findAt?
  rw [start]

end Program

end RegexEngine
