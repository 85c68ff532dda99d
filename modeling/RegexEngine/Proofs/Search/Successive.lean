import Mathlib
import RegexEngine.Proofs.Limits.Larger
import RegexEngine.Proofs.Search.FirstAnswer

/-!
# Matches one after the other

The matches of a text are the successive leftmost ones: each is the first answer from where the
search goes on behind the one before (`Matches.following`, `Matches.Successive`). An error that
comes first takes the place of a match and is the last answer; without one the search is over only
where no position is left or none of them answers. Whoever asks `Matches.next?` again and again is
given just these, and nothing ever after (`Matches.answer_eq_getElem?`).
-/

namespace RegexEngine

namespace Matches

variable {program : Program} {limits : Limits} {first : Option Cursor} {ms : List Match}
  {failure : Option LimitError}

/-! ## Asking again and again -/

/-- The search after a call of `next?`; a search that is over stays as it is. -/
def afterCall (it : Matches) : Matches :=
  match it.next? with
  | none => it
  | some (_, after) => after

/-- What the calls of `next?` give, one after the other. -/
def answer (it : Matches) : Nat → Option (Except LimitError Match)
  | 0 => it.next?.map (·.1)
  | n + 1 => it.afterCall.answer n

/-- The calls give the members of the list in turn, and nothing from its end on. -/
theorem answer_eq_getElem? (it : Matches) (n : Nat) : it.answer n = it.toList[n]? := by
  induction n generalizing it with
  | zero =>
    rw [answer]
    cases next : it.next? with
    | none =>
      rw [toList_of_next?_eq_none next]
      rfl
    | some found =>
      rw [toList_of_next?_eq_some next]
      rfl
  | succ n ih =>
    rw [answer, ih, afterCall]
    cases next : it.next? with
    | none =>
      rw [toList_of_next?_eq_none next]
      rfl
    | some found =>
      rw [toList_of_next?_eq_some next]
      rfl

/-! ## Successive leftmost matches -/

/-- Where the search goes on behind a match: at its end, or behind the character there if the match
is empty; nowhere if an empty match ends the text. -/
def following (m : Match) : Option Cursor :=
  if m.whole.start.offset < m.whole.stop.offset then some m.whole.stop
  else
    match m.whole.stop.rest with
    | [] => none
    | c :: rest => some ⟨m.whole.stop.offset + c.utf8Size, rest⟩

theorem resume_eq_following (m : Match) : resume m = following m := by
  unfold resume following
  have empty_iff : m.whole.isEmpty = true ↔ ¬ m.whole.start.offset < m.whole.stop.offset := by
    simp only [Span.isEmpty, Span.length, beq_iff_eq]
    omega
  by_cases forward : m.whole.start.offset < m.whole.stop.offset
  · rw [if_pos forward, if_neg (fun empty => empty_iff.1 empty forward)]
  · rw [if_neg forward, if_pos (empty_iff.2 forward), Cursor.next?]
    cases m.whole.stop.rest <;> rfl

/-- Where the search for the next match begins when `i` have been found, if that for the first one
begins at `first`. -/
def restart (first : Option Cursor) (ms : List Match) : Nat → Option Cursor
  | 0 => first
  | i + 1 => ms[i]?.bind following

/-- A list of matches with at most one error at its end tells the matches and the error. -/
theorem eq_of_answers {others : List Match} {failure' : Option LimitError}
    (h : ms.map .ok ++ failure.toList.map .error =
      (others.map .ok ++ failure'.toList.map .error : List (Except LimitError Match))) :
    ms = others ∧ failure = failure' := by
  induction ms generalizing others with
  | nil =>
    cases others with
    | nil => cases failure <;> cases failure' <;> simp_all
    | cons => cases failure <;> simp at h
  | cons m ms ih =>
    cases others with
    | nil => cases failure' <;> simp at h
    | cons other others =>
      simp only [List.map_cons, List.cons_append, List.cons.injEq, Except.ok.injEq] at h
      obtain ⟨rfl, rest⟩ := h
      obtain ⟨rfl, rfl⟩ := ih rest
      exact ⟨rfl, rfl⟩

/-- Says that the matches `ms`, and then the error `failure` if there is one, are the first answers
from where each search begins, and that without an error nothing is left to be found. -/
structure Successive (program : Program) (limits : Limits) (first : Option Cursor)
    (ms : List Match) (failure : Option LimitError) : Prop where
  found : ∀ i m, ms[i]? = some m → ∃ here, restart first ms i = some here ∧
    program.FirstAnswer limits here m.whole.start (.ok (some m))
  failed : ∀ e, failure = some e → ∃ here q, restart first ms ms.length = some here ∧
    program.FirstAnswer limits here q (.error e)
  ended : failure = none → ∀ here, restart first ms ms.length = some here →
    program.FindsNothing limits here

theorem restart_cons (here : Cursor) (m : Match) (ms : List Match) (i : Nat) :
    restart (some here) (m :: ms) (i + 1) = restart (resume m) ms i := by
  rw [resume_eq_following]
  cases i <;> rfl

namespace Successive

theorem nil_of_findsNothing
    (nothing : ∀ here, first = some here → program.FindsNothing limits here) :
    Successive program limits first [] none :=
  ⟨nofun, nofun, fun _ => nothing⟩

theorem nil_of_error {here q : Cursor} {e : LimitError}
    (failed : program.FirstAnswer limits here q (.error e)) :
    Successive program limits (some here) [] (some e) := by
  refine ⟨nofun, ?_, nofun⟩
  rintro _ ⟨⟩
  exact ⟨here, q, rfl, failed⟩

theorem cons {here : Cursor} {m : Match}
    (leftmost : program.FirstAnswer limits here m.whole.start (.ok (some m)))
    (others : Successive program limits (resume m) ms failure) :
    Successive program limits (some here) (m :: ms) failure := by
  refine ⟨?_, ?_, ?_⟩
  · intro i m' eq
    cases i with
    | zero =>
      cases eq
      exact ⟨here, rfl, leftmost⟩
    | succ i =>
      rw [restart_cons]
      exact others.found i m' eq
  · rw [List.length_cons, restart_cons]
    exact others.failed
  · rw [List.length_cons, restart_cons]
    exact others.ended

/-- Behind the first match the others are successive matches again. -/
theorem of_cons {m : Match} (h : Successive program limits first (m :: ms) failure) :
    ∃ here, first = some here ∧ program.FirstAnswer limits here m.whole.start (.ok (some m)) ∧
      Successive program limits (resume m) ms failure := by
  obtain ⟨here, begins, leftmost⟩ := h.found 0 m rfl
  obtain rfl : first = some here := begins
  refine ⟨here, rfl, leftmost, ?_, ?_, ?_⟩
  · intro i m' eq
    rw [← restart_cons here]
    exact h.found (i + 1) m' eq
  · rw [← restart_cons here]
    exact h.failed
  · rw [← restart_cons here]
    exact h.ended

end Successive

theorem reaches_of_resume {m : Match} {next : Cursor} (h : resume m = some next) :
    m.whole.stop.Reaches next := by
  unfold resume at h
  split at h
  · obtain ⟨⟨c, after⟩, step, rfl⟩ := Option.map_eq_some_iff.1 h
    exact Cursor.reaches_next step
  · cases h
    exact .refl _

/-- Successive matches are found by attempts at positions from the first one on. -/
theorem Successive.attempt_of_mem (h : Successive program limits first ms failure) {m : Match}
    (mem : m ∈ ms) : ∃ here, first = some here ∧ here.Reaches m.whole.start ∧
      program.matchAt limits m.whole.start = .ok (some m) := by
  induction ms generalizing first with
  | nil => cases mem
  | cons m' ms ih =>
    obtain ⟨here, begins, leftmost, others⟩ := h.of_cons
    refine ⟨here, begins, ?_⟩
    rcases List.mem_cons.1 mem with rfl | mem
    · exact ⟨leftmost.reaches, leftmost.attempt⟩
    · obtain ⟨next, resumed, ahead, attempt⟩ := ih others mem
      have forward := Program.reaches_of_matchAt leftmost.attempt
      have behind := (leftmost.reaches.trans forward).trans (reaches_of_resume resumed)
      exact ⟨behind.trans ahead, attempt⟩

/-- A match lies behind where the search for it began; the next one begins behind its start and not
before its end. -/
theorem offset_lt_of_resume {m : Match} {next : Cursor}
    (forward : m.whole.start.Reaches m.whole.stop) (h : resume m = some next) :
    m.whole.start.offset < next.offset ∧ m.whole.stop.offset ≤ next.offset := by
  have le := forward.offset_le
  unfold resume at h
  split at h
  · obtain ⟨⟨c, after⟩, hn, rfl⟩ := Option.map_eq_some_iff.1 h
    have lt := Cursor.offset_lt_of_next hn
    dsimp only
    omega
  · rename_i nonempty
    cases h
    simp only [Span.isEmpty, Span.length, beq_iff_eq] at nonempty
    omega

/-- Successive matches begin one behind the other and do not overlap. -/
theorem Successive.apart (h : Successive program limits first ms failure) {i : Nat} {m m' : Match}
    (at_i : ms[i]? = some m) (at_next : ms[i + 1]? = some m') :
    m.whole.start.offset < m'.whole.start.offset ∧
      m.whole.stop.offset ≤ m'.whole.start.offset := by
  obtain ⟨here, resumed, later⟩ := h.found (i + 1) m' at_next
  obtain ⟨_, -, earlier⟩ := h.found i m at_i
  rw [restart, at_i, Option.bind_some, ← resume_eq_following] at resumed
  have ahead := offset_lt_of_resume (Program.reaches_of_matchAt earlier.attempt) resumed
  have le := later.reaches.offset_le
  omega

/-! ## What a search gives -/

section

variable {here : Cursor}

theorem next?_of_none (found : program.find? limits here = .ok none) :
    (⟨program, limits, some here⟩ : Matches).next? = none := by
  unfold next?
  dsimp only
  rw [found]

theorem next?_of_match {m : Match} (found : program.find? limits here = .ok (some m)) :
    (⟨program, limits, some here⟩ : Matches).next? =
      some (.ok m, ⟨program, limits, resume m⟩) := by
  unfold next?
  dsimp only
  rw [found]

theorem next?_of_error {e : LimitError} (found : program.find? limits here = .error e) :
    (⟨program, limits, some here⟩ : Matches).next? = some (.error e, ⟨program, limits, none⟩) := by
  unfold next?
  dsimp only
  rw [found]

end

/-- A search gives successive matches from where it stands. It stands behind the start of a text
only if attempts are allowed an instruction. -/
theorem exists_successive (it : Matches)
    (anchored : it.program.anchored = beginsAtStart it.program.code)
    (allowed : ∀ here, it.next = some here → 0 < here.offset → 0 < it.limits.steps) :
    ∃ ms failure, it.toList = ms.map .ok ++ failure.toList.map .error ∧
      Successive it.program it.limits it.next ms failure := by
  induction left : it.remaining using Nat.strongRecOn generalizing it with
  | _ left_now ih =>
    obtain ⟨program, limits, next⟩ := it
    dsimp only at anchored allowed ⊢
    cases next with
    | none => exact ⟨[], none, toList_of_next?_eq_none rfl, .nil_of_findsNothing (by rintro _ ⟨⟩)⟩
    | some here =>
      rcases Program.find?_eq_none_or_firstAnswer anchored (allowed here rfl) with
        ⟨ends, nothing⟩ | ⟨q, leftmost⟩
      · refine ⟨[], none, toList_of_next?_eq_none (next?_of_none ends), .nil_of_findsNothing ?_⟩
        rintro _ ⟨⟩
        exact nothing
      · cases found : program.find? limits here with
        | error e =>
          rw [found] at leftmost
          refine ⟨[], some e, ?_, .nil_of_error leftmost⟩
          rw [toList_of_next?_eq_some (next?_of_error found), toList_of_next?_eq_none rfl]
          rfl
        | ok answer =>
          rw [found] at leftmost
          cases answer with
          | none => exact absurd rfl leftmost.answers
          | some m =>
            have call := next?_of_match found
            have start := Program.start_of_matchAt leftmost.attempt
            have steps := Program.steps_pos_of_matchAt leftmost.attempt
            obtain ⟨ms, failure, eq, others⟩ :=
              ih _ (left ▸ remaining_lt_of_next? call) ⟨program, limits, resume m⟩ anchored
                (fun _ _ _ => steps) rfl
            refine ⟨m :: ms, failure, ?_, .cons (start ▸ leftmost) others⟩
            rw [toList_of_next?_eq_some call, eq]
            rfl

end Matches

namespace Regex

theorem anchored_of_compile {pattern : String} {options : Options} {re : Regex}
    (compiled : compile pattern options = .ok re) :
    re.program.anchored = beginsAtStart re.program.code := by
  obtain ⟨pattern, -, written⟩ := exists_pattern_of_compile compiled
  exact Program.anchored_of_compile written

/-- Finding all matches gives the successive leftmost matches of a text, none overlapping the one
before, and at most one error, which is the last answer. -/
theorem findAll_successive {pattern : String} {options : Options} {re : Regex}
    (compiled : compile pattern options = .ok re) (text : String) :
    ∃ ms failure, re.findAll text = ms.map .ok ++ failure.toList.map .error ∧
      Matches.Successive re.program re.options.limits (some (.ofString text)) ms failure ∧
      (∀ i m m', ms[i]? = some m → ms[i + 1]? = some m' →
        m.whole.start.offset < m'.whole.start.offset ∧
          m.whole.stop.offset ≤ m'.whole.start.offset) ∧
      ∀ n, (re.allMatches text).answer n = (re.findAll text)[n]? := by
  obtain ⟨ms, failure, eq, successive⟩ := (re.allMatches text).exists_successive
    (anchored_of_compile compiled) (by
      rintro _ ⟨⟩ behind
      exact absurd behind (Nat.lt_irrefl 0))
  refine ⟨ms, failure, eq, successive, ?_, (re.allMatches text).answer_eq_getElem?⟩
  intro i m m' at_i at_next
  exact successive.apart at_i at_next

/-- An empty match in front of a character of two bytes, a match and an empty one right behind it.
The loop that comes next takes more than is allowed. -/
theorem findAll_successive_of_empty_matches :
    ∃ re ms, compile "(?=é)|a*" { limits := { steps := 12 } } = .ok re ∧
      re.findAll "éabaaaaaa" = ms.map .ok ++ [.error (.steps 12)] ∧
      ms.map (fun m => (m.whole.start.offset, m.whole.stop.offset)) = [(0, 0), (2, 3), (3, 3)] ∧
      Matches.Successive re.program re.options.limits (some (.ofString "éabaaaaaa")) ms
        (some (.steps 12)) ∧
      (∀ i m m', ms[i]? = some m → ms[i + 1]? = some m' →
        m.whole.start.offset < m'.whole.start.offset ∧
          m.whole.stop.offset ≤ m'.whole.start.offset) ∧
      ∀ n, (re.allMatches "éabaaaaaa").answer n = (re.findAll "éabaaaaaa")[n]? := by
  let at_bytes (start stop : Nat) (first second : List Char) : Match :=
    ⟨⟨⟨start, first⟩, ⟨stop, second⟩⟩, Vector.replicate maxGroups none⟩
  let text := "éabaaaaaa".toList
  let found : List Match := [at_bytes 0 0 text text, at_bytes 2 3 (text.drop 1) (text.drop 2),
    at_bytes 3 3 (text.drop 2) (text.drop 2)]
  obtain ⟨re, compiled, answers⟩ : ∃ re, compile "(?=é)|a*" { limits := { steps := 12 } } = .ok re ∧
      re.findAll "éabaaaaaa" = found.map .ok ++ [.error (.steps 12)] :=
    ⟨_, by cbv, by decide +kernel⟩
  obtain ⟨ms, failure, eq, successive, apart, asked⟩ := findAll_successive compiled "éabaaaaaa"
  obtain ⟨rfl, rfl⟩ : ms = found ∧ failure = some (.steps 12) :=
    Matches.eq_of_answers (eq.symm.trans answers)
  exact ⟨re, found, compiled, answers, rfl, successive, apart, asked⟩

end Regex

end RegexEngine
