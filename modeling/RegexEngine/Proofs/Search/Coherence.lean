import Mathlib
import RegexEngine.Proofs.Branches.Spans
import RegexEngine.Proofs.Code.Origins
import RegexEngine.Proofs.Search.Successive
import RegexEngine.Proofs.Text.Bytes

/-!
# Coherent matches

However a match of a compiled pattern is found, its stretches are stretches of the text
(`Pattern.coherent_of_finds`): each begins at or before its end, neither lies within a character,
and no group begins before the match does. A group may end behind the match only if it took part in
a test, and groups that the pattern does not have hold nothing.

The state in which an attempt accepts is one that it visits, so what its slots hold is what holds of
slots along branches.
-/

namespace RegexEngine

/-- Says that a stretch is one of the text that begins at or behind `start`. -/
structure Span.Lies (text : String) (start : Cursor) (span : Span) : Prop where
  start : Cursor.Lies text start span.start
  stop : Cursor.Lies text span.start span.stop
  /-- What the stretch stands for is what the text has between its ends. -/
  text : ∃ before after, text = before ++ span.text ++ after ∧
    span.start.offset = before.utf8ByteSize ∧ span.stop.offset = (before ++ span.text).utf8ByteSize

/-- Says that what a match holds are stretches of the text that can belong to one match of the
pattern. -/
structure Match.Coherent (pattern : Pattern) (text : String) (m : Match) : Prop where
  whole : m.whole.Lies text (.ofString text)
  zero : m.group? 0 = some m.whole
  groups : ∀ i span, m.group? i = some span → span.Lies text m.whole.start
  within : (∀ positive body, .look positive body ∉ pattern.root.nodes) →
    ∀ i span, m.group? i = some span → span.stop.offset ≤ m.whole.stop.offset
  absent : ∀ i, pattern.groups < i → m.group? i = none

theorem Span.lies_of_reaches {text : String} {start : Cursor} {span : Span}
    (within : (Cursor.ofString text).Reaches start) (ahead : start.Reaches span.start)
    (forward : span.start.Reaches span.stop) : span.Lies text start := by
  refine ⟨ahead.lies within, forward.lies (within.trans ahead), ?_⟩
  obtain ⟨before, eq, offset⟩ := Cursor.exists_append_of_reaches (within.trans ahead)
  have rest := Cursor.rest_eq_textTo_append forward
  obtain ⟨between, rest', offset'⟩ := forward
  obtain rfl : between = span.chars := List.append_cancel_right (rest'.symm.trans rest)
  refine ⟨before, String.ofList span.stop.rest, ?_, offset, ?_⟩
  · rw [String.append_assoc, Span.text, ← String.ofList_append, ← rest']
    exact eq
  · rw [String.utf8ByteSize_append, Span.text, ← byteLength_eq_utf8ByteSize, ← offset]
    exact offset'

namespace Program

/-- The ways in which a match in a text is found: by an attempt at a position of the text, by a
search from some byte on, and as one of all matches. -/
inductive Finds (program : Program) (limits : Limits) (text : String) (m : Match) : Prop where
  | attempt {start : Cursor} (within : (Cursor.ofString text).Reaches start)
    (h : program.matchAt limits start = .ok (some m))
  | search (n : Nat) (h : program.findAt? limits text n = .ok (some m))
  | all (h : .ok m ∈ (Matches.ofString program limits text).toList)

variable {program : Program} {limits : Limits} {text : String} {m : Match}

theorem exists_attempt_of_find? {here : Cursor}
    (anchored : program.anchored = beginsAtStart program.code)
    (h : program.find? limits here = .ok (some m)) :
    ∃ start, here.Reaches start ∧ program.matchAt limits start = .ok (some m) := by
  unfold find? at h
  split at h
  · cases h
  · rcases leftmost_eq_none_or_firstAnswer anchored here.offset here.rest with
      ⟨nothing, -⟩ | ⟨start, first⟩
    · cases nothing.symm.trans h
    · exact ⟨start, first.reaches, first.attempt.trans h⟩

/-- However a match is found, an attempt at a position of the text finds it. -/
theorem Finds.exists_attempt (anchored : program.anchored = beginsAtStart program.code)
    (h : program.Finds limits text m) :
    ∃ start, (Cursor.ofString text).Reaches start ∧
      program.matchAt limits start = .ok (some m) := by
  cases h with
  | @attempt start within h => exact ⟨start, within, h⟩
  | search n h =>
    unfold findAt? at h
    split at h
    · rename_i here at_byte
      obtain ⟨start, ahead, attempt⟩ := exists_attempt_of_find? anchored h
      exact ⟨start, (Cursor.reaches_of_seek at_byte).trans ahead, attempt⟩
    · cases h
  | all h =>
    obtain ⟨ms, failure, eq, successive⟩ :=
      (Matches.ofString program limits text).exists_successive anchored (by
        rintro _ ⟨⟩ behind
        exact absurd behind (Nat.lt_irrefl 0))
    have mem : m ∈ ms := by
      rw [eq] at h
      simpa using h
    obtain ⟨_, ⟨⟩, ahead, attempt⟩ := successive.attempt_of_mem mem
    exact ⟨_, ahead, attempt⟩

end Program

namespace Machine

/-- What a group of a match holds is what the accepting state has noted. -/
theorem State.slots_of_group? {s : State} {start : Cursor} {i : Nat} {span : Span}
    (h : (s.toMatch start).group? (i + 1) = some span) :
    s.memory.slot (2 * (i + 1)) = some span.start ∧
      s.memory.slot (2 * (i + 1) + 1) = some span.stop := by
  have held : s.memory.group? (i + 1) = some span := by
    by_cases known : i < maxGroups
    · simpa [toMatch, Match.group?, known] using h
    · simp [toMatch, Match.group?, known] at h
  unfold Memory.group? at held
  split at held
  · rename_i starts stops
    cases held
    exact ⟨starts, stops⟩
  · cases held

end Machine

namespace Pattern

open Machine

variable {pattern : Pattern} {ignoreCase : Bool} {program : Program} {limits : Limits}
  {text : String} {m : Match}

theorem coherent_of_matchAt {start : Cursor} (normal : pattern.Normal)
    (compiled : pattern.compile ignoreCase = .ok program)
    (within : (Cursor.ofString text).Reaches start)
    (h : program.matchAt limits start = .ok (some m)) : m.Coherent pattern text := by
  have forward := Program.reaches_of_matchAt h
  obtain ⟨final, run, h⟩ := bind_eq_ok_iff.1 h
  obtain _ | final := final <;> cases h
  obtain ⟨n, visited⟩ := State.Visits.initial.visits_of_run (by omega) run
  obtain ⟨past, branch⟩ := visited.branch.2.threads _ List.mem_cons_self
  have spanned := branch.spanned normal compiled
  have same : program.groups = pattern.groups := groups_of_compile compiled
  constructor
  case whole => exact Span.lies_of_reaches (.refl _) within forward
  case zero => rfl
  case groups =>
    intro i span held
    cases i with
    | zero =>
      cases held
      exact Span.lies_of_reaches within (.refl _) forward
    | succ i =>
      obtain ⟨starts, stops⟩ := State.slots_of_group? held
      exact Span.lies_of_reaches within (spanned.noted _ _ starts).ahead
        (spanned.ended _ _ _ starts stops)
  case within =>
    intro noTest i span held
    cases i with
    | zero =>
      cases held
      exact Nat.le_refl _
    | succ i =>
      -- without a test there is nothing to leave, and the position never goes back
      have absent : .leave ∉ program.code := by
        intro mem
        obtain ⟨pc, inside, code⟩ := Array.getElem_of_mem mem
        obtain ⟨positive, body, part⟩ :=
          leave_of_compile compiled (Array.getElem?_eq_some_iff.2 ⟨inside, code⟩)
        exact noTest positive body part
      obtain ⟨-, stops⟩ := State.slots_of_group? held
      exact ((spanned.noted _ _ stops).behind absent).offset_le
  case absent =>
    intro i unknown
    cases i with
    | zero => exact absurd unknown (Nat.not_lt_zero _)
    | succ i =>
      refine Option.eq_none_iff_forall_not_mem.2 fun span held => ?_
      obtain ⟨starts, -⟩ := State.slots_of_group? held
      have known := (spanned.noted _ _ starts).known
      omega

/-- Every match of a compiled pattern is coherent, whatever the text and the limits are and however
the match is found. -/
theorem coherent_of_finds {source : String} (parsed : Pattern.parse source = .ok pattern)
    (compiled : pattern.compile ignoreCase = .ok program)
    (found : program.Finds limits text m) : m.Coherent pattern text := by
  obtain ⟨start, within, attempt⟩ :=
    found.exists_attempt (Program.anchored_of_compile compiled)
  exact coherent_of_matchAt (normal_of_parse parsed) compiled within attempt

/-- The second copy of a group in a test holds what stands behind the end of the match. The search
begins within a character. -/
theorem coherent_of_finds_of_repeated_test :
    ∃ pattern program m, Pattern.parse "(?=(a|b){2})a(c)?" = .ok pattern ∧
      pattern.compile false = .ok program ∧ program.Finds {} "éab" m ∧
      m.whole = ⟨⟨2, ['a', 'b']⟩, ⟨3, ['b']⟩⟩ ∧ m.group? 1 = some ⟨⟨3, ['b']⟩, ⟨4, []⟩⟩ ∧
      m.group? 2 = none ∧ m.Coherent pattern "éab" := by
  let program : Program :=
    { code := #[.enter true 14, .save 2, .split 3 5, .char 'a', .jump 6, .char 'b', .save 3,
        .save 2, .split 9 11, .char 'a', .jump 12, .char 'b', .save 3, .leave, .char 'a',
        .split 16 19, .save 4, .char 'c', .save 5, .accept]
      groups := 2
      registers := 0
      ignoreCase := false
      anchored := false }
  let m : Match :=
    { whole := ⟨⟨2, ['a', 'b']⟩, ⟨3, ['b']⟩⟩
      groups := (Vector.replicate maxGroups none).set 0 (some ⟨⟨3, ['b']⟩, ⟨4, []⟩⟩) }
  obtain ⟨pattern, parsed, compiled⟩ : ∃ pattern,
      Pattern.parse "(?=(a|b){2})a(c)?" = .ok pattern ∧ pattern.compile false = .ok program :=
    ⟨_, by cbv, rfl⟩
  have found : program.Finds {} "éab" m := .search 1 (by decide +kernel)
  exact ⟨pattern, program, m, parsed, compiled, found, rfl, rfl, rfl,
    coherent_of_finds parsed compiled found⟩

end Pattern

end RegexEngine
