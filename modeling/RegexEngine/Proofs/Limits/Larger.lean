import RegexEngine.Proofs.Code.Attempts
import RegexEngine.Regex

/-!
# Larger limits

Limits only ever withhold an answer. For one attempt this is said exactly: what it uses tells under
which limits it has an answer and which limit it passes otherwise (`Program.Metered`). A search is
made of attempts and goes on from what they answer, so it gives the same under larger limits, and so
does everything that is made of searches (`Regex.AnswersAs`).
-/

namespace RegexEngine

/-! ## One attempt -/

namespace Program

/-- Says what comes of the attempt at `start` under all limits: it has an answer if they cover what
it uses, always the same one, and else passes the limit that does not. If neither does, it passes
the depth limit exactly if that many instructions already lead above it. -/
structure Metered (program : Program) (start : Cursor) (used : Usage) (answer : Option Match) :
    Prop where
  usage : program.usageAt? used.steps start = some used
  ok_iff : ∀ limits other, program.matchAt limits start = .ok other ↔
    (used.steps ≤ limits.steps ∧ used.depth ≤ limits.depth) ∧ other = answer
  long : ∀ limits : Limits, limits.steps < used.steps → used.depth ≤ limits.depth →
    program.matchAt limits start = .error (.steps limits.steps)
  deep : ∀ limits : Limits, used.steps ≤ limits.steps → limits.depth < used.depth →
    program.matchAt limits start = .error (.depth limits.depth)
  both : ∀ limits : Limits, limits.steps < used.steps → limits.depth < used.depth →
    program.matchAt limits start =
      if limits.depth < program.peakAt limits.steps start then .error (.depth limits.depth)
      else .error (.steps limits.steps)

theorem AttemptEnds.metered {program : Program} {start : Cursor} {used : Usage}
    {answer : Option Match} (h : program.AttemptEnds start used answer) :
    program.Metered start used answer where
  usage := h.usageAt?_eq
  ok_iff := h.matchAt_eq_ok_iff
  long limits few enough := by
    have flat := h.peakAt_le limits.steps
    rw [h.matchAt_eq limits, if_neg (by omega), if_pos few]
  deep limits enough low := by
    rw [h.matchAt_eq limits, h.peakAt_eq enough, if_pos low]
  both limits few _ := by
    rw [h.matchAt_eq limits, if_pos few]

/-! ## Searches -/

variable {program : Program} {limits larger : Limits}

theorem leftmost_mono (le : limits ≤ larger) {offset : Nat} {rest : List Char}
    {answer : Option Match} (h : program.leftmost limits offset rest = .ok answer) :
    program.leftmost larger offset rest = .ok answer := by
  induction rest generalizing offset with
  | nil => exact matchAt_mono le h
  | cons c rest ih =>
    obtain ⟨attempt, here, h⟩ := bind_eq_ok_iff.1 h
    refine bind_eq_ok_iff.2 ⟨attempt, matchAt_mono le here, ?_⟩
    cases attempt with
    | some m => exact h
    | none =>
      dsimp only at h ⊢
      by_cases anchored : program.anchored = true
      · rwa [if_pos anchored] at h ⊢
      · rw [if_neg anchored] at h ⊢
        exact ih h

theorem find?_mono (le : limits ≤ larger) {here : Cursor} {answer : Option Match}
    (h : program.find? limits here = .ok answer) : program.find? larger here = .ok answer := by
  unfold find? at h ⊢
  by_cases behind : (program.anchored && 0 < here.offset) = true
  · rwa [if_pos behind] at h ⊢
  · rw [if_neg behind] at h ⊢
    exact leftmost_mono le h

theorem findAt?_mono (le : limits ≤ larger) {text : String} {n : Nat} {answer : Option Match}
    (h : program.findAt? limits text n = .ok answer) :
    program.findAt? larger text n = .ok answer := by
  unfold findAt? at h ⊢
  cases at_byte : Cursor.atByte? text n with
  | none => rwa [at_byte] at h
  | some here =>
    rw [at_byte] at h
    exact find?_mono le h

end Program

/-! ## All matches -/

namespace Matches

def withLimits (it : Matches) (limits : Limits) : Matches := { it with limits }

/-- The end of a search stays its end, and a match stays the next match. -/
theorem next?_mono {it : Matches} {larger : Limits} (le : it.limits ≤ larger) :
    (it.next? = none → (it.withLimits larger).next? = none) ∧
      ∀ m after, it.next? = some (.ok m, after) →
        (it.withLimits larger).next? = some (.ok m, after.withLimits larger) := by
  unfold next? withLimits
  dsimp only
  cases it.next with
  | none => exact ⟨fun _ => rfl, nofun⟩
  | some here =>
    dsimp only
    cases found : it.program.find? it.limits here with
    | error e => exact ⟨nofun, nofun⟩
    | ok answer =>
      rw [Program.find?_mono le found]
      cases answer with
      | none => exact ⟨fun _ => rfl, nofun⟩
      | some m =>
        refine ⟨nofun, ?_⟩
        intro m' after eq
        cases eq
        rfl

theorem limits_of_next? {it after : Matches} {item : Except LimitError Match}
    (h : it.next? = some (item, after)) : after.limits = it.limits := by
  unfold next? at h
  split at h
  · cases h
  · split at h
    · cases h
      rfl
    · cases h
      rfl
    · cases h

theorem toList_of_next?_eq_none {it : Matches} (h : it.next? = none) : it.toList = [] := by
  unfold toList
  split
  · rfl
  · rename_i found
    cases h.symm.trans found

theorem toList_of_next?_eq_some {it after : Matches} {item : Except LimitError Match}
    (h : it.next? = some (item, after)) : it.toList = item :: after.toList := by
  conv => lhs; unfold toList
  split
  · rename_i ended
    cases h.symm.trans ended
  · rename_i found
    cases h.symm.trans found
    rfl

theorem toList_mono {it : Matches} {larger : Limits} (le : it.limits ≤ larger) {ms : List Match}
    (h : it.toList = ms.map .ok) : (it.withLimits larger).toList = ms.map .ok := by
  -- each match is one call of `next?`, under either limits
  induction ms generalizing it with
  | nil =>
    cases next : it.next? with
    | none => exact toList_of_next?_eq_none ((next?_mono le).1 next)
    | some found =>
      rw [toList_of_next?_eq_some next] at h
      cases h
  | cons m ms ih =>
    cases next : it.next? with
    | none =>
      rw [toList_of_next?_eq_none next] at h
      cases h
    | some found =>
      obtain ⟨item, after⟩ := found
      rw [toList_of_next?_eq_some next, List.map_cons, List.cons.injEq] at h
      obtain ⟨rfl, others⟩ := h
      have le' : after.limits ≤ larger := by
        rw [limits_of_next? next]
        exact le
      rw [toList_of_next?_eq_some ((next?_mono le).2 m after next), ih le' others, List.map_cons]

theorem collect_eq_ok_iff {it : Matches} {ms : List Match} :
    it.collect = .ok ms ↔ it.toList = ms.map .ok := by
  unfold collect
  generalize it.toList = items
  induction items generalizing ms with
  | nil =>
    cases ms with
    | nil => exact ⟨fun _ => rfl, fun _ => rfl⟩
    | cons => exact ⟨nofun, nofun⟩
  | cons item items ih =>
    rw [List.mapM_cons, bind_eq_ok_iff]
    constructor
    · rintro ⟨m, rfl, h⟩
      obtain ⟨others, collected, h⟩ := bind_eq_ok_iff.1 h
      cases h
      exact congrArg (Except.ok m :: ·) (ih.1 collected)
    · intro h
      cases ms with
      | nil => cases h
      | cons m others =>
        rw [List.map_cons, List.cons.injEq] at h
        obtain ⟨rfl, rest⟩ := h
        exact ⟨m, rfl, bind_eq_ok_iff.2 ⟨others, ih.2 rest, rfl⟩⟩

theorem collect_mono {it : Matches} {larger : Limits} (le : it.limits ≤ larger) {ms : List Match}
    (h : it.collect = .ok ms) : (it.withLimits larger).collect = .ok ms :=
  collect_eq_ok_iff.2 (toList_mono le (collect_eq_ok_iff.1 h))

end Matches

/-! ## Regular expressions -/

namespace Regex

/-- The same pattern under other limits. -/
def withLimits (re : Regex) (limits : Limits) : Regex :=
  { re with options := { re.options with limits } }

/-- Says that everything one finds without passing a limit the other finds as well. -/
structure AnswersAs (re other : Regex) : Prop where
  findAt? : ∀ {text n answer}, re.findAt? text n = .ok answer → other.findAt? text n = .ok answer
  isMatch : ∀ {text answer}, re.isMatch text = .ok answer → other.isMatch text = .ok answer
  findAll : ∀ {text} {ms : List Match}, re.findAll text = ms.map .ok →
    other.findAll text = ms.map .ok
  replaceWith : ∀ {text substitute answer}, re.replaceWith text substitute = .ok answer →
    other.replaceWith text substitute = .ok answer
  replace : ∀ {text substitute answer}, re.replace text substitute = .ok answer →
    other.replace text substitute = .ok answer

theorem answersAs_of_le (re : Regex) {limits larger : Limits} (le : limits ≤ larger) :
    (re.withLimits limits).AnswersAs (re.withLimits larger) := by
  have replaceWith : ∀ {text substitute answer},
      (re.withLimits limits).replaceWith text substitute = .ok answer →
        (re.withLimits larger).replaceWith text substitute = .ok answer := by
    intro text substitute answer h
    obtain ⟨ms, collected, h⟩ := bind_eq_ok_iff.1 h
    exact bind_eq_ok_iff.2 ⟨ms, Matches.collect_mono le collected, h⟩
  refine ⟨Program.findAt?_mono le, ?_, Matches.toList_mono le, replaceWith, replaceWith⟩
  intro text answer h
  obtain ⟨found, searched, h⟩ := bind_eq_ok_iff.1 h
  exact bind_eq_ok_iff.2 ⟨found, Program.findAt?_mono le searched, h⟩

theorem exists_attemptEnds_of_compile {pattern : String} {options : Options} {re : Regex}
    (compiled : compile pattern options = .ok re) (start : Cursor) :
    ∃ used answer, re.program.AttemptEnds start used answer := by
  obtain ⟨pattern, parsed, written⟩ := exists_pattern_of_compile compiled
  obtain ⟨used, ends⟩ := Pattern.exists_attemptEnds parsed written start
  exact ⟨used, _, ends⟩

/-- Limits never change an answer: they withhold it where it takes more than they allow, and then
say so. Whatever has been found under some limits is found under all larger ones. -/
theorem limits_withhold_only {pattern : String} {options : Options} {re : Regex}
    (compiled : compile pattern options = .ok re) :
    (∀ start, ∃ used answer, re.program.Metered start used answer) ∧
      ∀ limits larger : Limits, limits ≤ larger →
        (re.withLimits limits).AnswersAs (re.withLimits larger) := by
  refine ⟨?_, fun limits larger => re.answersAs_of_le⟩
  intro start
  obtain ⟨used, answer, ends⟩ := exists_attemptEnds_of_compile compiled start
  exact ⟨used, answer, ends.metered⟩

/-- The second alternative is the right one in either place. One instruction less would be too few,
and one frame less as well. -/
theorem limits_withhold_only_of_alternatives :
    ∃ re m, compile "(?:(a|ab)(c|bcd)?)*d" {} = .ok re ∧
      re.program.Metered (.ofString "abcd") ⟨45, 5⟩ (some m) ∧
      m.whole = ⟨.ofString "abcd", ⟨4, []⟩⟩ ∧
      re.program.matchAt ⟨44, 5⟩ (.ofString "abcd") = .error (.steps 44) ∧
      re.program.matchAt ⟨45, 4⟩ (.ofString "abcd") = .error (.depth 4) ∧
      (∀ start, ∃ used answer, re.program.Metered start used answer) ∧
        ∀ limits larger : Limits, limits ≤ larger →
          (re.withLimits limits).AnswersAs (re.withLimits larger) := by
  obtain ⟨re, compiled, m, answered, whole, few, low⟩ :
      ∃ re, compile "(?:(a|ab)(c|bcd)?)*d" {} = .ok re ∧
        ∃ m, re.program.matchAt ⟨45, 5⟩ (.ofString "abcd") = .ok (some m) ∧
          m.whole = ⟨.ofString "abcd", ⟨4, []⟩⟩ ∧
          re.program.matchAt ⟨44, 5⟩ (.ofString "abcd") = .error (.steps 44) ∧
          re.program.matchAt ⟨45, 4⟩ (.ofString "abcd") = .error (.depth 4) :=
    ⟨_, by cbv, _, by cbv, rfl, by cbv, by cbv⟩
  obtain ⟨metered, larger⟩ := limits_withhold_only compiled
  obtain ⟨used, answer, meter⟩ := metered (.ofString "abcd")
  obtain ⟨⟨steps, depth⟩, rfl⟩ := (meter.ok_iff _ _).1 answered
  -- it would have an answer with less, were the attempt to use less
  have all_steps : ¬ (used.steps ≤ 44 ∧ used.depth ≤ 5) := by
    intro covered
    have answered := (meter.ok_iff ⟨44, 5⟩ _).2 ⟨covered, rfl⟩
    rw [few] at answered
    cases answered
  have all_frames : ¬ (used.steps ≤ 45 ∧ used.depth ≤ 4) := by
    intro covered
    have answered := (meter.ok_iff ⟨45, 4⟩ _).2 ⟨covered, rfl⟩
    rw [low] at answered
    cases answered
  obtain rfl : used = ⟨45, 5⟩ := by
    obtain ⟨s, d⟩ := used
    simp only [Usage.mk.injEq]
    dsimp only at *
    omega
  exact ⟨re, m, compiled, meter, whole, few, low, metered, larger⟩

end Regex

end RegexEngine
