import Mathlib
import RegexEngine.Proofs.Code.Attempts
import RegexEngine.Proofs.Readings.Preference
import RegexEngine.Proofs.Search.FirstAnswer
import RegexEngine.Proofs.Text.Bytes

/-!
# Where a match starts

What a pattern prefers decides how far a match reaches, never whether there is one nor where it
starts (`Pattern.start_of_rearranged`). Rearranged patterns have the same outcomes from every
position, so their attempts succeed at the same positions; and a search stops at the first of these.
-/

namespace RegexEngine

namespace Program

variable {program other : Program} {limits limits' : Limits} {here : Cursor}

/-- A search that passes no limit finds nothing because there is nothing, or finds the first match
that there is. -/
theorem find?_eq_ok_cases (anchored : program.anchored = beginsAtStart program.code)
    (allowed : 0 < here.offset → 0 < limits.steps) {found : Option Match}
    (finds : program.find? limits here = .ok found) :
    found = none ∧ program.FindsNothing limits here ∨
      ∃ m, found = some m ∧
        program.FirstAnswer limits here m.whole.start (.ok (some m)) := by
  have cases_of := find?_eq_none_or_firstAnswer anchored allowed
  rw [finds] at cases_of
  rcases cases_of with ⟨ends, nothing⟩ | ⟨q, first⟩
  · cases ends
    exact .inl ⟨rfl, nothing⟩
  · cases found with
    | none => exact absurd rfl first.answers
    | some m =>
      obtain rfl := start_of_matchAt first.attempt
      exact .inr ⟨m, rfl, first⟩

/-- Says that two programs never differ on whether there is a match that starts at a position. -/
def StartsAlike (program other : Program) : Prop :=
  ∀ limits limits' q answer answer', program.matchAt limits q = .ok answer →
    other.matchAt limits' q = .ok answer' → answer.isSome = answer'.isSome

/-- Searches then find matches that start at the same position, or none. -/
theorem StartsAlike.start_eq (alike : program.StartsAlike other)
    (anchored : program.anchored = beginsAtStart program.code)
    (anchored' : other.anchored = beginsAtStart other.code) (begins : here.offset = 0)
    {found found' : Option Match} (finds : program.find? limits here = .ok found)
    (finds' : other.find? limits' here = .ok found') :
    found.map (·.whole.start) = found'.map (·.whole.start) := by
  have at_start {steps : Nat} : 0 < here.offset → 0 < steps := by omega
  rcases find?_eq_ok_cases anchored at_start finds with ⟨rfl, nothing⟩ | ⟨m, rfl, first⟩ <;>
    rcases find?_eq_ok_cases anchored' at_start finds' with ⟨rfl, nothing'⟩ | ⟨m', rfl, first'⟩
  · rfl
  · cases alike _ _ _ _ _ (nothing _ first'.reaches) first'.attempt
  · cases alike _ _ _ _ _ first.attempt (nothing' _ first.reaches)
  · -- where one of them finds its match earlier, the other one has found nothing
    rcases Nat.lt_trichotomy m.whole.start.offset m'.whole.start.offset with before | same | behind
    · cases alike _ _ _ _ _ first.attempt (first'.before _ first.reaches before)
    · exact congrArg some (first.reaches.eq_of_offset_eq first'.reaches same)
    · cases alike _ _ _ _ _ (first.before _ first'.reaches behind) first'.attempt

end Program

namespace Pattern

open Reading

variable {pattern other : Pattern} {ignoreCase : Bool} {program program' : Program}

/-- Rearranged patterns have a match at a position both or neither. -/
theorem isSome_firstMatch?_of_rearranged (rearranged : pattern.root.Rearranged other.root)
    (apart : pattern.root.references = [] ∨ pattern.root.testsAhead = false) (start : Cursor) :
    (pattern.firstMatch? ignoreCase start).isSome =
      (other.firstMatch? ignoreCase start).isSome := by
  have same : SameOutcomes (pattern.root.testsAhead = false) (pattern.root.results ignoreCase)
      (other.root.results ignoreCase) :=
    rearranged.sameOutcomes (Node.noTests_of_mem_references apart) fun tests ignored =>
      Bool.false_ne_true (ignored.symm.trans tests)
  have begins : Alike (pattern.root.testsAhead = false) (.initial start) (.initial start) :=
    .refl _
  have empty : pattern.root.results ignoreCase (.initial start) = [] ↔
      other.root.results ignoreCase (.initial start) = [] := by
    rw [← List.isEmpty_iff, ← List.isEmpty_iff]
    exact ⟨same.gained.isEmpty begins.symm, same.kept.isEmpty begins⟩
  unfold firstMatch?
  rw [Option.isSome_map, Option.isSome_map, Bool.eq_iff_iff, List.isSome_head?, List.isSome_head?]
  exact not_congr empty

theorem startsAlike_of_rearranged (proper : pattern.root.Proper)
    (rearranged : pattern.root.Rearranged other.root)
    (apart : pattern.root.references = [] ∨ pattern.root.testsAhead = false)
    (compiled : pattern.compile ignoreCase = .ok program)
    (compiled' : other.compile ignoreCase = .ok program') : program.StartsAlike program' := by
  intro limits limits' q answer answer' attempt attempt'
  obtain ⟨used, ends⟩ := exists_attemptEnds_of_proper proper compiled q
  obtain ⟨used', ends'⟩ := exists_attemptEnds_of_proper (rearranged.proper proper) compiled' q
  rw [((ends.matchAt_eq_ok_iff limits answer).1 attempt).2,
    ((ends'.matchAt_eq_ok_iff limits' answer').1 attempt').2]
  exact isSome_firstMatch?_of_rearranged rearranged apart q

/-- What a pattern matches depends on its preferences, but not whether it matches: in an attempt at
any position, and so in a search. A pattern with positive tests must not refer to groups. -/
theorem start_of_rearranged (proper : pattern.root.Proper)
    (rearranged : pattern.root.Rearranged other.root)
    (apart : pattern.root.references = [] ∨ pattern.root.testsAhead = false)
    (compiled : pattern.compile ignoreCase = .ok program)
    (compiled' : other.compile ignoreCase = .ok program') :
    program.StartsAlike program' ∧
      ∀ limits limits' text found found', program.findAt? limits text 0 = .ok found →
        program'.findAt? limits' text 0 = .ok found' →
        found.map (·.whole.start) = found'.map (·.whole.start) := by
  have alike := startsAlike_of_rearranged proper rearranged apart compiled compiled'
  refine ⟨alike, ?_⟩
  intro limits limits' text found found' finds finds'
  rw [Program.findAt?_zero] at finds finds'
  exact alike.start_eq (Program.anchored_of_compile compiled)
    (Program.anchored_of_compile compiled') rfl finds finds'

/-- A loop over two branches, with the other branch first and with few rounds preferred. -/
theorem start_of_rearranged_of_lazy_loop :
    ∃ pattern other program program',
      Pattern.parse "(?:a|(ab))*?\\1(?!c)" = .ok pattern ∧
      Pattern.parse "(?:(ab)|a)*\\1(?!c)" = .ok other ∧
      pattern.root.Proper ∧ pattern.root.Rearranged other.root ∧
      pattern.root.testsAhead = false ∧
      pattern.compile false = .ok program ∧ other.compile false = .ok program' ∧
      program.StartsAlike program' ∧
        ∀ limits limits' text found found', program.findAt? limits text 0 = .ok found →
          program'.findAt? limits' text 0 = .ok found' →
          found.map (·.whole.start) = found'.map (·.whole.start) := by
  obtain ⟨pattern, other, program, program', parsed, parsed', rearranged, apart, compiled,
      compiled'⟩ : ∃ pattern other program program',
      Pattern.parse "(?:a|(ab))*?\\1(?!c)" = .ok pattern ∧
      Pattern.parse "(?:(ab)|a)*\\1(?!c)" = .ok other ∧
      pattern.root.Rearranged other.root ∧ pattern.root.testsAhead = false ∧
      pattern.compile false = .ok program ∧ other.compile false = .ok program' := by
    refine ⟨_, _, _, _, by cbv, by cbv, ?_, rfl, by cbv, by cbv⟩
    have a : Node.Rearranged (.sequence [.char 'a']) _ := .sequence (.cons (.char _) .nil)
    have ab : Node.Rearranged (.sequence [.capture 1 (.sequence [.char 'a', .char 'b'])]) _ :=
      .sequence (.cons (.capture 1 (.sequence (.cons (.char _) (.cons (.char _) .nil)))) .nil)
    have c : Node.Rearranged (.sequence [.char 'c']) _ := .sequence (.cons (.char _) .nil)
    have round := Node.Rearranged.choice (.cons a (.cons ab .nil)) (.swap _ _ [])
    have behind := Node.RearrangedAll.cons (.backreference 1) (.cons (.look false c) .nil)
    exact .sequence (.cons (.repeated (.group round) rfl rfl) behind)
  have proper := proper_of_parse parsed
  have starts := start_of_rearranged proper rearranged (.inr apart) compiled compiled'
  exact ⟨pattern, other, program, program', parsed, parsed', proper, rearranged, apart, compiled,
    compiled', starts⟩

end Pattern

end RegexEngine
