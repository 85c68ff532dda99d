import Mathlib
import RegexEngine.Proofs.Search.Preference
import RegexEngine.Regex

/-!
# Ignoring case adds matches

A pattern that negates nothing matches wherever it matches with regard to case, when case is ignored
(`Regex.matches_of_strict`). Every character that a part accepts is accepted still, so every outcome
of a node remains one (`Node.includes_results`), though it may no longer be the preferred one.

Negated classes and negative tests turn the relation round. A positive test keeps what its first
outcome has noted, which may be another one now; so a pattern with positive tests must not refer to
groups, as for `Node.Rearranged.sameOutcomes`.
-/

namespace RegexEngine

/-- What a class that is not negated accepts, it accepts when case is ignored. -/
theorem CharClass.accepts_of_strict {cls : CharClass} (plain : cls.negated = false) {c : Char}
    (h : cls.accepts false c = true) : cls.accepts true c = true := by
  unfold accepts covers at h ⊢
  rw [plain, Bool.bne_false] at h ⊢
  rw [Bool.false_and, Bool.or_false] at h
  rw [h, Bool.true_or]

namespace Node

mutual

/-- Whether a node holds a negated class or a negative test. -/
def negates : Node → Bool
  | oneOf cls => cls.negated
  | sequence parts => anyNegates parts
  | choice branches => anyNegates branches
  | repeated body _ | group body | capture _ body => negates body
  | look positive body => !positive || negates body
  | char _ | any | backreference _ | atStart | atEnd => false

def anyNegates : List Node → Bool
  | [] => false
  | node :: nodes => negates node || anyNegates nodes

end

open Reading

variable {matter : Prop}

mutual

/-- Every outcome with regard to case is an outcome without it. If the node refers to groups, what
groups hold has to matter, and then it must hold no positive test. -/
theorem includes_results (node : Node) (affirms : node.negates = false)
    (references : ∀ i ∈ node.references, matter) (ahead : node.testsAhead = true → ¬ matter) :
    Includes matter (fun r => node.results false r) fun r => node.results true r := by
  match node with
  | char c =>
    simp only [results]
    apply includes_readChar
    intro d same
    rw [Bool.false_and, Bool.or_false] at same
    rw [same, Bool.true_or]
  | any =>
    simp only [results]
    exact includes_readChar fun _ accepted => accepted
  | oneOf cls =>
    simp only [results]
    exact includes_readChar fun _ => CharClass.accepts_of_strict affirms
  | atStart =>
    simp only [results]
    exact includes_require fun r r' alike begins => by rwa [alike.here]
  | atEnd =>
    simp only [results]
    exact includes_require fun r r' alike ends => by rwa [alike.here]
  | backreference i =>
    simp only [results]
    exact includes_copy (references i (List.mem_singleton_self i))
      (fun regards_case => absurd regards_case Bool.false_ne_true) i
  | sequence parts =>
    simp only [results]
    exact (includes_resultsOfAll parts affirms references ahead).1
  | choice branches =>
    simp only [results]
    exact (includes_resultsOfAll branches affirms references ahead).2
  | repeated body q =>
    simp only [results]
    exact (includes_results body affirms references ahead).rounds rfl rfl
  | group body =>
    simp only [results]
    exact includes_results body affirms references ahead
  | capture i body =>
    simp only [results]
    exact (includes_results body affirms references ahead).capture i
  | look true body =>
    simp only [results]
    exact (includes_results body affirms references fun _ => ahead rfl).ahead (ahead rfl)
  | look false body => cases affirms

theorem includes_resultsOfAll (nodes : List Node) (affirms : anyNegates nodes = false)
    (references : ∀ i ∈ referencesOfAll nodes, matter)
    (ahead : anyTestsAhead nodes = true → ¬ matter) :
    Includes matter (fun r => resultsInTurn false nodes r)
        (fun r => resultsInTurn true nodes r) ∧
      Includes matter (fun r => resultsOfEach false nodes r) fun r =>
        resultsOfEach true nodes r := by
  match nodes with
  | [] =>
    simp only [resultsInTurn, resultsOfEach]
    exact ⟨includes_stay, includes_nothing⟩
  | node :: nodes =>
    rw [anyNegates, Bool.or_eq_false_iff] at affirms
    rw [referencesOfAll, List.forall_mem_append] at references
    rw [anyTestsAhead, Bool.or_eq_true, or_imp] at ahead
    have here := includes_results node affirms.1 references.1 ahead.1
    obtain ⟨inTurn, ofEach⟩ := includes_resultsOfAll nodes affirms.2 references.2 ahead.2
    simp only [resultsInTurn, resultsOfEach]
    exact ⟨here.flatMap inTurn, here.append ofEach⟩

end

end Node

namespace Program

/-- Says that one program has a match wherever another one has. -/
def CoversStarts (wider narrower : Program) : Prop :=
  ∀ limits limits' start m answer, narrower.matchAt limits start = .ok (some m) →
    wider.matchAt limits' start = .ok answer → answer.isSome = true

/-- Where a search with the wider program finds nothing, one with the narrower finds nothing. -/
theorem CoversStarts.eq_none {wider narrower : Program} (covers : wider.CoversStarts narrower)
    (anchored : wider.anchored = beginsAtStart wider.code)
    (anchored' : narrower.anchored = beginsAtStart narrower.code) {limits limits' : Limits}
    {here : Cursor} (begins : here.offset = 0) (nothing : wider.find? limits here = .ok none)
    {found : Option Match} (finds : narrower.find? limits' here = .ok found) : found = none := by
  have at_start {steps : Nat} : 0 < here.offset → 0 < steps := by omega
  rcases find?_eq_ok_cases anchored' at_start finds with ⟨rfl, -⟩ | ⟨m, rfl, first⟩
  · rfl
  · rcases find?_eq_ok_cases anchored at_start nothing with ⟨-, nowhere⟩ | ⟨m', found, -⟩
    · cases covers _ _ _ _ _ first.attempt (nowhere _ first.reaches)
    · cases found

end Program

namespace Pattern

variable {pattern : Pattern} {strict loose : Program}

/-- Compiled to ignore case, a pattern that negates nothing has a match wherever it has one without
that. -/
theorem coversStarts_of_ignoreCase (proper : pattern.root.Proper)
    (affirms : pattern.root.negates = false)
    (apart : pattern.root.references = [] ∨ pattern.root.testsAhead = false)
    (compiled : pattern.compile false = .ok strict)
    (compiled' : pattern.compile true = .ok loose) : loose.CoversStarts strict := by
  intro limits limits' start m answer attempt attempt'
  have found := answer_eq_firstMatch?_of_proper proper compiled attempt
  have found' := answer_eq_firstMatch?_of_proper proper compiled' attempt'
  have includes : Reading.Includes (pattern.root.testsAhead = false)
      (fun r => pattern.root.results false r) fun r => pattern.root.results true r :=
    pattern.root.includes_results affirms (Node.noTests_of_mem_references apart)
      fun tests ignored => Bool.false_ne_true (ignored.symm.trans tests)
  unfold firstMatch? at found found'
  cases results : pattern.root.results true (.initial start) with
  | nil =>
    have empty := includes.isEmpty (.refl (.initial start)) (List.isEmpty_iff.2 results)
    rw [List.isEmpty_iff.1 empty] at found
    cases found
  | cons r others => rw [found', results, List.head?_cons, Option.map_some, Option.isSome_some]

end Pattern

namespace Regex

/-- The program of a compiled regular expression is that of its pattern. -/
theorem compile_of_parse {source : String} {options : Options} {pattern : Pattern} {re : Regex}
    (parsed : Pattern.parse source = .ok pattern) (compiled : compile source options = .ok re) :
    pattern.compile options.ignoreCase = .ok re.program := by
  obtain ⟨pattern', parsed', written⟩ := exists_pattern_of_compile compiled
  obtain rfl := Except.ok.inj (parsed.symm.trans parsed')
  exact written

theorem exists_find?_of_isMatch {re : Regex} {text : String} {matched : Bool}
    (h : re.isMatch text = .ok matched) :
    ∃ found, re.program.find? re.options.limits (.ofString text) = .ok found ∧
      found.isSome = matched := by
  obtain ⟨found, finds, h⟩ := bind_eq_ok_iff.1 h
  cases h
  refine ⟨found, ?_, rfl⟩
  rw [← Program.findAt?_zero]
  exact finds

/-- Ignoring case takes no match away from a pattern that negates nothing: where an attempt with
regard to case succeeds, one without succeeds; and where a search that ignores case finds no match,
one that does not finds none. A pattern with positive tests must not refer to groups. -/
theorem matches_of_strict {source : String} {limits limits' : Limits} {pattern : Pattern}
    {strict loose : Regex} (parsed : Pattern.parse source = .ok pattern)
    (affirms : pattern.root.negates = false)
    (apart : pattern.root.references = [] ∨ pattern.root.testsAhead = false)
    (compiled : compile source ⟨false, limits⟩ = .ok strict)
    (compiled' : compile source ⟨true, limits'⟩ = .ok loose) :
    loose.program.CoversStarts strict.program ∧
      ∀ text matched, loose.isMatch text = .ok false → strict.isMatch text = .ok matched →
        matched = false := by
  have compiles := compile_of_parse parsed compiled
  have compiles' := compile_of_parse parsed compiled'
  have covers := Pattern.coversStarts_of_ignoreCase (Pattern.proper_of_parse parsed) affirms apart
    compiles compiles'
  refine ⟨covers, ?_⟩
  intro text matched nothing matches_strictly
  obtain ⟨found, finds, rfl⟩ := exists_find?_of_isMatch matches_strictly
  obtain ⟨found', finds', none_found⟩ := exists_find?_of_isMatch nothing
  rw [Option.isSome_eq_false_iff, Option.isNone_iff_eq_none] at none_found
  subst none_found
  rw [covers.eq_none (Program.anchored_of_compile compiles')
    (Program.anchored_of_compile compiles) rfl finds' finds, Option.isSome_none]

/-- A loop over a backreference to a group that holds a loop. Ignoring case, the match starts sooner
and its group holds more. -/
theorem matches_of_strict_of_backreference :
    ∃ pattern strict loose, Pattern.parse "(k\\w*?)(?:\\1|ß)+K$" = .ok pattern ∧
      pattern.root.negates = false ∧ pattern.root.testsAhead = false ∧
      compile "(k\\w*?)(?:\\1|ß)+K$" ⟨false, {}⟩ = .ok strict ∧
      compile "(k\\w*?)(?:\\1|ß)+K$" ⟨true, {}⟩ = .ok loose ∧
      strict.isMatch "KkbkbßK" = .ok true ∧ loose.isMatch "KkbkbßK" = .ok true ∧
      loose.program.CoversStarts strict.program ∧
        ∀ text matched, loose.isMatch text = .ok false → strict.isMatch text = .ok matched →
          matched = false := by
  obtain ⟨pattern, parsed, affirms, apart⟩ : ∃ pattern,
      Pattern.parse "(k\\w*?)(?:\\1|ß)+K$" = .ok pattern ∧ pattern.root.negates = false ∧
        pattern.root.testsAhead = false := ⟨_, by cbv, rfl, rfl⟩
  obtain ⟨strict, compiled, found⟩ : ∃ strict,
      compile "(k\\w*?)(?:\\1|ß)+K$" ⟨false, {}⟩ = .ok strict ∧
        strict.isMatch "KkbkbßK" = .ok true := ⟨_, by cbv, by cbv⟩
  obtain ⟨loose, compiled', found'⟩ : ∃ loose,
      compile "(k\\w*?)(?:\\1|ß)+K$" ⟨true, {}⟩ = .ok loose ∧
        loose.isMatch "KkbkbßK" = .ok true := ⟨_, by cbv, by cbv⟩
  have wider := matches_of_strict parsed affirms (.inr apart) compiled compiled'
  exact ⟨pattern, strict, loose, parsed, affirms, apart, compiled, compiled', found, found', wider⟩

end Regex

end RegexEngine
