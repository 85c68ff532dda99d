import Mathlib
import RegexEngine.CommandLine
import RegexEngine.Proofs.Search.Rebuilding

/-!
# Three ways to search a line

A line may be asked whether it matches, for its matches one after the other, or to be rebuilt with
its matches replaced. The three never disagree: the first item of the list of matches decides
whether there is an error or a match (`Regex.isMatch_eq_head`), and each of the three counts a line
as matched exactly if that list holds a match (`Mode.matched_iff`). Where matches are replaced, this
is told by a flag that is set whenever the text is asked for (`replaceLine_eq`). So the program's
result does not depend on the mode either, as long as no error ends it (`Request.settles_of_run`).
-/

namespace RegexEngine

/-! ## The first item decides -/

namespace Regex

variable (re : Regex) (text : String)

/-- Says that a search for all matches in a text yields one. -/
def Hits : Prop := ∃ m, .ok m ∈ re.findAll text

theorem find?_eq_find?_ofString :
    re.find? text = re.program.find? re.options.limits (.ofString text) :=
  Program.findAt?_zero text

/-- Whether a text matches is told by the first item of a search for all matches. -/
theorem isMatch_eq_head :
    re.isMatch text =
      match (re.findAll text).head? with
      | some (.error e) => .error e
      | some (.ok _) => .ok true
      | none => .ok false := by
  unfold isMatch findAll allMatches Matches.ofString
  rw [find?_eq_find?_ofString]
  cases found : re.program.find? re.options.limits (.ofString text) with
  | error e =>
    rw [Matches.toList_of_next?_eq_some (Matches.next?_of_error found)]
    rfl
  | ok answer =>
    cases answer with
    | none =>
      rw [Matches.toList_of_next?_eq_none (Matches.next?_of_none found)]
      rfl
    | some m =>
      rw [Matches.toList_of_next?_eq_some (Matches.next?_of_match found)]
      rfl

variable {re text}

theorem isMatch_eq_error_iff {e : LimitError} :
    re.isMatch text = .error e ↔ (re.findAll text).head? = some (.error e) := by
  rw [isMatch_eq_head]
  cases (re.findAll text).head? with
  | none => exact ⟨nofun, nofun⟩
  | some item => cases item <;> simp

theorem hits_iff_of_isMatch {matched : Bool} (h : re.isMatch text = .ok matched) :
    matched = true ↔ re.Hits text := by
  rw [isMatch_eq_head] at h
  unfold Hits
  cases items : re.findAll text with
  | nil =>
    rw [items] at h
    cases h
    simp
  | cons item others =>
    rw [items] at h
    cases item with
    | error e => cases h
    | ok m =>
      cases h
      simp

/-- A text that could be rebuilt has been searched to its end. -/
theorem exists_findAll_of_replace {substitute written : String}
    (h : re.replace text substitute = .ok written) :
    ∃ ms : List Match, re.findAll text = ms.map .ok := by
  obtain ⟨ms, failure, answers⟩ := (re.allMatches text).exists_toList_eq
  cases failure with
  | none => exact ⟨ms, answers.trans (List.append_nil _)⟩
  | some e =>
    rw [(refuses_of_findAll answers).replace] at h
    cases h

theorem hits_iff_of_replace {substitute written : String}
    (h : re.replace text substitute = .ok written) :
    (!(re.findAll text).isEmpty) = true ↔ re.Hits text := by
  obtain ⟨ms, answers⟩ := exists_findAll_of_replace h
  unfold Hits
  rw [answers]
  cases ms <;> simp

/-- An error that comes first is the only item, and leaves nothing to be rebuilt. -/
theorem replace_of_head_eq_error {e : LimitError}
    (h : (re.findAll text).head? = some (.error e)) (substitute : String) :
    re.replace text substitute = .error e := by
  obtain ⟨ms, failure, answers⟩ := (re.allMatches text).exists_toList_eq
  change re.findAll text = _ at answers
  rw [answers] at h
  cases ms with
  | cons => cases h
  | nil =>
    cases failure with
    | none => cases h
    | some e' =>
      cases h
      exact (refuses_of_findAll answers).replace substitute

end Regex

namespace CommandLine

variable {re : Regex} {line : String}

/-! ## Lines -/

theorem Answer.matched_foldl (items : List (Except LimitError Match)) (answer : Answer) :
    (items.foldl addMatch answer).matched = true ↔ answer.matched = true ∨ ∃ m, .ok m ∈ items := by
  induction items generalizing answer with
  | nil => simp
  | cons item items ih =>
    rw [List.foldl_cons, ih]
    cases item <;> simp [addMatch]

/-- Replacing in a line gives what replacing gives, and the flag that is set whenever the text is
asked for tells whether the line has a match. -/
theorem replaceLine_eq (re : Regex) (line text : String) :
    replaceLine re line text =
      (re.replace line text).map fun replaced => (replaced, !(re.findAll line).isEmpty) := by
  obtain ⟨ms, failure, answers⟩ := (re.allMatches line).exists_toList_eq
  change re.findAll line = _ at answers
  have noted := Regex.run_replaceWithM_noting answers (fun _ => text) (fun _ _ => true) false
  have flag : replaceLine re line text = (re.replace line text).map fun replaced =>
      (replaced, ms.foldl (fun _ _ => true) false) :=
    congrArg (fun result : _ × Bool => result.1.map fun replaced => (replaced, result.2)) noted
  rw [flag]
  cases failure with
  | none =>
    rw [answers]
    cases ms with
    | nil => rfl
    | cons m ms =>
      -- the flag stays set, however many matches follow the first
      have stays : ms.foldl (fun _ _ => true) true = true := List.foldl_fixed' (fun _ => rfl) ms
      rw [List.foldl_cons, stays]
      rfl
  | some e =>
    rw [(Regex.refuses_of_findAll answers).replace]
    rfl

/-- Each mode counts a line as matched exactly if a search for all matches yields one. -/
theorem Mode.matched_iff {mode : Mode} (h : (mode.answer re line).error = none) :
    (mode.answer re line).matched = true ↔ re.Hits line := by
  cases mode with
  | matching =>
    unfold answer at h ⊢
    cases found : re.isMatch line with
    | error e =>
      rw [found] at h
      cases h
    | ok matched => exact Regex.hits_iff_of_isMatch found
  | onlyMatches =>
    refine (Answer.matched_foldl _ _).trans ?_
    simp [Regex.Hits]
  | replacing text =>
    rw [answer, replaceLine_eq] at h ⊢
    cases replaced : re.replace line text with
    | error e =>
      rw [replaced] at h
      cases h
    | ok written => exact Regex.hits_iff_of_replace replaced

theorem Mode.answer_replacing {text written : String} (h : re.replace line text = .ok written) :
    ∃ hit, (Mode.replacing text).answer re line = ⟨written ++ "\n", hit, none⟩ ∧
      (hit = true ↔ re.Hits line) ∧ (hit = false → written = line) := by
  refine ⟨!(re.findAll line).isEmpty, ?_, Regex.hits_iff_of_replace h, ?_⟩
  · rw [answer, replaceLine_eq, h]
    rfl
  · intro none_hit
    have nothing : re.findAll line = ([] : List Match).map .ok := by
      simpa using none_hit
    have rebuilt := Regex.rebuilds_gaps nothing
    rw [rebuilt.replace] at h
    exact (Except.ok.inj h).symm.trans rebuilt.whole

/-- Says that the ways to search a line agree on what goes wrong and on what matches. -/
structure ModesAgree (re : Regex) (line : String) : Prop where
  fails_iff : ∀ e, re.isMatch line = .error e ↔ (re.findAll line).head? = some (.error e)
  fails_replacing : ∀ e, re.isMatch line = .error e → ∀ text,
    re.replace line text = .error e ∧ (Mode.replacing text).answer re line = .failed e
  matches_iff : ∀ matched, re.isMatch line = .ok matched → (matched = true ↔ re.Hits line)
  replaces : ∀ text written, re.replace line text = .ok written →
    ∃ hit, (Mode.replacing text).answer re line = ⟨written ++ "\n", hit, none⟩ ∧
      (hit = true ↔ re.Hits line) ∧ (hit = false → written = line)

theorem modesAgree (re : Regex) (line : String) : ModesAgree re line where
  fails_iff _ := Regex.isMatch_eq_error_iff
  fails_replacing e failed text := by
    have replaced := Regex.replace_of_head_eq_error (Regex.isMatch_eq_error_iff.1 failed) text
    refine ⟨replaced, ?_⟩
    rw [Mode.answer, replaceLine_eq, replaced]
    rfl
  matches_iff _ := Regex.hits_iff_of_isMatch
  replaces _ _ := Mode.answer_replacing

/-! ## Texts -/

/-- Says that a match is found in some line. -/
def SomeLineHits (re : Regex) (lines : List (List UInt8)) : Prop :=
  ∃ bytes ∈ lines, ∃ line, decode? bytes = some line ∧ re.Hits line

theorem someLineHits_cons {bytes : List UInt8} {others : List (List UInt8)}
    (h : decode? bytes = some line) :
    SomeLineHits re (bytes :: others) ↔ re.Hits line ∨ SomeLineHits re others := by
  unfold SomeLineHits
  simp [h]

/-- Says what the result of a search is when some line before has matched already, or not. -/
def Settles (re : Regex) (matched : Bool) (lines : List (List UInt8)) (exit : Nat) : Prop :=
  exit = 0 ∧ (matched = true ∨ SomeLineHits re lines) ∨
    exit = 1 ∧ ¬ (matched = true ∨ SomeLineHits re lines)

theorem Settles.unique {matched : Bool} {lines : List (List UInt8)} {exit exit' : Nat}
    (h : Settles re matched lines exit) (h' : Settles re matched lines exit') : exit = exit' := by
  rcases h with ⟨rfl, hits⟩ | ⟨rfl, misses⟩ <;> rcases h' with ⟨rfl, hits'⟩ | ⟨rfl, misses'⟩
  · rfl
  · exact absurd hits misses'
  · exact absurd hits' misses
  · rfl

/-- A search that no error ends has gone through all lines. -/
theorem settles_of_searchLines {mode : Mode} {number : Nat} {matched : Bool} {printed : String}
    {lines : List (List UInt8)}
    (h : (searchLines re mode number matched printed lines).exit ≠ 2) :
    Settles re matched lines (searchLines re mode number matched printed lines).exit := by
  induction lines generalizing number matched printed with
  | nil =>
    have none_hits : ¬ SomeLineHits re [] := by
      rintro ⟨bytes, mem, -⟩
      cases mem
    unfold searchLines Settles
    cases matched <;> simp [none_hits]
  | cons bytes others ih =>
    unfold searchLines at h ⊢
    cases decoded : decode? bytes with
    | none =>
      rw [decoded] at h
      exact absurd rfl h
    | some line =>
      rw [decoded] at h
      dsimp only at h ⊢
      cases failure : (mode.answer re line).error with
      | some e =>
        rw [failure] at h
        exact absurd rfl h
      | none =>
        rw [failure] at h
        have rest := ih h
        unfold Settles at rest ⊢
        rwa [Bool.or_eq_true, Mode.matched_iff failure, or_assoc, ← someLineHits_cons decoded]
          at rest

namespace Request

variable {request : Request} {stdin : List UInt8}

theorem run_eq_search (escapeOnly : request.escapeOnly = false)
    (checkOnly : request.checkOnly = false) (h : (request.run stdin).exit ≠ 2) :
    request.run stdin = request.search stdin := by
  unfold run at h ⊢
  split
  · rename_i conflict
    rw [if_pos conflict] at h
    exact absurd rfl h
  · simp [escapeOnly, checkOnly]

theorem settles_of_run (escapeOnly : request.escapeOnly = false)
    (checkOnly : request.checkOnly = false) (h : (request.run stdin).exit ≠ 2) :
    ∃ re, Regex.compile request.pattern request.options = .ok re ∧
      Settles re false (lines stdin) (request.run stdin).exit := by
  have searches := run_eq_search escapeOnly checkOnly h
  rw [searches] at h ⊢
  unfold search at h ⊢
  cases compiled : Regex.compile request.pattern request.options with
  | error e =>
    rw [compiled] at h
    exact absurd rfl h
  | ok re =>
    rw [compiled] at h
    exact ⟨re, rfl, settles_of_searchLines h⟩

/-- The request to search in a mode and to do nothing else. -/
def searching (pattern : String) (options : Options) : Mode → Request
  | .matching => { pattern, options }
  | .onlyMatches => { pattern, options, onlyMatching := true }
  | .replacing text => { pattern, options, replacement := some text }

theorem settles_of_searching {pattern : String} {options : Options} {mode : Mode}
    (h : ((searching pattern options mode).run stdin).exit ≠ 2) :
    ∃ re, Regex.compile pattern options = .ok re ∧
      Settles re false (lines stdin) ((searching pattern options mode).run stdin).exit := by
  cases mode <;> exact settles_of_run rfl rfl h

/-- The ways to search a line agree on every line, and so do the results of the program: whichever
way is asked for, the result is 0 if some line has a match, be it an empty one, and 1 if none
has. -/
theorem modes_agree :
    (∀ re line, ModesAgree re line) ∧
      ∀ pattern options text stdin,
        ((searching pattern options .matching).run stdin).exit ≠ 2 →
        ((searching pattern options .onlyMatches).run stdin).exit ≠ 2 →
        ((searching pattern options (.replacing text)).run stdin).exit ≠ 2 →
        ∃ re exit, Regex.compile pattern options = .ok re ∧
          ((searching pattern options .matching).run stdin).exit = exit ∧
          ((searching pattern options .onlyMatches).run stdin).exit = exit ∧
          ((searching pattern options (.replacing text)).run stdin).exit = exit ∧
          (exit = 0 ∧ SomeLineHits re (lines stdin) ∨
            exit = 1 ∧ ¬ SomeLineHits re (lines stdin)) := by
  refine ⟨modesAgree, ?_⟩
  intro pattern options text stdin plain only replaced
  obtain ⟨re, compiled, plain⟩ := settles_of_searching plain
  obtain ⟨re', compiled', only⟩ := settles_of_searching only
  obtain ⟨re'', compiled'', replaced⟩ := settles_of_searching replaced
  cases compiled.symm.trans compiled'
  cases compiled.symm.trans compiled''
  refine ⟨re, _, compiled, rfl, (plain.unique only).symm, (plain.unique replaced).symm, ?_⟩
  simpa [Settles] using plain

/-- Empty matches count although none of them is printed. -/
theorem modes_agree_of_empty_matches :
    (searching "x*" {} .onlyMatches).run "ab".toUTF8.toList = ⟨0, "", ""⟩ ∧
      ∃ re exit, Regex.compile "x*" {} = .ok re ∧
        ((searching "x*" {} .matching).run "ab".toUTF8.toList).exit = exit ∧
        ((searching "x*" {} .onlyMatches).run "ab".toUTF8.toList).exit = exit ∧
        ((searching "x*" {} (.replacing "-")).run "ab".toUTF8.toList).exit = exit ∧
        (exit = 0 ∧ SomeLineHits re (lines "ab".toUTF8.toList) ∨
          exit = 1 ∧ ¬ SomeLineHits re (lines "ab".toUTF8.toList)) := by
  have plain : ((searching "x*" {} .matching).run "ab".toUTF8.toList).exit ≠ 2 := by decide +kernel
  have only : (searching "x*" {} .onlyMatches).run "ab".toUTF8.toList = ⟨0, "", ""⟩ := by
    decide +kernel
  have replaced : ((searching "x*" {} (.replacing "-")).run "ab".toUTF8.toList).exit ≠ 2 := by
    decide +kernel
  refine ⟨only, modes_agree.2 "x*" {} "-" _ plain ?_ replaced⟩
  rw [only]
  exact nofun

end Request

end CommandLine

end RegexEngine
