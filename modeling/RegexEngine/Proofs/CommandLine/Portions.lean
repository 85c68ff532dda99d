import Mathlib
import RegexEngine.CommandLine

/-!
# Texts searched in portions

What a line gives does not depend on the lines before it. So a text may be cut where a line ends: if
no error ends the search of the first portion, the whole text gives what the two portions give one
after the other (`Request.joins_run`), and only the number by which an error names its line counts
on from the first portion.
-/

namespace RegexEngine.CommandLine

/-! ## Cutting a text into lines -/

/-- Says that bytes stop where a line ends. -/
def EndsLine (bytes : List UInt8) : Prop := bytes = [] ∨ bytes.getLast? = some 10

section

variable {current first : List UInt8}

theorem endsLine_of_cons {byte : UInt8} (h : (byte :: first).getLast? = some 10) :
    EndsLine first ∧ (byte ≠ 10 → first.getLast? = some 10) := by
  cases first with
  | nil => simp_all [EndsLine]
  | cons other first => simp_all [EndsLine]

/-- A line feed ends a line and keeps nothing of it for the next one. -/
theorem exists_linesFrom_feed (current : List UInt8) :
    ∃ line, ∀ bytes, linesFrom current (10 :: bytes) = line :: linesFrom [] bytes :=
  ⟨_, fun _ => rfl⟩

theorem linesFrom_cons {byte : UInt8} (inside : byte ≠ 10) (bytes : List UInt8) :
    linesFrom current (byte :: bytes) = linesFrom (byte :: current) bytes :=
  if_neg inside

theorem linesFrom_append (ends : first = [] ∧ current = [] ∨ first.getLast? = some 10)
    (second : List UInt8) :
    linesFrom current (first ++ second) = linesFrom current first ++ lines second := by
  induction first generalizing current with
  | nil =>
    obtain ⟨-, rfl⟩ := ends.resolve_right nofun
    rfl
  | cons byte first ih =>
    obtain ⟨between, inside⟩ := endsLine_of_cons (ends.resolve_left nofun)
    rw [List.cons_append]
    by_cases feed : byte = 10
    · obtain ⟨line, cut⟩ := exists_linesFrom_feed current
      rw [feed, cut, cut, ih (between.imp_left fun h => ⟨h, rfl⟩), List.cons_append]
    · rw [linesFrom_cons feed, linesFrom_cons feed, ih (.inr (inside feed))]

/-- The lines of a text are those of its portions, if the first portion stops where a line ends. -/
theorem lines_append (ends : EndsLine first) (second : List UInt8) :
    lines (first ++ second) = lines first ++ lines second :=
  linesFrom_append (ends.imp_left fun h => ⟨h, rfl⟩) second

theorem length_linesFrom (ends : first = [] ∧ current = [] ∨ first.getLast? = some 10) :
    (linesFrom current first).length = first.count 10 := by
  induction first generalizing current with
  | nil =>
    obtain ⟨-, rfl⟩ := ends.resolve_right nofun
    rfl
  | cons byte first ih =>
    obtain ⟨between, inside⟩ := endsLine_of_cons (ends.resolve_left nofun)
    by_cases feed : byte = 10
    · obtain ⟨line, cut⟩ := exists_linesFrom_feed current
      rw [feed, cut, List.length_cons, ih (between.imp_left fun h => ⟨h, rfl⟩),
        List.count_cons_self]
    · rw [linesFrom_cons feed, ih (.inr (inside feed)), List.count_cons_of_ne feed]

theorem length_lines (ends : EndsLine first) : (lines first).length = first.count 10 :=
  length_linesFrom (ends.imp_left fun h => ⟨h, rfl⟩)

end

/-! ## Reports put together -/

/-- What is said about a limit that has been passed in the line of that number. -/
def limitMessage (number : Nat) (e : LimitError) : String :=
  programName ++ ": " ++ ("line " ++ toString number ++ ": " ++ e.message) ++ "\n"

/-- Says that two messages are the same, but that a line named by its number is named by a number
greater by `k` in the second. -/
inductive Renumbered (k : Nat) : String → String → Prop where
  | line (number : Nat) (e : LimitError) :
    Renumbered k (limitMessage number e) (limitMessage (number + k) e)
  | other {message : String} (noLine : ∀ number e, message ≠ limitMessage number e) :
    Renumbered k message message

/-- Says that the report `whole` is what two reports come to if the search behind the second one
goes on where that behind the first one stopped, `k` lines later. -/
structure Report.Joins (k : Nat) (first second whole : Report) : Prop where
  stdout : whole.stdout = first.stdout ++ second.stdout
  exit : whole.exit =
    if second.exit = 2 then 2 else if first.exit = 0 ∨ second.exit = 0 then 0 else 1
  stderr : Renumbered k second.stderr whole.stderr

theorem ne_limitMessage_of_empty (number : Nat) (e : LimitError) : "" ≠ limitMessage number e := by
  intro same
  have chars := congrArg String.toList same
  simp [limitMessage, programName] at chars

theorem ne_limitMessage_of_stdin (printed : String) (number : Nat) (e : LimitError) :
    (abort printed "failed to read stdin: stream did not contain valid UTF-8").stderr ≠
      limitMessage number e := by
  intro same
  have chars := congrArg String.toList same
  simp [abort, limitMessage, programName] at chars

/-! ## Searching on -/

variable {re : Regex} {mode : Mode}

/-- A search that no error ends goes on with the lines behind, and keeps nothing but what it has
printed and whether a line has matched. -/
theorem searchLines_append {number : Nat} {matched : Bool} {printed : String}
    {first : List (List UInt8)}
    (h : (searchLines re mode number matched printed first).exit ≠ 2) :
    ∃ matched' printed',
      searchLines re mode number matched printed first =
        ⟨if matched' then 0 else 1, printed', ""⟩ ∧
      ∀ second, searchLines re mode number matched printed (first ++ second) =
        searchLines re mode (number + first.length) matched' printed' second := by
  induction first generalizing number matched printed with
  | nil => exact ⟨matched, printed, rfl, fun _ => rfl⟩
  | cons bytes first ih =>
    rw [searchLines] at h
    cases decoded : decode? bytes with
    | none =>
      rw [decoded] at h
      exact absurd rfl h
    | some line =>
      rw [decoded] at h
      dsimp only at h
      cases failure : (mode.answer re line).error with
      | some e =>
        rw [failure] at h
        exact absurd rfl h
      | none =>
        rw [failure] at h
        obtain ⟨matched', printed', eq, goesOn⟩ := ih h
        refine ⟨matched', printed', ?_, ?_⟩
        · rw [searchLines, decoded]
          dsimp only
          rw [failure]
          exact eq
        · intro second
          rw [List.cons_append, searchLines, decoded]
          dsimp only
          rw [failure]
          dsimp only
          rw [goesOn, List.length_cons, Nat.add_assoc, Nat.add_comm 1]

/-- What has been printed and matched before is added to what a search gives, and changes nothing
else about it. -/
theorem joins_searchLines (re : Regex) (mode : Mode) (k number : Nat) (before matched : Bool)
    (printedBefore printed : String) (lines : List (List UInt8)) :
    Report.Joins k ⟨if before then 0 else 1, printedBefore, ""⟩
      (searchLines re mode number matched printed lines)
      (searchLines re mode (number + k) (before || matched) (printedBefore ++ printed) lines) := by
  induction lines generalizing number matched printed with
  | nil =>
    refine ⟨rfl, ?_, .other ne_limitMessage_of_empty⟩
    cases before <;> cases matched <;> rfl
  | cons bytes lines ih =>
    rw [searchLines, searchLines]
    cases decode? bytes with
    | none => exact ⟨rfl, rfl, .other (ne_limitMessage_of_stdin printed)⟩
    | some line =>
      dsimp only
      cases (mode.answer re line).error with
      | some e => exact ⟨String.append_assoc, rfl, .line number e⟩
      | none =>
        dsimp only
        rw [Nat.add_right_comm, Bool.or_assoc, String.append_assoc]
        exact ih (number + 1) _ _

namespace Request

variable {request : Request} {first : List UInt8}

/-- A request that is carried out on one text without an error is one to search lines. -/
theorem exists_run_eq_searchLines (escapeOnly : request.escapeOnly = false)
    (checkOnly : request.checkOnly = false) (h : (request.run first).exit ≠ 2) :
    ∃ re, ∀ stdin, request.run stdin = searchLines re request.mode 1 false "" (lines stdin) := by
  unfold run at h ⊢
  by_cases conflict : (request.onlyMatching && request.replacement.isSome) = true
  · rw [if_pos conflict] at h
    exact absurd rfl h
  · simp only [conflict, escapeOnly, checkOnly, Bool.false_eq_true, if_false] at h ⊢
    unfold search at h ⊢
    cases compiled : Regex.compile request.pattern request.options with
    | error e =>
      rw [compiled] at h
      exact absurd rfl h
    | ok re => exact ⟨re, fun _ => rfl⟩

/-- A text may be searched in portions: behind one that stops where a line ends and is searched
without an error, the rest of the text gives what it would give by itself. -/
theorem joins_run (escapeOnly : request.escapeOnly = false)
    (checkOnly : request.checkOnly = false) (ends : EndsLine first)
    (h : (request.run first).exit ≠ 2) (second : List UInt8) :
    Report.Joins (first.count 10) (request.run first) (request.run second)
      (request.run (first ++ second)) := by
  obtain ⟨re, searches⟩ := exists_run_eq_searchLines escapeOnly checkOnly h
  rw [searches] at h
  obtain ⟨matched, printed, eq, goesOn⟩ := searchLines_append h
  rw [searches, searches, searches, lines_append ends, goesOn, eq, length_lines ends]
  have joins := joins_searchLines re request.mode (first.count 10) 1 matched false printed ""
    (lines second)
  rwa [Bool.or_false, String.append_empty] at joins

/-- A limit passed in the second line of the second portion, behind a match of the same line. -/
theorem joins_run_of_limit :
    let request : Request :=
      { pattern := "a+", options := { limits := { steps := 9 } }, onlyMatching := true }
    let first := "baa\r\n\n".toUTF8.toList
    let second := "b\na aaaaaa\na".toUTF8.toList
    EndsLine first ∧ request.run first = ⟨0, "aa\n", ""⟩ ∧
      request.run second = ⟨2, "a\n", "regvm: line 2: step limit of 9 exceeded\n"⟩ ∧
      Report.Joins 2 (request.run first) (request.run second) (request.run (first ++ second)) := by
  intro request first second
  have ends : EndsLine first := .inr (by decide +kernel)
  have searched : request.run first = ⟨0, "aa\n", ""⟩ := by decide +kernel
  have feeds : first.count 10 = 2 := by decide +kernel
  refine ⟨ends, searched, by decide +kernel, ?_⟩
  rw [← feeds]
  exact joins_run rfl rfl ends (by rw [searched]; exact nofun) second

end Request

end RegexEngine.CommandLine
