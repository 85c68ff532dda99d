import Mathlib
import RegexEngine.Proofs.Grammar.Anchors
import RegexEngine.Proofs.Search.FirstAnswer
import RegexEngine.Proofs.Suffixes.Shifted
import RegexEngine.Proofs.Text.Bytes

/-!
# Searching the end of a text

To search the end of a text it need not be copied: a search that begins inside of the text finds
there what a search of the end by itself finds, at shifted offsets (`Pattern.search_suffix`).
-/

namespace RegexEngine

theorem Cursor.reaches_shift {text : String} {here : Cursor}
    (h : (Cursor.ofString text).Reaches here) (before : String) :
    (Cursor.ofString (before ++ text)).Reaches (here.shift before.utf8ByteSize) := by
  obtain ⟨between, rest, offset⟩ := h
  refine ⟨before.toList ++ between, ?_, ?_⟩
  · rw [List.append_assoc, Cursor.rest_shift, ← rest]
    exact String.toList_append
  · rw [byteLength_append, byteLength_toList, Cursor.offset_shift, offset]
    simp only [ofString]
    omega

namespace Program

variable {program : Program} {limits : Limits} {n : Nat}

/-- A search is an attempt at each position, so it is shifted with them. -/
theorem leftmost_shift
    (attempts : ∀ here, program.matchAt limits (here.shift n) =
      (program.matchAt limits here).map (Option.map (·.shift n)))
    (offset : Nat) (rest : List Char) :
    program.leftmost limits (offset + n) rest =
      (program.leftmost limits offset rest).map (Option.map (·.shift n)) := by
  induction rest generalizing offset with
  | nil => exact attempts ⟨offset, []⟩
  | cons c rest ih =>
    have first := attempts ⟨offset, c :: rest⟩
    rw [Cursor.shift] at first
    rw [leftmost, leftmost, first, Nat.add_right_comm, ih]
    cases program.matchAt limits ⟨offset, c :: rest⟩ with
    | error e => rfl
    | ok answer =>
      cases answer with
      | some m => rfl
      | none => cases program.anchored <;> rfl

theorem find?_shift (free : program.anchored = false)
    (attempts : ∀ here, program.matchAt limits (here.shift n) =
      (program.matchAt limits here).map (Option.map (·.shift n))) (here : Cursor) :
    program.find? limits (here.shift n) =
      (program.find? limits here).map (Option.map (·.shift n)) := by
  have searches (here : Cursor) :
      program.find? limits here = program.leftmost limits here.offset here.rest := by
    unfold find?
    rw [free, Bool.false_and, if_neg Bool.false_ne_true]
  rw [searches, searches]
  exact leftmost_shift attempts here.offset here.rest

end Program

namespace Pattern

variable {pattern : Pattern} {ignoreCase : Bool} {program : Program}

/-- Searching inside of a text is searching its end: behind `before` each attempt answers as it does
on `text` alone, shifted, if it does not begin at the start of `text` or the program never asks for
the start; and a search does so too if the program never asks, as when the pattern has no `^`. -/
theorem search_suffix (compiled : pattern.compile ignoreCase = .ok program)
    (before text : String) (limits : Limits) :
    (∀ here, (Cursor.ofString text).Reaches here → .atStart ∉ program.code ∨ 0 < here.offset →
      (Cursor.ofString (before ++ text)).Reaches (here.shift before.utf8ByteSize) ∧
        program.matchAt limits (here.shift before.utf8ByteSize) =
          (program.matchAt limits here).map (Option.map (·.shift before.utf8ByteSize))) ∧
      (.atStart ∉ program.code ∨
          (∃ source, Pattern.parse source = .ok pattern ∧ '^' ∉ source.toList) →
        program.findAt? limits (before ++ text) before.utf8ByteSize =
          (program.findAt? limits text 0).map (Option.map (·.shift before.utf8ByteSize))) := by
  refine ⟨?_, ?_⟩
  · intro here within begins
    exact ⟨Cursor.reaches_shift within before, matchAt_shift compiled begins limits _⟩
  · intro caretless
    have absent : .atStart ∉ program.code := by
      rcases caretless with absent | ⟨source, parsed, absent⟩
      · exact absent
      · exact atStart_not_mem_of_compile (asksStart_of_parse parsed absent) compiled
    have attempts (here : Cursor) :
        program.matchAt limits (here.shift before.utf8ByteSize) =
          (program.matchAt limits here).map (Option.map (·.shift before.utf8ByteSize)) :=
      matchAt_shift compiled (.inl absent) limits before.utf8ByteSize
    have shifted := Program.find?_shift (Program.anchored_eq_false compiled absent) attempts
      (.ofString text)
    have begins : (Cursor.ofString text).shift before.utf8ByteSize =
        ⟨before.utf8ByteSize, text.toList⟩ := congrArg (Cursor.mk · _) (Nat.zero_add _)
    rw [begins] at shifted
    rw [Program.findAt?_zero, ← shifted]
    unfold Program.findAt?
    rw [Cursor.atByte?_append]

/-- A loop that could read nothing, in front of a test that notes a group. -/
theorem search_suffix_of_loop :
    ∃ pattern program here, Pattern.parse "(?:a*)*(?=(b))\\1" = .ok pattern ∧
      '^' ∉ "(?:a*)*(?=(b))\\1".toList ∧ pattern.compile false = .ok program ∧
      (Cursor.ofString "aab").Reaches here ∧ 0 < here.offset ∧
      (Cursor.ofString ("é" ++ "aab")).Reaches (here.shift 2) ∧
      program.matchAt {} (here.shift 2) =
        (program.matchAt {} here).map (Option.map (·.shift 2)) ∧
      program.findAt? {} ("é" ++ "aab") 2 =
        (program.findAt? {} "aab" 0).map (Option.map (·.shift 2)) := by
  obtain ⟨pattern, program, parsed, compiled⟩ : ∃ pattern program,
      Pattern.parse "(?:a*)*(?=(b))\\1" = .ok pattern ∧ pattern.compile false = .ok program :=
    ⟨_, _, by cbv, by cbv⟩
  have within : (Cursor.ofString "aab").Reaches ⟨1, ['a', 'b']⟩ := ⟨['a'], rfl, rfl⟩
  have absent : '^' ∉ "(?:a*)*(?=(b))\\1".toList := by decide
  obtain ⟨attempts, searches⟩ := search_suffix compiled "é" "aab" {}
  obtain ⟨behind, attempt⟩ := attempts ⟨1, ['a', 'b']⟩ within (.inr Nat.one_pos)
  exact ⟨pattern, program, _, parsed, absent, compiled, within, Nat.one_pos, behind, attempt,
    searches (.inr ⟨_, parsed, absent⟩)⟩

end Pattern

end RegexEngine
