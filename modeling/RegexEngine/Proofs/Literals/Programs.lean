import RegexEngine.Pattern.Literal
import RegexEngine.Proofs.Code.Attempts
import RegexEngine.Proofs.Grammar.Reading
import RegexEngine.Proofs.Search.FirstAnswer

/-!
# Escaped texts

A text that is escaped is the pattern that reads just that text: every character that could mean
something has a backslash before it, so the pattern is a sequence of single characters
(`Pattern.parse_escape`), and each of these is compiled to one instruction
(`Pattern.exists_compile_chars`). Such a program keeps no alternatives, and it executes an
instruction for every character and one more to accept (`Program.Spells.seeks`).
-/

namespace RegexEngine

/-! ## Reading -/

namespace Grammar

open Pattern (isMeta metacharacters escapeChars)

theorem escapeChars_cons (c : Char) (cs : List Char) :
    escapeChars (c :: cs) = (if isMeta c then ['\\', c] else [c]) ++ escapeChars cs := rfl

theorem isAlphanum_of_isMeta {c : Char} (h : isMeta c = true) : c.isAlphanum = false := by
  have all : metacharacters.all (!·.isAlphanum) = true := rfl
  simpa using List.all_eq_true.1 all c (List.contains_iff_mem.1 h)

/-- A character that is not escaped stands for itself wherever it stands. -/
theorem literal_of_not_isMeta {c : Char} (h : ¬ isMeta c = true) (rest : List Char) :
    Literal c rest := by
  have absent : c ∉ metacharacters := fun mem => h (List.contains_iff_mem.2 mem)
  refine ⟨fun mem => absent ?_, ?_⟩
  · have all : reserved ⊆ metacharacters := by decide
    exact all mem
  · rintro rfl
    exact absurd (by decide) absent

theorem sequence_escapeChars (cs : List Char) :
    Sequence 0 (escapeChars cs) (cs.map .char) 0 [] := by
  induction cs with
  | nil => exact .nil
  | cons c cs ih =>
    rw [escapeChars_cons]
    split
    · rename_i special
      exact .cons (.once (.escape (.itself (isAlphanum_of_isMeta special)))) ih
    · rename_i plain
      exact .cons (.once (.literal (literal_of_not_isMeta plain _))) ih

end Grammar

namespace Pattern

theorem referencesOfAll_chars (cs : List Char) : Node.referencesOfAll (cs.map .char) = [] := by
  rw [Node.referencesOfAll_eq_flatMap, List.flatMap_map, List.flatMap_eq_nil_iff]
  exact fun _ _ => rfl

theorem parse_escape (text : String) :
    parse (escape text) = .ok ⟨.sequence (text.toList.map .char), 0⟩ := by
  rw [parse_eq_ok_iff_derives, escape, String.toList_ofList]
  refine ⟨⟨_, rfl, .last (Grammar.sequence_escapeChars text.toList)⟩, Nat.zero_le _, ?_⟩
  intro i mem
  rw [Node.references, referencesOfAll_chars] at mem
  cases mem

/-! ## Compiling -/

theorem emit_char {e : Emitter} (c : Char) (room : e.code.size < maxProgramLength)
    (time : e.visits < maxCompileVisits) :
    (Node.char c).emit e =
      .ok { e with code := e.code.push (.char c), visits := e.visits + 1 } := by
  unfold Node.emit Emitter.visit
  rw [if_pos time]
  exact if_pos room

theorem exists_emitSequence_chars {e : Emitter} (cs : List Char)
    (room : e.code.size + cs.length ≤ maxProgramLength)
    (time : e.visits + cs.length ≤ maxCompileVisits) :
    ∃ e', Node.emitSequence (cs.map .char) e = .ok e' ∧
      e'.code.size = e.code.size + cs.length := by
  induction cs generalizing e with
  | nil => exact ⟨e, rfl, rfl⟩
  | cons c cs ih =>
    rw [List.length_cons] at room time
    have first := emit_char (e := e) c (by omega) (by omega)
    have size : (e.code.push (.char c)).size = e.code.size + 1 := Array.size_push _
    obtain ⟨e', others, size'⟩ :=
      ih (e := { e with code := e.code.push (.char c), visits := e.visits + 1 })
        (by dsimp only; omega) (by dsimp only; omega)
    refine ⟨e', ?_, ?_⟩
    · rw [List.map_cons, Node.emitSequence, first]
      exact others
    · dsimp only at size'
      rw [size', size, List.length_cons]
      omega

/-- A sequence of characters is compiled as long as there is room for it and for the instruction
that accepts. -/
theorem exists_compile_chars (cs : List Char) (room : cs.length < maxProgramLength)
    (ignoreCase : Bool) :
    ∃ program, compile ⟨.sequence (cs.map .char), 0⟩ ignoreCase = .ok program := by
  let visited : Emitter := ⟨#[], 0, 1⟩
  have visit : Emitter.empty.visit = .ok visited := rfl
  have within : maxProgramLength < maxCompileVisits := by decide
  obtain ⟨e, writes, size⟩ := exists_emitSequence_chars (e := visited) cs
    (by simp only [visited, List.size_toArray, List.length_nil]; omega)
    (by simp only [visited]; omega)
  have accept : e.push .accept = .ok { e with code := e.code.push .accept } := by
    refine if_pos ?_
    simpa [size, visited] using room
  have root : (Node.sequence (cs.map .char)).emit .empty = .ok e :=
    bind_eq_ok_iff.2 ⟨visited, visit, writes⟩
  exact ⟨_, bind_eq_ok_iff.2 ⟨e, root, bind_eq_ok_iff.2 ⟨_, accept, rfl⟩⟩⟩

theorem sequenceBlock_chars (base register : Nat) (cs : List Char) :
    Node.sequenceBlock base register (cs.map .char) = cs.map .char := by
  induction cs generalizing base register with
  | nil => rfl
  | cons c cs ih => exact congrArg (Inst.char c :: ·) (ih _ _)

end Pattern

/-! ## Running -/

/-- Says that a program reads these characters one after the other and does nothing else. -/
structure Program.Spells (program : Program) (cs : List Char) : Prop where
  holds : program.Holds 0 (cs.map .char ++ [.accept])
  exact : program.ignoreCase = false
  anchored : program.anchored = beginsAtStart program.code

theorem Pattern.spells_of_compile {cs : List Char} {program : Program}
    (compiled : compile ⟨.sequence (cs.map .char), 0⟩ false = .ok program) :
    program.Spells cs := by
  have holds := holds_of_compile compiled
  rw [Node.block, sequenceBlock_chars] at holds
  exact ⟨holds, ignoreCase_of_compile compiled, Program.anchored_of_compile compiled⟩

/-- The match of these characters at a position. -/
def Cursor.spelled (here : Cursor) (cs : List Char) : Match where
  whole := ⟨here, ⟨here.offset + byteLength cs, here.rest.drop cs.length⟩⟩
  groups := Vector.replicate maxGroups none

namespace Machine.State

variable {program : Program} {limits : Limits} {s : State}

theorem backtrack_of_alone (alone : s.stack = .empty) : s.backtrack = .failed := by
  rw [backtrack, alone]
  rfl

/-- The characters that are still to be read decide; no alternative is kept, so the height of the
stack is never in the way. -/
theorem run_of_holds (exact : program.ignoreCase = false) (alone : s.stack = .empty)
    {cs : List Char} (holds : program.Holds s.pc (cs.map .char ++ [.accept])) {fuel : Nat}
    (enough : cs.length < fuel) :
    s.run program limits fuel =
      .ok (if cs <+: s.here.rest then
        some { s with
          pc := s.pc + cs.length
          here := ⟨s.here.offset + byteLength cs, s.here.rest.drop cs.length⟩ }
      else none) := by
  induction cs generalizing s fuel with
  | nil =>
    obtain ⟨fuel, rfl⟩ := Nat.exists_eq_add_one_of_ne_zero (Nat.ne_of_gt enough)
    have accepts : s.step program = .accepted s := by
      unfold step
      rw [holds.head]
      rfl
    rw [run, accepts]
    simp
  | cons c cs ih =>
    obtain ⟨fuel, rfl⟩ := Nat.exists_eq_add_one_of_ne_zero (Nat.ne_zero_of_lt enough)
    have reads : s.step program = s.readChar (sameChar false c) := by
      unfold step
      rw [holds.head, exact]
      rfl
    rw [run, reads]
    unfold readChar
    cases rest : s.here.rest with
    | nil =>
      rw [Cursor.next_eq_none_iff.2 rest, backtrack_of_alone alone]
      simp
    | cons d rest' =>
      rw [Cursor.next_of_rest rest]
      dsimp only
      by_cases same : d = c
      · subst same
        have low : ¬ limits.depth < s.stack.height := by simp [alone]
        have others := ih (s := { s with pc := s.pc + 1, here := s.here.advance d rest' }) alone
          holds.tail (Nat.lt_of_succ_lt_succ enough)
        rw [if_pos (by simp [sameChar])]
        dsimp only
        rw [if_neg low, others]
        simp only [Cursor.advance, List.prefix_cons_inj, byteLength_cons, List.length_cons,
          List.drop_succ_cons, Nat.add_assoc, Nat.add_comm 1]
      · rw [if_neg (by simpa [sameChar] using same), backtrack_of_alone alone]
        simp [Ne.symm same]

theorem toMatch_of_blank {registers : Nat} (blank : s.memory = .blank registers) (start : Cursor) :
    s.toMatch start = ⟨⟨start, s.here⟩, Vector.replicate maxGroups none⟩ := by
  unfold toMatch
  rw [blank, Match.mk.injEq]
  refine ⟨rfl, ?_⟩
  ext i : 1
  simp [Memory.group?]

end Machine.State

namespace Program

variable {program : Program} {cs : List Char} {limits : Limits}

/-- Says that an attempt finds these characters where they stand, and nothing else. -/
def Seeks (program : Program) (limits : Limits) (cs : List Char) : Prop :=
  ∀ here, program.matchAt limits here =
    .ok (if cs <+: here.rest then some (here.spelled cs) else none)

/-- An attempt needs a step for each character and one more, and no room for alternatives. -/
theorem Spells.seeks (h : program.Spells cs) (steps : cs.length < limits.steps) :
    program.Seeks limits cs := by
  intro here
  let initial := Machine.State.initial program.registers here
  unfold matchAt
  rw [Machine.State.run_of_holds (s := initial) h.exact rfl h.holds steps]
  by_cases starts : cs <+: here.rest
  · rw [if_pos (c := cs <+: initial.here.rest) starts, if_pos starts]
    exact congrArg (fun m => Except.ok (some m)) (Machine.State.toMatch_of_blank rfl here)
  · rw [if_neg (c := cs <+: initial.here.rest) starts, if_neg starts]
    rfl

end Program

end RegexEngine
