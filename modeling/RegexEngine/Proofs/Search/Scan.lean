import Mathlib
import RegexEngine.Pattern.Reader
import RegexEngine.Proofs.Search.FirstAnswer
import RegexEngine.Proofs.Text.Bytes

/-!
# The plain scan

A search passes over positions that cannot matter: the bytes inside a character, and everything
behind the start of the text if the program asks for the start first. The plain scan knows nothing
of this. It attempts a match at every position of the text from a byte on and takes the first
answer that is a match or an error (`Program.scan`). Where an attempt is allowed one instruction the
two come to the same (`Pattern.findAt?_eq_scan`).
-/

namespace RegexEngine

namespace Cursor

variable {n offset : Nat} {cs : List Char} {text : String} {q : Cursor}

/-! ## The positions of a text -/

/-- All positions from byte `offset` on, where the characters stand. The last one is the end. -/
def positions (offset : Nat) : List Char → List Cursor
  | [] => [⟨offset, []⟩]
  | c :: rest => ⟨offset, c :: rest⟩ :: positions (offset + c.utf8Size) rest

/-- The positions of a text that do not lie before byte `n`; any number may be asked for. -/
def positionsFrom (text : String) (n : Nat) : List Cursor :=
  (positions 0 text.toList).filter (n ≤ ·.offset)

theorem mem_positions : q ∈ positions offset cs ↔ (⟨offset, cs⟩ : Cursor).Reaches q := by
  induction cs generalizing offset with
  | nil =>
    rw [positions, List.mem_singleton]
    constructor
    · rintro rfl
      exact .refl _
    · intro ahead
      exact eq_of_reaches_of_rest_eq_nil ahead rfl
  | cons c cs ih =>
    rw [positions, List.mem_cons, ih]
    constructor
    · rintro (rfl | ahead)
      · exact .refl _
      · exact (reaches_advance rfl).trans ahead
    · exact Reaches.eq_or_advance

theorem mem_positionsFrom :
    q ∈ positionsFrom text n ↔ (ofString text).Reaches q ∧ n ≤ q.offset := by
  rw [positionsFrom, List.mem_filter, mem_positions, decide_eq_true_iff]
  rfl

theorem pairwise_positions : (positions offset cs).Pairwise (·.offset < ·.offset) := by
  induction cs generalizing offset with
  | nil => exact List.pairwise_singleton _ _
  | cons c cs ih =>
    refine List.pairwise_cons.2 ⟨?_, ih⟩
    intro q mem
    have ahead := (mem_positions.1 mem).offset_le
    have size := c.utf8Size_pos
    dsimp only at ahead ⊢
    omega

theorem pairwise_positionsFrom : (positionsFrom text n).Pairwise (·.offset < ·.offset) :=
  pairwise_positions.filter _

/-- A position lies at every byte at which a character begins or the text ends, and nowhere else. -/
theorem exists_mem_positionsFrom_iff {i : Nat} :
    (∃ q ∈ positionsFrom text n, q.offset = i) ↔
      String.Pos.Raw.IsValid text ⟨i⟩ ∧ n ≤ i := by
  constructor
  · rintro ⟨q, mem, rfl⟩
    obtain ⟨within, le⟩ := mem_positionsFrom.1 mem
    exact ⟨(Reaches.lies (.refl q) within).boundary, le⟩
  · rintro ⟨valid, le⟩
    obtain ⟨before, after, rfl, offset⟩ := String.Pos.Raw.isValid_iff_exists_append.1 valid
    obtain rfl : i = before.utf8ByteSize := congrArg String.Pos.Raw.byteIdx offset
    exact ⟨_, mem_positionsFrom.2 ⟨reaches_append before after, le⟩, rfl⟩

/-- The positions from a byte on are those from the first one that is sought out there. -/
theorem filter_positions :
    (positions offset cs).filter (n ≤ ·.offset) =
      match seek n offset cs with
      | none => []
      | some here => positions here.offset here.rest := by
  induction cs generalizing offset with
  | nil =>
    rw [positions, seek]
    by_cases reached : n ≤ offset
    · rw [if_pos reached, List.filter_cons_of_pos (by simpa using reached)]
      rfl
    · rw [if_neg reached, List.filter_cons_of_neg (by simpa using reached)]
      rfl
  | cons c cs ih =>
    rw [seek]
    by_cases reached : n ≤ offset
    · have all : ∀ q ∈ positions offset (c :: cs), decide (n ≤ q.offset) = true := by
        intro q mem
        exact decide_eq_true (Nat.le_trans reached (mem_positions.1 mem).offset_le)
      rw [if_pos reached, List.filter_eq_self.2 all]
    · rw [if_neg reached, positions, List.filter_cons_of_neg (by simpa using reached), ih]

end Cursor

namespace Program

variable {program : Program} {limits : Limits} {ps : List Cursor}

/-! ## The scan -/

/-- Attempt a match at each of some positions in turn. The first answer that is a match or an error
is the answer; without one there is no match. -/
def scan (program : Program) (limits : Limits) : List Cursor → Except LimitError (Option Match)
  | [] => .ok none
  | here :: others => do
    match ← program.matchAt limits here with
    | some m => return some m
    | none => scan program limits others

theorem scan_cons_of_answer {here : Cursor} {others : List Cursor}
    (answers : program.matchAt limits here ≠ .ok none) :
    program.scan limits (here :: others) = program.matchAt limits here := by
  rw [scan]
  cases attempt : program.matchAt limits here with
  | error e => rfl
  | ok answer =>
    cases answer with
    | none => exact absurd attempt answers
    | some m => rfl

theorem scan_cons_of_nothing {here : Cursor} {others : List Cursor}
    (nothing : program.matchAt limits here = .ok none) :
    program.scan limits (here :: others) = program.scan limits others := by
  rw [scan, nothing]
  rfl

theorem scan_eq_none (nothing : ∀ q ∈ ps, program.matchAt limits q = .ok none) :
    program.scan limits ps = .ok none := by
  induction ps with
  | nil => rfl
  | cons here others ih =>
    obtain ⟨first, nothing⟩ := List.forall_mem_cons.1 nothing
    rw [scan_cons_of_nothing first, ih nothing]

/-- A match that a scan finds begins at one of the positions, and before it there is none. -/
theorem mem_and_nothing_before_of_scan {m : Match} (ordered : ps.Pairwise (·.offset < ·.offset))
    (found : program.scan limits ps = .ok (some m)) :
    m.whole.start ∈ ps ∧ program.matchAt limits m.whole.start = .ok (some m) ∧
      ∀ q ∈ ps, q.offset < m.whole.start.offset → program.matchAt limits q = .ok none := by
  induction ps with
  | nil => cases found
  | cons here others ih =>
    obtain ⟨first, ordered⟩ := List.pairwise_cons.1 ordered
    by_cases nothing : program.matchAt limits here = .ok none
    · rw [scan_cons_of_nothing nothing] at found
      obtain ⟨mem, attempt, before⟩ := ih ordered found
      exact ⟨List.mem_cons_of_mem _ mem, attempt,
        List.forall_mem_cons.2 ⟨fun _ => nothing, before⟩⟩
    · rw [scan_cons_of_answer nothing] at found
      rw [start_of_matchAt found]
      refine ⟨List.mem_cons_self, found, List.forall_mem_cons.2 ⟨?_, ?_⟩⟩
      · intro lt
        exact absurd lt (Nat.lt_irrefl _)
      · intro q mem lt
        exact absurd lt (Nat.lt_asymm (first q mem))

/-! ## Searching is scanning -/

theorem leftmost_eq_scan (anchored : program.anchored = beginsAtStart program.code)
    (allowed : 0 < limits.steps) (offset : Nat) (rest : List Char) :
    program.leftmost limits offset rest = program.scan limits (Cursor.positions offset rest) := by
  induction rest generalizing offset with
  | nil =>
    rw [leftmost, Cursor.positions]
    by_cases nothing : program.matchAt limits ⟨offset, []⟩ = .ok none
    · rw [scan_cons_of_nothing nothing, nothing, scan]
    · rw [scan_cons_of_answer nothing]
  | cons c rest ih =>
    rw [Cursor.positions]
    by_cases nothing : program.matchAt limits ⟨offset, c :: rest⟩ = .ok none
    · rw [leftmost_cons_of_nothing nothing, scan_cons_of_nothing nothing]
      by_cases begins : program.anchored = true
      · -- the scan attempts what the search leaves out, and to no avail
        have behind : 0 < offset + c.utf8Size := Nat.add_pos_right _ c.utf8Size_pos
        have others : program.FindsNothing limits ⟨offset + c.utf8Size, rest⟩ :=
          findsNothing_of_beginsAtStart (anchored ▸ begins) allowed behind
        rw [if_pos begins, scan_eq_none fun q mem => others q (Cursor.mem_positions.1 mem)]
      · rw [if_neg begins, ih]
    · rw [leftmost_cons_of_answer nothing, scan_cons_of_answer nothing]

theorem find?_eq_scan (anchored : program.anchored = beginsAtStart program.code)
    (allowed : 0 < limits.steps) (here : Cursor) :
    program.find? limits here = program.scan limits (Cursor.positions here.offset here.rest) := by
  unfold find?
  by_cases skipped : (program.anchored && decide (0 < here.offset)) = true
  · obtain ⟨begins, behind⟩ := Bool.and_eq_true_iff.1 skipped
    have nothing := findsNothing_of_beginsAtStart (anchored ▸ begins) allowed
      (of_decide_eq_true behind)
    rw [if_pos skipped, scan_eq_none fun q mem => nothing q (Cursor.mem_positions.1 mem)]
  · rw [if_neg skipped]
    exact leftmost_eq_scan anchored allowed here.offset here.rest

theorem findAt?_eq_scan_positionsFrom (anchored : program.anchored = beginsAtStart program.code)
    (allowed : 0 < limits.steps) (text : String) (n : Nat) :
    program.findAt? limits text n = program.scan limits (Cursor.positionsFrom text n) := by
  rw [findAt?, Cursor.positionsFrom, Cursor.filter_positions, ← Cursor.atByte?]
  cases Cursor.atByte? text n with
  | none => rfl
  | some here => exact find?_eq_scan anchored allowed here

end Program

/-- A search from any byte on answers as the plain scan of all positions from there on: one at each
byte where a character begins and one at the end, from left to right. A match that it gives begins
at one of them, and an attempt at an earlier one comes to nothing. -/
theorem Pattern.findAt?_eq_scan {pattern : Pattern} {ignoreCase : Bool} {program : Program}
    (compiled : pattern.compile ignoreCase = .ok program) {limits : Limits}
    (allowed : 1 ≤ limits.steps) (text : String) (n : Nat) :
    program.findAt? limits text n = program.scan limits (Cursor.positionsFrom text n) ∧
      (Cursor.positionsFrom text n).Pairwise (·.offset < ·.offset) ∧
      (∀ q, q ∈ Cursor.positionsFrom text n ↔ (Cursor.ofString text).Reaches q ∧ n ≤ q.offset) ∧
      (∀ i, (∃ q ∈ Cursor.positionsFrom text n, q.offset = i) ↔
        String.Pos.Raw.IsValid text ⟨i⟩ ∧ n ≤ i) ∧
      ∀ m, program.findAt? limits text n = .ok (some m) →
        n ≤ m.whole.start.offset ∧ program.matchAt limits m.whole.start = .ok (some m) ∧
          ∀ q ∈ Cursor.positionsFrom text n, q.offset < m.whole.start.offset →
            program.matchAt limits q = .ok none := by
  have scanned := Program.findAt?_eq_scan_positionsFrom (Program.anchored_of_compile compiled)
    allowed text n
  refine ⟨scanned, Cursor.pairwise_positionsFrom, fun q => Cursor.mem_positionsFrom,
    fun i => Cursor.exists_mem_positionsFrom_iff, ?_⟩
  intro m found
  rw [scanned] at found
  obtain ⟨mem, attempt, before⟩ :=
    Program.mem_and_nothing_before_of_scan Cursor.pairwise_positionsFrom found
  exact ⟨(Cursor.mem_positionsFrom.1 mem).2, attempt, before⟩

/-- A pattern that is tried at the start only, looked for from within the character there. The
scan still attempts what lies behind, with the one instruction that is allowed. -/
theorem Pattern.findAt?_eq_scan_of_anchor :
    ∃ pattern program, Pattern.parse "^b?" = .ok pattern ∧ pattern.compile false = .ok program ∧
      program.anchored = true ∧
      Cursor.positionsFrom "éb" 1 = [⟨2, ['b']⟩, ⟨3, []⟩] ∧
      program.findAt? { steps := 1 } "éb" 1 = .ok none ∧
      program.findAt? { steps := 1 } "éb" 1 =
        program.scan { steps := 1 } (Cursor.positionsFrom "éb" 1) := by
  obtain ⟨pattern, program, parsed, compiled, anchored, nothing⟩ : ∃ pattern program,
      Pattern.parse "^b?" = .ok pattern ∧ pattern.compile false = .ok program ∧
        program.anchored = true ∧ program.findAt? { steps := 1 } "éb" 1 = .ok none :=
    ⟨_, _, by cbv, by cbv, rfl, by cbv⟩
  exact ⟨pattern, program, parsed, compiled, anchored, by cbv, nothing,
    (findAt?_eq_scan compiled (Nat.le_refl 1) "éb" 1).1⟩

end RegexEngine
