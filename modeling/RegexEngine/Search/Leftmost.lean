import RegexEngine.Machine.Forward

/-!
# The leftmost match

It is found by an attempt at every position in turn. A program that can only match at the start of
the text is tried there and nowhere else.
-/

namespace RegexEngine.Program

/-- The first match or error among attempts at byte `offset`, where `rest` begins, and behind it. -/
def leftmost (program : Program) (limits : Limits) (offset : Nat) :
    List Char → Except LimitError (Option Match)
  | [] => program.matchAt limits ⟨offset, []⟩
  | c :: rest => do
    match ← program.matchAt limits ⟨offset, c :: rest⟩ with
    | some m => return some m
    | none =>
      if program.anchored then return none
      else leftmost program limits (offset + c.utf8Size) rest

def find? (program : Program) (limits : Limits) (here : Cursor) :
    Except LimitError (Option Match) :=
  if program.anchored && 0 < here.offset then .ok none
  else program.leftmost limits here.offset here.rest

/-- The leftmost match at or behind byte `n` of a text; a byte inside a character stands for the
position behind it, and there is nothing to find behind the end. -/
def findAt? (program : Program) (limits : Limits) (text : String) (n : Nat) :
    Except LimitError (Option Match) :=
  match Cursor.atByte? text n with
  | some here => program.find? limits here
  | none => .ok none

/-! ## Matches lie ahead -/

theorem reaches_of_leftmost {program : Program} {limits : Limits} {offset : Nat} {rest : List Char}
    {m : Match} (h : program.leftmost limits offset rest = .ok (some m)) :
    (⟨offset, rest⟩ : Cursor).Reaches m.whole.start ∧ m.whole.start.Reaches m.whole.stop := by
  induction rest generalizing offset with
  | nil =>
    rw [start_of_matchAt h]
    exact ⟨.refl _, reaches_of_matchAt h⟩
  | cons c rest ih =>
    obtain ⟨attempt, ha, h⟩ := bind_eq_ok_iff.1 h
    cases attempt with
    | some m' =>
      cases h
      rw [start_of_matchAt ha]
      exact ⟨.refl _, reaches_of_matchAt ha⟩
    | none =>
      dsimp only at h
      split at h
      · cases h
      · obtain ⟨toStart, toStop⟩ := ih h
        have ahead : (⟨offset, c :: rest⟩ : Cursor).Reaches ⟨offset + c.utf8Size, rest⟩ :=
          Cursor.reaches_advance rfl
        exact ⟨ahead.trans toStart, toStop⟩

/-- A match that is found lies at or behind the position where the search began. -/
theorem reaches_of_find? {program : Program} {limits : Limits} {here : Cursor} {m : Match}
    (h : program.find? limits here = .ok (some m)) :
    here.Reaches m.whole.start ∧ m.whole.start.Reaches m.whole.stop := by
  unfold find? at h
  split at h
  · cases h
  · exact reaches_of_leftmost h

end RegexEngine.Program
