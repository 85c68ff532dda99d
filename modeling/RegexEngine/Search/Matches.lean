import RegexEngine.Search.Leftmost

/-!
# All matches of a text

The matches of a text from left to right, none overlapping the one before. The search goes on where
a match ended; behind an empty match it steps over a character first, so it always gets ahead and
comes to an end (`Matches.remaining_lt_of_next?`). An error is the last thing that it gives.
-/

namespace RegexEngine

/-- The matches that a search has still to give. -/
structure Matches where
  program : Program
  limits : Limits
  /-- Where the search goes on; none if it is over. -/
  next : Option Cursor

namespace Matches

def ofString (program : Program) (limits : Limits) (text : String) : Matches :=
  ⟨program, limits, some (.ofString text)⟩

/-- Where a search goes on behind a match; none if an empty match ends the text. -/
def resume (m : Match) : Option Cursor :=
  if m.whole.isEmpty then m.whole.stop.next?.map (·.2) else some m.whole.stop

/-- The next match or the error that ends the search, with what remains. -/
def next? (it : Matches) : Option (Except LimitError Match × Matches) :=
  match it.next with
  | none => none
  | some here =>
    match it.program.find? it.limits here with
    | .error e => some (.error e, { it with next := none })
    | .ok (some m) => some (.ok m, { it with next := resume m })
    | .ok none => none

/-- A bound on how many matches remain: the positions at which one may begin. -/
def remaining (it : Matches) : Nat :=
  match it.next with
  | none => 0
  | some here => here.rest.length + 1

theorem length_rest_resume {here next : Cursor} {m : Match} (toStart : here.Reaches m.whole.start)
    (toStop : m.whole.start.Reaches m.whole.stop) (h : resume m = some next) :
    next.rest.length < here.rest.length := by
  unfold resume at h
  split at h
  · obtain ⟨⟨c, after⟩, hn, rfl⟩ := Option.map_eq_some_iff.1 h
    exact Nat.lt_of_lt_of_le (Cursor.length_rest_next hn) (toStart.trans toStop).length_rest_le
  · rename_i nonempty
    cases h
    refine Nat.lt_of_lt_of_le (toStop.length_rest_lt ?_) toStart.length_rest_le
    simp [Span.isEmpty, Span.length] at nonempty
    omega

/-- Every match or error leaves less to search. -/
theorem remaining_lt_of_next? {it after : Matches} {item : Except LimitError Match}
    (h : it.next? = some (item, after)) : after.remaining < it.remaining := by
  unfold next? at h
  split at h
  · cases h
  · rename_i here hn
    split at h
    · cases h
      simp [remaining, hn]
    · rename_i m hf
      cases h
      obtain ⟨toStart, toStop⟩ := Program.reaches_of_find? hf
      unfold remaining
      rw [hn]
      dsimp only
      split
      · omega
      · rename_i hr
        have := length_rest_resume toStart toStop hr
        omega
    · cases h

def toList (it : Matches) : List (Except LimitError Match) :=
  match _h : it.next? with
  | none => []
  | some (item, it) => item :: it.toList
termination_by it.remaining
decreasing_by exact remaining_lt_of_next? _h

/-- All matches, or the error that ends the search. -/
def collect (it : Matches) : Except LimitError (List Match) := it.toList.mapM id

end Matches

end RegexEngine
