import RegexEngine.Search.Matches

/-!
# Replacing matches

A text is rebuilt from the stretches between its matches and what is put in the place of each match.
An error of the search leaves no text at all. What takes the place of a match may be asked for with
effects, as soon as the match is found (`Matches.rebuildM`), or be the value of a function.
-/

namespace RegexEngine

/-- The text from a position on, each match exchanged for the text that stands beside it, behind
what has been written already. -/
def rebuild (written : String) (here : Cursor) : List (Match × String) → String
  | [] => written ++ String.ofList here.rest
  | (m, substitute) :: others =>
    rebuild (written ++ String.ofList (here.textTo m.whole.start) ++ substitute) m.whole.stop others

namespace Matches

/-- The text from `here` on, behind what has been written already, where each match is exchanged as
soon as it is found. The substitute may be asked for with effects; an error of the search leaves no
text. -/
def rebuildM {μ : Type → Type} [Monad μ] (substitute : Match → μ String) (it : Matches)
    (written : String) (here : Cursor) : μ (Except LimitError String) :=
  match _h : it.next? with
  | none => return .ok (written ++ String.ofList here.rest)
  | some (.error e, _) => return .error e
  | some (.ok m, after) => do
    let s ← substitute m
    after.rebuildM substitute (written ++ String.ofList (here.textTo m.whole.start) ++ s)
      m.whole.stop
termination_by it.remaining
decreasing_by exact remaining_lt_of_next? _h

section

variable {μ : Type → Type} [Monad μ] {substitute : Match → μ String} {it after : Matches}
  {written : String} {here : Cursor}

theorem rebuildM_of_none (call : it.next? = none) :
    it.rebuildM substitute written here = pure (.ok (written ++ String.ofList here.rest)) := by
  unfold rebuildM
  split <;> simp_all

theorem rebuildM_of_error {e : LimitError} (call : it.next? = some (.error e, after)) :
    it.rebuildM substitute written here = pure (.error e) := by
  unfold rebuildM
  split <;> simp_all

theorem rebuildM_of_match {m : Match} (call : it.next? = some (.ok m, after)) :
    it.rebuildM substitute written here = (do
      let s ← substitute m
      after.rebuildM substitute (written ++ String.ofList (here.textTo m.whole.start) ++ s)
        m.whole.stop) := by
  conv => lhs; unfold rebuildM
  split <;> simp_all

end

end Matches

/-- The text with every match exchanged for what `substitute` gives for it, which may have
effects. -/
def Program.replaceWithM {μ : Type → Type} [Monad μ] (program : Program) (limits : Limits)
    (text : String) (substitute : Match → μ String) : μ (Except LimitError String) :=
  (Matches.ofString program limits text).rebuildM substitute "" (.ofString text)

/-- The text with every match exchanged for what `substitute` gives for it. -/
def Program.replaceWith (program : Program) (limits : Limits) (text : String)
    (substitute : Match → String) : Except LimitError String := do
  let ms ← (Matches.ofString program limits text).collect
  return rebuild "" (.ofString text) (ms.map fun m => (m, substitute m))

/-- The text with every match exchanged for the same text. -/
def Program.replace (program : Program) (limits : Limits) (text substitute : String) :
    Except LimitError String :=
  program.replaceWith limits text fun _ => substitute

end RegexEngine
