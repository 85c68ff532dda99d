import RegexEngine.Fallible
import RegexEngine.Pattern.Error
import RegexEngine.Pattern.Node
import RegexEngine.Text.Cursor

/-!
# Quantifiers

How a pattern says that the part before is repeated. A brace opens bounds only if a digit follows
it; otherwise it is an ordinary character.
-/

namespace RegexEngine.Quantifier

/-- The largest bound that may stand between braces. -/
def maxBound : Nat := 1000

def startsAt (here : Cursor) : Bool :=
  match here.rest with
  | '*' :: _ | '+' :: _ | '?' :: _ => true
  | '{' :: c :: _ => c.isDigit
  | _ => false

def valueOf (digits : List Char) : Nat :=
  digits.foldl (fun value c => 10 * value + (c.toNat - '0'.toNat)) 0

/-- Read a bound of the repetition whose brace is at `start`. -/
def readBound (start : Nat) (here : Cursor) : Except PatternError (Nat × Cursor) :=
  let digits := here.rest.takeWhile Char.isDigit
  if digits.isEmpty || maxBound < valueOf digits then
    .error ⟨.badRepetition, start⟩
  else
    .ok (valueOf digits, ⟨here.offset + byteLength digits, here.rest.dropWhile Char.isDigit⟩)

/-- Read `m}`, `m,}` or `m,n}` behind the brace at `start`. -/
def readBounds (start : Nat) (here : Cursor) :
    Except PatternError ((Nat × Option Nat) × Cursor) := do
  let (min, here) ← readBound start here
  match here.rest with
  | '}' :: rest => .ok ((min, some min), here.advance '}' rest)
  | ',' :: '}' :: rest =>
    .ok ((min, none), (here.advance ',' ('}' :: rest)).advance '}' rest)
  | ',' :: rest =>
    let (max, here) ← readBound start (here.advance ',' rest)
    match here.rest with
    | '}' :: rest =>
      if max < min then .error ⟨.badRepetition, start⟩
      else .ok ((min, some max), here.advance '}' rest)
    | _ => .error ⟨.badRepetition, start⟩
  | _ => .error ⟨.badRepetition, start⟩

/-- Read the numbers of rounds that the quantifier at this position allows. -/
def readRounds (here : Cursor) : Except PatternError ((Nat × Option Nat) × Cursor) :=
  match here.rest with
  | '*' :: rest => .ok ((0, none), here.advance '*' rest)
  | '+' :: rest => .ok ((1, none), here.advance '+' rest)
  | '?' :: rest => .ok ((0, some 1), here.advance '?' rest)
  | c :: rest => readBounds here.offset (here.advance c rest)
  | [] => .error ⟨.badRepetition, here.offset⟩

/-- Whether more rounds are tried first; a question mark asks for fewer. -/
def readGreedy (here : Cursor) : Bool × Cursor :=
  match here.rest with
  | '?' :: rest => (false, here.advance '?' rest)
  | _ => (true, here)

/-- Read the quantifier, if any, behind `atom`, which begins at `start`. Only one quantifier may
follow, and only where `atom` is no mere test of a position. -/
def readBehind (atom : Node) (start : Nat) (here : Cursor) :
    Except PatternError (Node × Cursor) :=
  if startsAt here then do
    let ((min, max), here) ← readRounds here
    if atom.repeatable then
      let (greedy, here) := readGreedy here
      if startsAt here then .error ⟨.danglingQuantifier, here.offset⟩
      else .ok (.repeated atom ⟨min, max, greedy⟩, here)
    else
      .error ⟨.danglingQuantifier, start⟩
  else
    .ok (atom, here)

/-! ## Reading goes forward -/

theorem length_rest_readBound {start value : Nat} {here after : Cursor}
    (h : readBound start here = .ok (value, after)) : after.rest.length ≤ here.rest.length := by
  unfold readBound at h
  dsimp only at h
  split at h
  · cases h
  · cases h
    exact (List.dropWhile_suffix _).length_le

theorem length_rest_readBounds {start : Nat} {here after : Cursor} {rounds : Nat × Option Nat}
    (h : readBounds start here = .ok (rounds, after)) : after.rest.length ≤ here.rest.length := by
  obtain ⟨⟨min, mid⟩, h₁, h⟩ := bind_eq_ok_iff.1 h
  have := length_rest_readBound h₁
  dsimp only at h
  split at h
  · rename_i hr
    cases h
    simp_all [Cursor.advance]
    omega
  · rename_i hr
    cases h
    simp_all [Cursor.advance]
    omega
  · rename_i hr
    obtain ⟨⟨max, last⟩, h₂, h⟩ := bind_eq_ok_iff.1 h
    have := length_rest_readBound h₂
    dsimp only at h
    split at h
    · split at h
      · cases h
      · cases h
        simp_all [Cursor.advance]
        omega
    · cases h
  · cases h

theorem length_rest_readRounds {here after : Cursor} {rounds : Nat × Option Nat}
    (h : readRounds here = .ok (rounds, after)) : after.rest.length ≤ here.rest.length := by
  unfold readRounds at h
  split at h
  all_goals rename_i hr
  · cases h
    simp [hr, Cursor.advance]
  · cases h
    simp [hr, Cursor.advance]
  · cases h
    simp [hr, Cursor.advance]
  · have := length_rest_readBounds h
    simp_all [Cursor.advance]
    omega
  · cases h

theorem length_rest_readGreedy (here : Cursor) :
    (readGreedy here).2.rest.length ≤ here.rest.length := by
  unfold readGreedy
  split
  · rename_i hr
    simp [hr, Cursor.advance]
  · simp

theorem length_rest_readBehind {atom node : Node} {start : Nat} {here after : Cursor}
    (h : readBehind atom start here = .ok (node, after)) :
    after.rest.length ≤ here.rest.length := by
  unfold readBehind at h
  split at h
  · obtain ⟨⟨⟨min, max⟩, mid⟩, h₁, h⟩ := bind_eq_ok_iff.1 h
    have := length_rest_readRounds h₁
    have := length_rest_readGreedy mid
    dsimp only at h
    repeat' split at h
    all_goals cases h
    omega
  · cases h
    exact Nat.le_refl _

end RegexEngine.Quantifier
