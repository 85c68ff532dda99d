import RegexEngine.Match

/-!
# What a pattern means

`Node.results` lists the ways in which a part of a pattern can be read from a position on, the most
preferred first: each with the position that it ends at and what the groups hold by then. No program
and no machine is involved. A pattern matches as its first result says (`Pattern.firstMatch?`).

An unbounded repetition goes on only after a round that has read something, so a listing ends:
`Node.results` takes the rounds of a loop by the length of the text that is left (`Reading.loop`).
-/

namespace RegexEngine

/-- Where each group began and where it ended, as far as it did. -/
structure Captures where
  starts : Vector (Option Cursor) (maxGroups + 1)
  stops : Vector (Option Cursor) (maxGroups + 1)
deriving Repr, DecidableEq

namespace Captures

def unset : Captures := ⟨Vector.replicate _ none, Vector.replicate _ none⟩

/-- Group `i` begins; where it ended before is forgotten. -/
def enter (captures : Captures) (i : Nat) (here : Cursor) : Captures :=
  ⟨captures.starts.setIfInBounds i (some here), captures.stops.setIfInBounds i none⟩

def leave (captures : Captures) (i : Nat) (here : Cursor) : Captures :=
  { captures with stops := captures.stops.setIfInBounds i (some here) }

/-- What group `i` holds, if it both began and ended. -/
def span? (captures : Captures) (i : Nat) : Option Span :=
  match captures.starts[i]?.join, captures.stops[i]?.join with
  | some start, some stop => some ⟨start, stop⟩
  | _, _ => none

/-- The text that group `i` holds; two ends in the wrong order enclose none. -/
def text? (captures : Captures) (i : Nat) : Option (List Char) :=
  match captures.span? i with
  | some span => if span.start.offset ≤ span.stop.offset then some span.chars else none
  | none => none

end Captures

/-- How far a pattern has been read, and what its groups hold by then. -/
structure Reading where
  here : Cursor
  captures : Captures
deriving Repr, DecidableEq

namespace Reading

def initial (start : Cursor) : Reading := ⟨start, .unset⟩

/-- The match that a reading from `start` on stands for. -/
def toMatch (r : Reading) (start : Cursor) : Match where
  whole := ⟨start, r.here⟩
  groups := Vector.ofFn fun i => r.captures.span? (i + 1)

def require (condition : Bool) (r : Reading) : List Reading :=
  if condition then [r] else []

def readChar (accepts : Char → Bool) (r : Reading) : List Reading :=
  match r.here.rest with
  | [] => []
  | c :: rest => if accepts c then [{ r with here := r.here.advance c rest }] else []

/-- The form in which characters are compared with a captured text. -/
def compared (ignoreCase : Bool) (cs : List Char) : List Char :=
  if ignoreCase then cs.map CaseMapping.lower else cs

/-- Read as many characters as `text` has, if they compare equal to it. -/
def readCopy (ignoreCase : Bool) (text : List Char) (r : Reading) : List Reading :=
  let ahead := r.here.rest.take text.length
  if compared ignoreCase ahead = compared ignoreCase text then
    [{ r with here := ⟨r.here.offset + byteLength ahead, r.here.rest.drop text.length⟩ }]
  else []

/-! ## Rounds -/

/-- Go on before stopping if `greedy`, and the other way round if not. -/
def prefer (greedy : Bool) (further : List Reading) (stop : Reading) : List Reading :=
  if greedy then further ++ [stop] else stop :: further

/-- So many rounds of `round`, one after the other. -/
def inTurn (round : Reading → List Reading) : Nat → Reading → List Reading
  | 0, r => [r]
  | n + 1, r => (round r).flatMap (inTurn round n)

/-- Up to so many rounds, each only after the one before. -/
def upTo (round : Reading → List Reading) (greedy : Bool) : Nat → Reading → List Reading
  | 0, r => [r]
  | n + 1, r => prefer greedy ((round r).flatMap (upTo round greedy n)) r

/-- Whether something has been read since `r`. -/
def movedFrom (r s : Reading) : Bool := s.here.rest.length < r.here.rest.length

/-- Any number of rounds. A round that has read nothing leads no further. -/
def loop (round : Reading → List Reading) (greedy : Bool) (r : Reading) : List Reading :=
  prefer greedy
    (((round r).filter r.movedFrom).attach.flatMap fun ⟨s, _moved⟩ => loop round greedy s) r
termination_by r.here.rest.length
decreasing_by exact of_decide_eq_true (List.mem_filter.1 _moved).2

theorem loop_eq (round : Reading → List Reading) (greedy : Bool) (r : Reading) :
    loop round greedy r =
      prefer greedy (((round r).filter r.movedFrom).flatMap (loop round greedy)) r := by
  rw [loop]
  simp only [List.flatMap_subtype, List.unattach_attach]

/-- The rounds that a quantifier allows beyond those that it asks for. -/
def beyond (round : Reading → List Reading) (q : Quantifier) (r : Reading) : List Reading :=
  match q.max with
  | some max => upTo round q.greedy (max - q.min) r
  | none => loop round q.greedy r

def rounds (round : Reading → List Reading) (q : Quantifier) (r : Reading) : List Reading :=
  (inTurn round q.min r).flatMap (beyond round q)

end Reading

namespace Node

mutual

/-- The ways to read a node, the most preferred first. -/
def results (ignoreCase : Bool) : Node → Reading → List Reading
  | char c, r =>
    r.readChar fun d => d == c || (ignoreCase && CaseMapping.lower d == CaseMapping.lower c)
  | any, r => r.readChar (· != '\n')
  | oneOf cls, r => r.readChar (cls.accepts ignoreCase)
  | sequence parts, r => resultsInTurn ignoreCase parts r
  | choice branches, r => resultsOfEach ignoreCase branches r
  | repeated body q, r => r.rounds (results ignoreCase body) q
  | group body, r => results ignoreCase body r
  | capture i body, r =>
    (results ignoreCase body { r with captures := r.captures.enter i r.here }).map fun s =>
      { s with captures := s.captures.leave i s.here }
  | backreference i, r =>
    match r.captures.text? i with
    | some text => r.readCopy ignoreCase text
    | none => []
  | atStart, r => r.require (r.here.offset == 0)
  | atEnd, r => r.require r.here.rest.isEmpty
  | look true body, r =>
    (results ignoreCase body r).head?.toList.map fun s => { s with here := r.here }
  | look false body, r => r.require (results ignoreCase body r).isEmpty

def resultsInTurn (ignoreCase : Bool) : List Node → Reading → List Reading
  | [], r => [r]
  | node :: nodes, r => (results ignoreCase node r).flatMap (resultsInTurn ignoreCase nodes)

/-- The ways to read one of several nodes, those of an earlier one first. -/
def resultsOfEach (ignoreCase : Bool) : List Node → Reading → List Reading
  | [], _ => []
  | node :: nodes, r => results ignoreCase node r ++ resultsOfEach ignoreCase nodes r

end

end Node

/-- The match that a pattern has at `start`, if it has any: its most preferred reading. -/
def Pattern.firstMatch? (pattern : Pattern) (ignoreCase : Bool) (start : Cursor) : Option Match :=
  (pattern.root.results ignoreCase (.initial start)).head?.map (·.toMatch start)

end RegexEngine
