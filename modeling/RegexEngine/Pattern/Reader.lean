import RegexEngine.Pattern.Bracket
import RegexEngine.Pattern.Quantifier

/-!
# Reading patterns

A pattern is read from left to right in one pass. The reader keeps the alternation it is inside of
as a draft and the drafts around it with the groups that interrupted them, so that a closing
parenthesis goes back to where its group began. Reading stops at the first fault; only two faults
wait for the end: a group that was never closed, and a backreference to a group that never came.
-/

namespace RegexEngine

/-- An alternation as far as it has been read. -/
structure Draft where
  /-- The finished branches, the latest first. -/
  branches : List Node
  /-- The parts of the branch being read, the latest first. -/
  parts : List Node

namespace Draft

def empty : Draft := ⟨[], []⟩

/-- The branch being read, as it stands. -/
def branch (draft : Draft) : Node := .sequence draft.parts.reverse

def push (draft : Draft) (part : Node) : Draft :=
  { draft with parts := part :: draft.parts }

def bar (draft : Draft) : Draft := ⟨draft.branch :: draft.branches, []⟩

/-- The whole alternation; a single branch needs no choice. -/
def close (draft : Draft) : Node :=
  match draft.branches with
  | [] => draft.branch
  | branches => .choice (draft.branch :: branches).reverse

end Draft

inductive GroupKind where
  | plain
  | capture (index : Nat)
  | look (positive : Bool)
deriving Repr, DecidableEq

def GroupKind.enclose : GroupKind → Node → Node
  | .plain, body => .group body
  | .capture index, body => .capture index body
  | .look positive, body => .look positive body

/-- A group that has been opened and not yet closed. -/
structure OpenGroup where
  offset : Nat
  kind : GroupKind
  /-- The alternation that the group interrupts. -/
  outer : Draft

structure Reference where
  index : Nat
  offset : Nat
deriving Repr, DecidableEq

/-- A pattern as far as it has been read. -/
structure Reader where
  here : Cursor
  draft : Draft
  /-- The groups around the draft, the innermost first. -/
  opened : List OpenGroup
  groups : Nat
  /-- The backreferences, the latest first. -/
  references : List Reference

namespace Reader

def ofString (text : String) : Reader := ⟨Cursor.ofString text, .empty, [], 0, []⟩

/-- Read what a group's parenthesis at `start` says about its kind. Capturing groups are numbered in
the order in which they open. -/
def readOpening (start groups : Nat) (here : Cursor) :
    Except PatternError (GroupKind × Nat × Cursor) :=
  match here.rest with
  | '?' :: ':' :: rest =>
    .ok (.plain, groups, (here.advance '?' (':' :: rest)).advance ':' rest)
  | '?' :: '=' :: rest =>
    .ok (.look true, groups, (here.advance '?' ('=' :: rest)).advance '=' rest)
  | '?' :: '!' :: rest =>
    .ok (.look false, groups, (here.advance '?' ('!' :: rest)).advance '!' rest)
  | '?' :: _ => .error ⟨.unknownGroup, start⟩
  | _ =>
    if groups < maxGroups then .ok (.capture (groups + 1), groups + 1, here)
    else .error ⟨.tooManyGroups, start⟩

def nodeOfEscape : Escape → Node
  | .char c => .char c
  | .shorthand set negated => .oneOf ⟨[.shorthand set false], negated⟩
  | .backreference index => .backreference index

/-- Read the part that begins with `c` at `start`; the reader stands behind `c`. -/
def readAtom (c : Char) (start : Nat) (here : Cursor) : Except PatternError (Node × Cursor) :=
  if c = '[' then do
    let (cls, here) ← CharClass.read start here
    return (.oneOf cls, here)
  else if c = '\\' then do
    let (escape, here) ← Escape.read start here
    return (nodeOfEscape escape, here)
  else if c = '.' then .ok (.any, here)
  else if c = '^' then .ok (.atStart, here)
  else if c = '$' then .ok (.atEnd, here)
  else .ok (.char c, here)

/-- The backreference that a part standing at `offset` is. -/
def referenceOf (offset : Nat) : Node → List Reference
  | .backreference index => [⟨index, offset⟩]
  | _ => []

/-- Close the innermost group; `after` is the position behind its parenthesis. -/
def closeGroup (r : Reader) (after : Cursor) : Except PatternError Reader :=
  match r.opened with
  | [] => .error ⟨.strayClose, r.here.offset⟩
  | group :: opened => do
    let (part, here) ←
      Quantifier.readBehind (group.kind.enclose r.draft.close) group.offset after
    return { r with here, opened, draft := group.outer.push part }

/-- Open a group; `after` is the position behind its parenthesis. -/
def openGroup (r : Reader) (after : Cursor) : Except PatternError Reader := do
  let (kind, groups, here) ← readOpening r.here.offset r.groups after
  return { r with
    here
    groups
    draft := .empty
    opened := ⟨r.here.offset, kind, r.draft⟩ :: r.opened }

/-- Read a part that is no group, and its quantifier. -/
def readPart (r : Reader) (c : Char) (after : Cursor) : Except PatternError Reader := do
  let (atom, here) ← readAtom c r.here.offset after
  let (part, here) ← Quantifier.readBehind atom r.here.offset here
  return { r with
    here
    draft := r.draft.push part
    references := referenceOf r.here.offset atom ++ r.references }

/-- Read on from the character `c`, which `after` follows. -/
def step (r : Reader) (c : Char) (after : Cursor) : Except PatternError Reader :=
  if c = ')' then r.closeGroup after
  else if c = '|' then .ok { r with here := after, draft := r.draft.bar }
  else if Quantifier.startsAt r.here then .error ⟨.danglingQuantifier, r.here.offset⟩
  else if c = '(' then r.openGroup after
  else r.readPart c after

def finish (r : Reader) : Except PatternError Pattern :=
  match r.opened with
  | group :: _ => .error ⟨.unclosedGroup, group.offset⟩
  | [] =>
    match r.references.reverse.find? (fun reference => r.groups < reference.index) with
    | some reference => .error ⟨.unknownBackreference reference.index, reference.offset⟩
    | none => .ok ⟨r.draft.close, r.groups⟩

/-! ## Reading goes forward -/

theorem length_rest_readOpening {start groups count : Nat} {here after : Cursor} {kind : GroupKind}
    (h : readOpening start groups here = .ok (kind, count, after)) :
    after.rest.length ≤ here.rest.length := by
  unfold readOpening at h
  split at h
  · rename_i hr
    cases h
    simp [hr, Cursor.advance]
    omega
  · rename_i hr
    cases h
    simp [hr, Cursor.advance]
    omega
  · rename_i hr
    cases h
    simp [hr, Cursor.advance]
    omega
  · cases h
  · split at h
    · cases h
      exact Nat.le_refl _
    · cases h

theorem length_rest_readAtom {c : Char} {start : Nat} {here after : Cursor} {node : Node}
    (h : readAtom c start here = .ok (node, after)) : after.rest.length ≤ here.rest.length := by
  unfold readAtom at h
  split at h
  · obtain ⟨⟨cls, mid⟩, h₁, h⟩ := bind_eq_ok_iff.1 h
    cases h
    exact Nat.le_of_lt (CharClass.length_rest_read h₁)
  · split at h
    · obtain ⟨⟨escape, mid⟩, h₁, h⟩ := bind_eq_ok_iff.1 h
      cases h
      exact Nat.le_of_lt (Escape.length_rest_read h₁)
    · repeat' split at h
      all_goals cases h
      all_goals exact Nat.le_refl _

theorem length_rest_step {r s : Reader} {c : Char} {after : Cursor}
    (h : r.step c after = .ok s) : s.here.rest.length ≤ after.rest.length := by
  unfold step at h
  split at h
  · unfold closeGroup at h
    split at h
    · cases h
    · obtain ⟨⟨part, mid⟩, h₁, h⟩ := bind_eq_ok_iff.1 h
      cases h
      exact Quantifier.length_rest_readBehind h₁
  · split at h
    · cases h
      exact Nat.le_refl _
    · split at h
      · cases h
      · split at h
        · obtain ⟨⟨kind, count, mid⟩, h₁, h⟩ := bind_eq_ok_iff.1 h
          cases h
          exact length_rest_readOpening h₁
        · obtain ⟨⟨atom, mid⟩, h₁, h⟩ := bind_eq_ok_iff.1 h
          obtain ⟨⟨part, last⟩, h₂, h⟩ := bind_eq_ok_iff.1 h
          cases h
          have := length_rest_readAtom h₁
          have := Quantifier.length_rest_readBehind h₂
          exact Nat.le_trans this ‹_›

/-- Read to the end of the pattern or to its first fault. -/
def run (r : Reader) : Except PatternError Pattern :=
  match _hn : r.here.next? with
  | none => r.finish
  | some (c, after) =>
    match _hs : r.step c after with
    | .error e => .error e
    | .ok s => s.run
termination_by r.here.rest.length
decreasing_by exact Nat.lt_of_le_of_lt (length_rest_step _hs) (Cursor.length_rest_next _hn)

end Reader

/-- The pattern that a text stands for, or its first fault. -/
def Pattern.parse (text : String) : Except PatternError Pattern :=
  (Reader.ofString text).run

end RegexEngine
