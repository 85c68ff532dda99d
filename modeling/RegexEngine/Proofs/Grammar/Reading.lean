import RegexEngine.Proofs.Grammar.Positions
import RegexEngine.Proofs.Grammar.Tokens

/-!
# Patterns are read by their grammar

A text is read as a pattern exactly if the grammar derives that pattern from it
(`Pattern.parse_eq_ok_iff_derives`).

One half follows a derivation: wherever the reader stands in front of a phrase, it comes to its end
with the phrase added to the draft (`Grammar.Alternation.readsOn`). It decides by the next
characters, so this needs to know what follows: never a quantifier, since nothing that may follow a
phrase begins with one. The other half is an invariant of reading: each draft has been derived from
the text since its group opened (`Reader.Derived`).

References are settled at the end, against all groups; the reader has noted just those of the tree
(`Reader.Noted`).
-/

namespace RegexEngine

open Grammar Quantifier

/-! ## What follows a phrase -/

namespace Grammar

theorem unquantified_cons {c : Char} {s : List Char} (h : c ∉ ['*', '+', '?', '{']) :
    Unquantified (c :: s) := by
  simp only [List.mem_cons, List.not_mem_nil, or_false, not_or] at h
  obtain ⟨star, plus, question, brace⟩ := h
  refine ⟨?_, ?_, ?_, ?_⟩
  · rintro ⟨⟩
    exact star rfl
  · rintro ⟨⟩
    exact plus rfl
  · rintro ⟨⟩
    exact question rfl
  · rintro d t ⟨⟩
    exact absurd rfl brace

theorem Literal.unquantified {c : Char} {rest : List Char} (h : Literal c rest) :
    Unquantified (c :: rest) := by
  refine ⟨?_, ?_, ?_, ?_⟩
  · rintro ⟨⟩
    exact h.unreserved (by decide)
  · rintro ⟨⟩
    exact h.unreserved (by decide)
  · rintro ⟨⟩
    exact h.unreserved (by decide)
  · rintro d t ⟨⟩
    exact h.brace rfl d rfl

theorem Literal.not_mem {c : Char} {rest cs : List Char} (h : Literal c rest)
    (special : cs ⊆ reserved) : c ∉ cs := fun mem => h.unreserved (special mem)

theorem Atom.unquantified {n m : Nat} {atom : Node} {s rest : List Char}
    (h : Atom n s atom m rest) : Unquantified s := by
  cases h with
  | literal plain => exact plain.unquantified
  | any | capture | group | bracket | escape => exact unquantified_cons (by decide)

theorem Piece.unquantified {n m : Nat} {part : Node} {s rest : List Char}
    (h : Piece n s part m rest) : Unquantified s := by
  cases h with
  | once one => exact one.unquantified
  | repeated one => exact one.unquantified
  | atStart | atEnd | ahead | notAhead => exact unquantified_cons (by decide)

theorem Sequence.unquantified {n m : Nat} {parts : List Node} {s rest : List Char}
    (h : Sequence n s parts m rest) (behind : Unquantified rest) : Unquantified s := by
  cases h with
  | nil => exact behind
  | cons first => exact first.unquantified

theorem Alternation.unquantified {n m : Nat} {branches : List Node} {s rest : List Char}
    (h : Alternation n s branches m rest) (behind : Unquantified rest) : Unquantified s := by
  cases h with
  | last branch => exact branch.unquantified behind
  | bar branch => exact branch.unquantified (unquantified_cons (by decide))

/-- Says what may stand behind the parenthesis that opens a group, and how many groups have opened
with it. -/
inductive Opening : Nat → List Char → GroupKind → Nat → List Char → Prop where
  | group {n : Nat} {s : List Char} : Opening n ('?' :: ':' :: s) .plain n s
  | ahead {n : Nat} {s : List Char} : Opening n ('?' :: '=' :: s) (.look true) n s
  | notAhead {n : Nat} {s : List Char} : Opening n ('?' :: '!' :: s) (.look false) n s
  | capture {n : Nat} {s : List Char} (unmarked : '?' ∉ s.head?) (few : n < maxGroups) :
    Opening n s (.capture (n + 1)) (n + 1) s

theorem Opening.few {n m : Nat} {kind : GroupKind} {s rest : List Char}
    (h : Opening n s kind m rest) (few : n ≤ maxGroups) : m ≤ maxGroups := by
  cases h with
  | group | ahead | notAhead => exact few
  | capture _ below => exact below

theorem readOpening_iff {start n m : Nat} {here : Cursor} {kind : GroupKind} {rest : List Char} :
    (∃ after, Reader.readOpening start n here = .ok (kind, m, after) ∧ after.rest = rest) ↔
      Opening n here.rest kind m rest := by
  constructor
  · rintro ⟨after, h, rfl⟩
    unfold Reader.readOpening at h
    split at h
    · rename_i text
      cases h
      rw [text]
      exact .group
    · rename_i text
      cases h
      rw [text]
      exact .ahead
    · rename_i text
      cases h
      rw [text]
      exact .notAhead
    · cases h
    · rename_i unmarked
      split at h
      · rename_i few
        cases h
        refine .capture ?_ few
        intro marked
        obtain ⟨s, eq⟩ := List.head?_eq_some_iff.1 marked
        exact unmarked s eq
      · cases h
  · intro h
    generalize text : here.rest = s at h
    unfold Reader.readOpening
    rw [text]
    cases h with
    | group | ahead | notAhead => exact ⟨_, rfl, rfl⟩
    | capture unmarked few =>
      split
      case h_5 => exact ⟨here, if_pos few, text⟩
      all_goals exact absurd rfl unmarked

/-- Says that a character and what follows it stand for an atom that is no group, or for a test of
the position. -/
inductive Simple : Char → List Char → Node → List Char → Prop where
  | any {rest : List Char} : Simple '.' rest .any rest
  | atStart {rest : List Char} : Simple '^' rest .atStart rest
  | atEnd {rest : List Char} : Simple '$' rest .atEnd rest
  | bracket {cls : CharClass} {s rest : List Char} (members : Class s cls rest) :
    Simple '[' s (.oneOf cls) rest
  | escape {escape : Escape} {s rest : List Char} (escaped : Escaped s escape rest) :
    Simple '\\' s (Reader.nodeOfEscape escape) rest
  | char {c : Char} {rest : List Char} (plain : c ∉ ['[', '\\', '.', '^', '$']) :
    Simple c rest (.char c) rest

theorem gives_readAtom_iff {c : Char} {start : Nat} {here : Cursor} {atom : Node}
    {rest : List Char} :
    Gives (Reader.readAtom c start here) atom rest ↔ Simple c here.rest atom rest := by
  constructor
  · intro h
    unfold Reader.readAtom at h
    split at h
    · rename_i is
      obtain ⟨cls, after, members, h⟩ := h.of_bind
      obtain ⟨rfl, rfl⟩ := Gives.ok_iff.1 h
      exact is ▸ .bracket (CharClass.gives_read_iff.1 members)
    split at h
    · rename_i is
      obtain ⟨escape, after, escaped, h⟩ := h.of_bind
      obtain ⟨rfl, rfl⟩ := Gives.ok_iff.1 h
      exact is ▸ .escape (Escape.gives_read_iff.1 escaped)
    split at h
    · rename_i is
      obtain ⟨rfl, rfl⟩ := Gives.ok_iff.1 h
      exact is ▸ .any
    split at h
    · rename_i is
      obtain ⟨rfl, rfl⟩ := Gives.ok_iff.1 h
      exact is ▸ .atStart
    split at h
    · rename_i is
      obtain ⟨rfl, rfl⟩ := Gives.ok_iff.1 h
      exact is ▸ .atEnd
    · obtain ⟨rfl, rfl⟩ := Gives.ok_iff.1 h
      exact .char (by simp_all)
  · intro h
    generalize text : here.rest = s at h
    cases h with
    | any | atStart | atEnd => exact ⟨here, rfl, text⟩
    | bracket members =>
      exact .bind (CharClass.gives_read_iff.2 (text ▸ members)) fun after eq => eq ▸ .ok _ after
    | escape escaped =>
      exact .bind (Escape.gives_read_iff.2 (text ▸ escaped)) fun after eq => eq ▸ .ok _ after
    | char plain =>
      simp only [List.mem_cons, List.not_mem_nil, or_false, not_or] at plain
      obtain ⟨noBracket, noEscape, noDot, noStart, noEnd⟩ := plain
      rw [Reader.readAtom, if_neg noBracket, if_neg noEscape, if_neg noDot, if_neg noStart,
        if_neg noEnd]
      exact text ▸ .ok _ here

/-- An atom that is no group is a part with its quantifier; a test of the position has none. -/
theorem piece_of_simple {n : Nat} {c : Char} {atom part : Node} {s mid rest : List Char}
    (simple : Simple c s atom mid) (noBracket : c ∉ ['(', ')', '|'])
    (unquantified : Unquantified (c :: s)) (quantifier : Behind atom mid part rest) :
    Piece n (c :: s) part n rest := by
  have repeats (one : Atom n (c :: s) atom n mid) : Piece n (c :: s) part n rest := by
    cases quantifier with
    | once => exact .once one
    | repeated _ quantifier => exact .repeated one quantifier
  cases simple with
  | any => exact repeats .any
  | bracket members => exact repeats (.bracket members)
  | escape escaped => exact repeats (.escape escaped)
  | atStart =>
    cases quantifier with
    | once => exact .atStart
    | repeated repeatable => cases repeatable
  | atEnd =>
    cases quantifier with
    | once => exact .atEnd
    | repeated repeatable => cases repeatable
  | char plain =>
    obtain ⟨star, plus, question, brace⟩ := unquantified
    refine repeats (.literal ⟨?_, ?_⟩)
    · simp only [List.head?_cons, Option.mem_some_iff, List.mem_cons, List.not_mem_nil, or_false,
        not_or, reserved] at *
      simp_all
    · rintro rfl d next
      obtain ⟨t, rfl⟩ := List.head?_eq_some_iff.1 next
      exact brace d t rfl

/-- A group with its quantifier is a part; a test of what follows has none. -/
theorem piece_of_opening {n m k : Nat} {kind : GroupKind} {branches : List Node} {part : Node}
    {s inner behind rest : List Char} (opening : Opening n s kind m inner)
    (body : Alternation m inner branches k (')' :: behind))
    (quantifier : Behind (kind.enclose (ofBranches branches)) behind part rest) :
    Piece n ('(' :: s) part k rest := by
  have repeats {atom : Node} (one : Atom n ('(' :: s) atom k behind)
      (quantifier : Behind atom behind part rest) : Piece n ('(' :: s) part k rest := by
    cases quantifier with
    | once => exact .once one
    | repeated _ quantifier => exact .repeated one quantifier
  cases opening with
  | group => exact repeats (.group body) quantifier
  | capture => exact repeats (.capture body) quantifier
  | ahead =>
    cases quantifier with
    | once => exact .ahead body
    | repeated repeatable => cases repeatable
  | notAhead =>
    cases quantifier with
    | once => exact .notAhead body
    | repeated repeatable => cases repeatable

mutual

theorem Alternation.le {n m : Nat} {branches : List Node} {s rest : List Char}
    (h : Alternation n s branches m rest) : n ≤ m := by
  match h with
  | .last branch => exact branch.le
  | .bar branch others => exact Nat.le_trans branch.le others.le

theorem Sequence.le {n m : Nat} {parts : List Node} {s rest : List Char}
    (h : Sequence n s parts m rest) : n ≤ m := by
  match h with
  | .nil => exact Nat.le_refl _
  | .cons first others => exact Nat.le_trans first.le others.le

theorem Piece.le {n m : Nat} {part : Node} {s rest : List Char}
    (h : Piece n s part m rest) : n ≤ m := by
  match h with
  | .atStart | .atEnd => exact Nat.le_refl _
  | .ahead body | .notAhead body => exact body.le
  | .once one | .repeated one _ => exact one.le

theorem Atom.le {n m : Nat} {atom : Node} {s rest : List Char}
    (h : Atom n s atom m rest) : n ≤ m := by
  match h with
  | .any | .bracket _ | .escape _ | .literal _ => exact Nat.le_refl _
  | .capture body => exact Nat.le_trans (Nat.le_succ n) body.le
  | .group body => exact body.le

end

end Grammar

/-! ## Drafts -/

namespace Draft

/-- All branches, the one being read included. -/
def nodes (draft : Draft) : List Node := (draft.branch :: draft.branches).reverse

theorem close_eq_ofBranches (draft : Draft) : draft.close = ofBranches draft.nodes := by
  obtain ⟨branches, parts⟩ := draft
  unfold close nodes
  cases branches with
  | nil => rfl
  | cons other branches =>
    dsimp only
    unfold ofBranches
    split
    · rename_i single
      have length := congrArg List.length single
      simp at length
    · rfl

end Draft

namespace Reader

/-! ## Following a derivation -/

/-- Says that reading some characters leads from one reader to another. -/
inductive Leads : Reader → Reader → Prop where
  | refl (r : Reader) : Leads r r
  | step {r s t : Reader} {c : Char} {after : Cursor} (next : r.here.next? = some (c, after))
    (read : r.step c after = .ok s) (rest : Leads s t) : Leads r t

theorem Leads.trans {r s t : Reader} (first : Leads r s) (second : Leads s t) : Leads r t := by
  induction first with
  | refl => exact second
  | step next read _ ih => exact .step next read (ih second)

theorem run_of_next {r s : Reader} {c : Char} {after : Cursor}
    (next : r.here.next? = some (c, after)) (read : r.step c after = .ok s) : r.run = s.run := by
  conv => lhs; unfold run
  split
  · rename_i ends
    cases next.symm.trans ends
  · rename_i found
    cases next.symm.trans found
    split
    · rename_i failed
      cases read.symm.trans failed
    · rename_i succeeded
      cases read.symm.trans succeeded
      rfl

theorem Leads.run_eq {r s : Reader} (h : Leads r s) : r.run = s.run := by
  induction h with
  | refl => rfl
  | step next read _ ih => exact (run_of_next next read).trans ih

theorem run_of_end {r : Reader} (h : r.here.rest = []) : r.run = r.finish := by
  have ends := Cursor.next_eq_none_iff.2 h
  unfold run
  split
  · rfl
  · rename_i found
    cases ends.symm.trans found

/-- Says that the reader comes to stand in front of `rest` with this draft and so many groups, and
in the same group as before. -/
def ReadsOn (r : Reader) (draft : Draft) (groups : Nat) (rest : List Char) : Prop :=
  ∃ s, Leads r s ∧ s.here.rest = rest ∧ s.draft = draft ∧ s.opened = r.opened ∧ s.groups = groups

variable {r : Reader} {n m k : Nat} {s inner behind mid rest : List Char} {draft : Draft}

theorem ReadsOn.refl (r : Reader) : r.ReadsOn r.draft r.groups r.here.rest :=
  ⟨r, .refl r, rfl, rfl, rfl, rfl⟩

theorem ReadsOn.trans {draft' : Draft} (first : r.ReadsOn draft n mid)
    (second : ∀ t : Reader, t.here.rest = mid → t.draft = draft → t.groups = n →
      t.ReadsOn draft' m rest) : r.ReadsOn draft' m rest := by
  obtain ⟨t, leads, text, drafted, same, count⟩ := first
  obtain ⟨u, leads', text', drafted', same', count'⟩ := second t text drafted count
  exact ⟨u, leads.trans leads', text', drafted', same'.trans same, count'⟩

theorem step_close {group : OpenGroup} {opened : List OpenGroup} {part : Node}
    (text : r.here.rest = ')' :: behind) (inside : r.opened = group :: opened)
    (quantifier : Behind (group.kind.enclose r.draft.close) behind part rest) :
    ∃ t, Leads r t ∧ t.here.rest = rest ∧ t.draft = group.outer.push part ∧ t.opened = opened ∧
      t.groups = r.groups := by
  obtain ⟨after, read, eq⟩ :=
    (@gives_readBehind_iff _ _ group.offset (r.here.advance ')' behind) _).2 quantifier
  have closes : r.step ')' (r.here.advance ')' behind) =
      .ok { r with here := after, opened, draft := group.outer.push part } := by
    rw [step, if_pos rfl, closeGroup, inside]
    dsimp only
    rw [read]
    rfl
  exact ⟨_, .step (Cursor.next_of_rest text) closes (.refl _), eq, rfl, rfl, rfl⟩

theorem readsOn_bar (text : r.here.rest = '|' :: rest) : r.ReadsOn r.draft.bar r.groups rest :=
  ⟨_, .step (Cursor.next_of_rest text) rfl (.refl _), rfl, rfl, rfl, rfl⟩

theorem step_open {kind : GroupKind} (text : r.here.rest = '(' :: s)
    (opening : Opening r.groups s kind m inner) :
    ∃ t, Leads r t ∧ t.here.rest = inner ∧ t.draft = .empty ∧ t.groups = m ∧
      t.opened = ⟨r.here.offset, kind, r.draft⟩ :: r.opened := by
  obtain ⟨after, read, eq⟩ :=
    (@readOpening_iff r.here.offset _ _ (r.here.advance '(' s) _ _).2 opening
  have unquantified : startsAt r.here = false :=
    startsAt_eq_false_iff.2 (text ▸ unquantified_cons (by decide))
  have opens : r.step '(' (r.here.advance '(' s) = .ok { r with
      here := after
      groups := m
      draft := .empty
      opened := ⟨r.here.offset, kind, r.draft⟩ :: r.opened } := by
    rw [step, if_neg (by decide), if_neg (by decide), unquantified, if_neg Bool.false_ne_true,
      if_pos rfl, openGroup, read]
    rfl
  exact ⟨_, .step (Cursor.next_of_rest text) opens (.refl _), eq, rfl, rfl, rfl⟩

/-- A part that is no group is read in one step. -/
theorem readsOn_part {c : Char} {atom part : Node} (text : r.here.rest = c :: s)
    (simple : Simple c s atom mid) (noBracket : c ∉ ['(', ')', '|'])
    (unquantified : Unquantified (c :: s)) (quantifier : Behind atom mid part rest) :
    r.ReadsOn (r.draft.push part) r.groups rest := by
  obtain ⟨after, readAtom, rfl⟩ :=
    (@gives_readAtom_iff c r.here.offset (r.here.advance c s) atom mid).2 simple
  obtain ⟨last, readBehind, eq⟩ :=
    (@gives_readBehind_iff _ _ r.here.offset after _).2 quantifier
  simp only [List.mem_cons, List.not_mem_nil, or_false, not_or] at noBracket
  obtain ⟨noOpen, noClose, noBar⟩ := noBracket
  have steps : r.step c (r.here.advance c s) = .ok { r with
      here := last
      draft := r.draft.push part
      references := referenceOf r.here.offset atom ++ r.references } := by
    rw [step, if_neg noClose, if_neg noBar, startsAt_eq_false_iff.2 (text ▸ unquantified),
      if_neg Bool.false_ne_true, if_neg noOpen]
    refine bind_eq_ok_iff.2 ⟨(atom, after), readAtom, ?_⟩
    exact bind_eq_ok_iff.2 ⟨(part, last), readBehind, rfl⟩
  exact ⟨_, .step (Cursor.next_of_rest text) steps (.refl _), eq, rfl, rfl, rfl⟩

/-- A group is read with its quantifier if what it encloses is read. -/
theorem readsOn_group {kind : GroupKind} {branches : List Node} {part : Node}
    (text : r.here.rest = '(' :: s) (opening : Opening r.groups s kind m inner)
    (body : ∀ t : Reader, t.here.rest = inner → t.groups = m → t.draft = .empty →
      ∃ draft, t.ReadsOn draft k (')' :: behind) ∧ draft.nodes = branches)
    (quantifier : Behind (kind.enclose (ofBranches branches)) behind part rest) :
    r.ReadsOn (r.draft.push part) k rest := by
  obtain ⟨t, opens, within, empty, count, inside⟩ := step_open text opening
  obtain ⟨_, ⟨u, reads, close, rfl, same, count'⟩, rfl⟩ := body t within count empty
  rw [← Draft.close_eq_ofBranches] at quantifier
  obtain ⟨v, closes, after, draft, outside, count''⟩ :=
    step_close close (same.trans inside) quantifier
  exact ⟨v, (opens.trans reads).trans closes, after, draft, outside, count''.trans count'⟩

end Reader

namespace Grammar

open Reader

theorem Atom.repeatable {n m : Nat} {atom : Node} {s rest : List Char}
    (h : Atom n s atom m rest) : atom.repeatable = true := by
  cases h with
  | @escape _ escape => cases escape <;> rfl
  | any | capture | group | bracket | literal => rfl

mutual

theorem Alternation.readsOn {n m : Nat} {branches : List Node} {s rest : List Char}
    (h : Alternation n s branches m rest) (few : m ≤ maxGroups) (behind : Unquantified rest)
    {r : Reader} (text : r.here.rest = s) (count : r.groups = n) (fresh : r.draft.parts = []) :
    ∃ draft, r.ReadsOn draft m rest ∧ draft.nodes = r.draft.branches.reverse ++ branches := by
  match h with
  | .last branch =>
    refine ⟨_, branch.readsOn few behind text count, ?_⟩
    simp [Draft.nodes, Draft.branch, fresh]
  | .bar branch others =>
    obtain ⟨t, reads, bar, drafted, same, count⟩ :=
      branch.readsOn (Nat.le_trans others.le few) (unquantified_cons (by decide)) text count
    obtain ⟨u, reads', text', drafted', same', count'⟩ := t.readsOn_bar bar
    obtain ⟨draft, ⟨v, reads'', text'', drafted'', same'', count''⟩, nodes⟩ :=
      others.readsOn few behind text' (count'.trans count) (by rw [drafted']; rfl)
    refine ⟨draft, ⟨v, (reads.trans reads').trans reads'', text'', drafted'',
      (same''.trans same').trans same, count''⟩, ?_⟩
    rw [nodes, drafted', drafted]
    simp [Draft.bar, Draft.branch, fresh]

theorem Sequence.readsOn {n m : Nat} {parts : List Node} {s rest : List Char}
    (h : Sequence n s parts m rest) (few : m ≤ maxGroups) (behind : Unquantified rest)
    {r : Reader} (text : r.here.rest = s) (count : r.groups = n) :
    r.ReadsOn { r.draft with parts := parts.reverse ++ r.draft.parts } m rest := by
  match h with
  | .nil => exact text ▸ count ▸ .refl r
  | .cons first others =>
    have begun := first.readsOn (Nat.le_trans others.le few) (others.unquantified behind) text count
    refine begun.trans ?_
    intro t text drafted count
    have reads := others.readsOn few behind text count
    rw [drafted] at reads
    simpa [Draft.push] using reads

theorem Piece.readsOn {n m : Nat} {part : Node} {s rest : List Char}
    (h : Piece n s part m rest) (few : m ≤ maxGroups) (behind : Unquantified rest)
    {r : Reader} (text : r.here.rest = s) (count : r.groups = n) :
    r.ReadsOn (r.draft.push part) m rest := by
  match h with
  | .atStart =>
    exact count ▸ readsOn_part text .atStart (by decide) (unquantified_cons (by decide))
      (.once behind)
  | .atEnd =>
    exact count ▸ readsOn_part text .atEnd (by decide) (unquantified_cons (by decide))
      (.once behind)
  | .ahead body =>
    refine readsOn_group text .ahead ?_ (.once behind)
    intro t text count' fresh
    simpa [fresh, Draft.empty] using body.readsOn few (unquantified_cons (by decide)) text
      (count'.trans count) (by rw [fresh]; rfl)
  | .notAhead body =>
    refine readsOn_group text .notAhead ?_ (.once behind)
    intro t text count' fresh
    simpa [fresh, Draft.empty] using body.readsOn few (unquantified_cons (by decide)) text
      (count'.trans count) (by rw [fresh]; rfl)
  | .once one => exact one.readsOn few (.once behind) text count
  | .repeated one quantifier =>
    exact one.readsOn few (.repeated one.repeatable quantifier behind) text count

theorem Atom.readsOn {n m : Nat} {atom part : Node} {s mid rest : List Char}
    (h : Atom n s atom m mid) (few : m ≤ maxGroups) (quantifier : Behind atom mid part rest)
    {r : Reader} (text : r.here.rest = s) (count : r.groups = n) :
    r.ReadsOn (r.draft.push part) m rest := by
  match h with
  | .any =>
    exact count ▸ readsOn_part text .any (by decide) (unquantified_cons (by decide)) quantifier
  | .capture body =>
    refine readsOn_group text (.capture ?_ ?_) ?_ (count ▸ quantifier)
    · exact (body.unquantified (unquantified_cons (by decide))).2.2.1
    · exact count ▸ Nat.le_trans body.le few
    intro t text count' fresh
    simpa [fresh, Draft.empty] using body.readsOn few (unquantified_cons (by decide)) text
      (count'.trans (congrArg _ count)) (by rw [fresh]; rfl)
  | .group body =>
    refine readsOn_group text .group ?_ quantifier
    intro t text count' fresh
    simpa [fresh, Draft.empty] using body.readsOn few (unquantified_cons (by decide)) text
      (count'.trans count) (by rw [fresh]; rfl)
  | .bracket members =>
    exact count ▸ readsOn_part text (.bracket members) (by decide)
      (unquantified_cons (by decide)) quantifier
  | .escape escaped =>
    exact count ▸ readsOn_part text (.escape escaped) (by decide)
      (unquantified_cons (by decide)) quantifier
  | .literal plain =>
    exact count ▸ readsOn_part text (.char (plain.not_mem (by decide)))
      (plain.not_mem (by decide)) plain.unquantified quantifier

end

/-! ## What a draft has been derived from -/

/-- Says that a draft has been derived from the text `s`, as far as `rest`. -/
inductive Drafted (n : Nat) (s : List Char) : Draft → Nat → List Char → Prop where
  | empty : Drafted n s .empty n s
  | push {draft : Draft} {part : Node} {m k : Nat} {mid rest : List Char}
    (before : Drafted n s draft m mid) (last : Piece m mid part k rest) :
    Drafted n s (draft.push part) k rest
  | bar {draft : Draft} {m : Nat} {rest : List Char} (before : Drafted n s draft m ('|' :: rest)) :
    Drafted n s draft.bar m rest

theorem Alternation.cons {n m k : Nat} {part : Node} {parts branches : List Node}
    {s mid rest : List Char} (first : Piece n s part m mid)
    (h : Alternation m mid (.sequence parts :: branches) k rest) :
    Alternation n s (.sequence (part :: parts) :: branches) k rest := by
  cases h with
  | last branch => exact .last (.cons first branch)
  | bar branch others => exact .bar (.cons first branch) others

/-- Whatever derives the rest of the branch and the further branches completes the draft. -/
theorem Drafted.append {n m k : Nat} {draft : Draft} {parts branches : List Node}
    {s mid rest : List Char} (drafted : Drafted n s draft m mid)
    (further : Alternation m mid (.sequence parts :: branches) k rest) :
    Alternation n s
      (draft.branches.reverse ++ .sequence (draft.parts.reverse ++ parts) :: branches) k rest := by
  induction drafted generalizing parts branches with
  | empty => exact further
  | push before last ih =>
    have longer := further.cons last
    simpa [Draft.push] using ih longer
  | bar before ih => simpa [Draft.bar, Draft.branch] using ih (.bar .nil further)

theorem Drafted.alternation {n m : Nat} {draft : Draft} {s rest : List Char}
    (drafted : Drafted n s draft m rest) : Alternation n s draft.nodes m rest := by
  simpa [Draft.nodes, Draft.branch] using drafted.append (.last .nil)

/-- Says that the groups around a draft have opened one in the other, each where it says, so that
the draft begins after `n` groups in front of `s`. -/
inductive Surrounded (text : List Char) : List OpenGroup → Nat → List Char → Prop where
  | outermost : Surrounded text [] 0 text
  | within {opened : List OpenGroup} {group : OpenGroup} {n m k : Nat} {s mid inner : List Char}
    (around : Surrounded text opened n s) (before : Drafted n s group.outer m ('(' :: mid))
    (place : (⟨0, text⟩ : Cursor).Reaches ⟨group.offset, '(' :: mid⟩)
    (opening : Opening m mid group.kind k inner) : Surrounded text (group :: opened) k inner

end Grammar

namespace Reader

/-- Says that the drafts have been derived from what has been read of `text`. -/
structure Derived (text : List Char) (r : Reader) : Prop where
  place : (⟨0, text⟩ : Cursor).Reaches r.here
  drafts : ∃ n s, Surrounded text r.opened n s ∧ Drafted n s r.draft r.groups r.here.rest
  few : r.groups ≤ maxGroups

theorem derived_ofString (text : String) : Derived text.toList (ofString text) :=
  ⟨.refl _, ⟨0, text.toList, .outermost, .empty⟩, Nat.zero_le _⟩

variable {text : List Char} {r r' : Reader} {c : Char} {after : Cursor}

theorem Derived.closeGroup (h : r.Derived text) (next : r.here.next? = some (')', after))
    (closes : r.closeGroup after = .ok r') : r'.Derived text := by
  have here := Cursor.rest_of_next next
  obtain ⟨place, ⟨n, s, around, drafted⟩, few⟩ := h
  unfold Reader.closeGroup at closes
  cases inside : r.opened with
  | nil =>
    rw [inside] at closes
    cases closes
  | cons group opened =>
    rw [inside] at around closes
    obtain ⟨⟨part, last⟩, quantifier, eq⟩ := bind_eq_ok_iff.1 closes
    cases eq
    have place := (place.trans (Cursor.reaches_next next)).trans (reaches_readBehind quantifier)
    have behind := gives_readBehind_iff.1 ⟨last, quantifier, rfl⟩
    rw [Draft.close_eq_ofBranches] at behind
    cases around with
    | within around before _ opening =>
      have body := (here ▸ drafted).alternation
      exact ⟨place, ⟨_, _, around, before.push (piece_of_opening opening body behind)⟩, few⟩

theorem Derived.openGroup (h : r.Derived text) (next : r.here.next? = some ('(', after))
    (opens : r.openGroup after = .ok r') : r'.Derived text := by
  have here := Cursor.rest_of_next next
  obtain ⟨place, ⟨n, s, around, drafted⟩, few⟩ := h
  obtain ⟨⟨kind, groups, last⟩, reads, eq⟩ := bind_eq_ok_iff.1 opens
  cases eq
  have opening := readOpening_iff.1 ⟨last, reads, rfl⟩
  have inside := (place.trans (Cursor.reaches_next next)).trans (reaches_readOpening reads)
  exact ⟨inside, ⟨_, _, .within around (here ▸ drafted) (here ▸ place) opening, .empty⟩,
    opening.few few⟩

theorem Derived.readPart (h : r.Derived text) (next : r.here.next? = some (c, after))
    (noBracket : c ∉ ['(', ')', '|']) (unquantified : startsAt r.here = false)
    (reads : r.readPart c after = .ok r') : r'.Derived text := by
  have here := Cursor.rest_of_next next
  obtain ⟨place, ⟨n, s, around, drafted⟩, few⟩ := h
  obtain ⟨⟨atom, mid⟩, readAtom, reads⟩ := bind_eq_ok_iff.1 reads
  obtain ⟨⟨part, last⟩, readBehind, eq⟩ := bind_eq_ok_iff.1 reads
  cases eq
  have place := (place.trans (Cursor.reaches_next next)).trans
    ((reaches_readAtom readAtom).trans (reaches_readBehind readBehind))
  have simple := gives_readAtom_iff.1 ⟨mid, readAtom, rfl⟩
  have behind := gives_readBehind_iff.1 ⟨last, readBehind, rfl⟩
  have unquantified := here ▸ startsAt_eq_false_iff.1 unquantified
  have piece := @piece_of_simple r.groups _ _ _ _ _ _ simple noBracket unquantified behind
  exact ⟨place, ⟨_, _, around, (here ▸ drafted).push piece⟩, few⟩

theorem Derived.step (h : r.Derived text) (next : r.here.next? = some (c, after))
    (reads : r.step c after = .ok r') : r'.Derived text := by
  unfold Reader.step at reads
  split at reads
  · rename_i is
    exact h.closeGroup (is ▸ next) reads
  · split at reads
    · rename_i is
      cases reads
      have here := Cursor.rest_of_next next
      obtain ⟨place, ⟨n, s, around, drafted⟩, few⟩ := h
      have place := place.trans (Cursor.reaches_next next)
      exact ⟨place, ⟨n, s, around, .bar (is ▸ here ▸ drafted)⟩, few⟩
    · split at reads
      · cases reads
      · rename_i unquantified
        split at reads
        · rename_i is
          exact h.openGroup (is ▸ next) reads
        · exact h.readPart next (by simp_all) (eq_false_of_ne_true unquantified) reads

end Reader

/-! ## The references that are noted -/

namespace Draft

/-- The groups that the draft refers to. -/
def references (draft : Draft) : List Nat :=
  Node.referencesOfAll draft.parts ++ Node.referencesOfAll draft.branches

variable {i : Nat} {draft : Draft} {part : Node}

theorem mem_references_push :
    i ∈ (draft.push part).references ↔ i ∈ part.references ∨ i ∈ draft.references := by
  simp [references, push, Node.referencesOfAll]

theorem mem_references_branch :
    i ∈ draft.branch.references ↔ i ∈ Node.referencesOfAll draft.parts := by
  simp [branch, Node.references, Node.referencesOfAll_eq_flatMap]

theorem mem_references_bar : i ∈ draft.bar.references ↔ i ∈ draft.references := by
  simp [references, bar, Node.referencesOfAll, mem_references_branch]

theorem mem_references_close : i ∈ draft.close.references ↔ i ∈ draft.references := by
  unfold close references
  split
  · rename_i single
    simp [single, mem_references_branch, Node.referencesOfAll]
  · rw [Node.references, Node.referencesOfAll_eq_flatMap, List.flatMap_reverse]
    simp [mem_references_branch, Node.referencesOfAll_eq_flatMap, or_comm]

end Draft

theorem GroupKind.references_enclose (kind : GroupKind) (body : Node) :
    (kind.enclose body).references = body.references := by
  cases kind <;> rfl

theorem Quantifier.Behind.references_eq {atom part : Node} {s rest : List Char}
    (h : Behind atom s part rest) : part.references = atom.references := by
  cases h <;> rfl

theorem Grammar.Simple.references_eq {c : Char} {atom : Node} {s rest : List Char}
    (h : Simple c s atom rest) (offset : Nat) :
    (Reader.referenceOf offset atom).map Reference.index = atom.references := by
  cases h with
  | @escape escape => cases escape <;> rfl
  | any | atStart | atEnd | bracket | char => rfl

namespace Reader

/-- Says that just the references of the drafts have been noted. -/
def Noted (r : Reader) : Prop :=
  ∀ i, i ∈ r.references.map Reference.index ↔
    i ∈ r.draft.references ∨ ∃ group ∈ r.opened, i ∈ group.outer.references

theorem noted_ofString (text : String) : (ofString text).Noted := by
  simp [Noted, ofString, Draft.empty, Draft.references, Node.referencesOfAll]

variable {text : List Char} {r r' : Reader} {c : Char} {after : Cursor}

theorem Noted.closeGroup (h : r.Noted) (closes : r.closeGroup after = .ok r') : r'.Noted := by
  unfold Reader.closeGroup at closes
  cases inside : r.opened with
  | nil =>
    rw [inside] at closes
    cases closes
  | cons group opened =>
    rw [inside] at closes
    obtain ⟨⟨part, last⟩, quantifier, eq⟩ := bind_eq_ok_iff.1 closes
    cases eq
    have behind := gives_readBehind_iff.1 ⟨last, quantifier, rfl⟩
    have same : part.references = r.draft.close.references :=
      behind.references_eq.trans (group.kind.references_enclose _)
    intro i
    simp only [h i, inside, Draft.mem_references_push, same, Draft.mem_references_close,
      List.mem_cons, exists_eq_or_imp, or_assoc]

theorem Noted.openGroup (h : r.Noted) (opens : r.openGroup after = .ok r') : r'.Noted := by
  obtain ⟨⟨kind, groups, last⟩, -, eq⟩ := bind_eq_ok_iff.1 opens
  cases eq
  intro i
  simp [h i, Draft.empty, Draft.references, Node.referencesOfAll]

theorem Noted.readPart (h : r.Noted) (reads : r.readPart c after = .ok r') : r'.Noted := by
  obtain ⟨⟨atom, mid⟩, readAtom, reads⟩ := bind_eq_ok_iff.1 reads
  obtain ⟨⟨part, last⟩, readBehind, eq⟩ := bind_eq_ok_iff.1 reads
  cases eq
  have simple := gives_readAtom_iff.1 ⟨mid, readAtom, rfl⟩
  have behind := gives_readBehind_iff.1 ⟨last, readBehind, rfl⟩
  intro i
  rw [List.map_append, List.mem_append, simple.references_eq, ← behind.references_eq, h i,
    Draft.mem_references_push, or_assoc]

theorem Noted.step (h : r.Noted) (reads : r.step c after = .ok r') : r'.Noted := by
  unfold Reader.step at reads
  split at reads
  · exact h.closeGroup reads
  split at reads
  · cases reads
    intro i
    rw [h i, Draft.mem_references_bar]
  split at reads
  · cases reads
  split at reads
  · exact h.openGroup reads
  · exact h.readPart reads

theorem Leads.noted (leads : Leads r r') (h : r.Noted) : r'.Noted := by
  induction leads with
  | refl => exact h
  | step _ read _ ih => exact ih (h.step read)

/-! ## The whole text -/

theorem finish_eq_ok_iff {pattern : Pattern} :
    r.finish = .ok pattern ↔
      r.opened = [] ∧ (∀ i ∈ r.references.map Reference.index, i ≤ r.groups) ∧
        pattern = ⟨r.draft.close, r.groups⟩ := by
  unfold finish
  cases r.opened with
  | cons => exact ⟨nofun, nofun⟩
  | nil =>
    cases unknown : r.references.reverse.find? fun reference => r.groups < reference.index with
    | some reference =>
      have large := List.find?_some unknown
      have mem := List.mem_of_find?_eq_some unknown
      refine ⟨nofun, ?_⟩
      rintro ⟨-, known, -⟩
      have := known _ (List.mem_map.2 ⟨reference, List.mem_reverse.1 mem, rfl⟩)
      simp at large
      omega
    | none =>
      have known : ∀ i ∈ r.references.map Reference.index, i ≤ r.groups := by
        simpa using unknown
      dsimp only
      rw [Except.ok.injEq, eq_comm]
      exact ⟨fun eq => ⟨rfl, known, eq⟩, fun h => h.2.2⟩

theorem derives_of_finish {pattern : Pattern} (derived : r.Derived text) (noted : r.Noted)
    (ends : r.here.rest = []) (h : r.finish = .ok pattern) : Derives text pattern := by
  obtain ⟨outermost, known, rfl⟩ := finish_eq_ok_iff.1 h
  obtain ⟨-, ⟨n, s, around, drafted⟩, few⟩ := derived
  rw [outermost] at around
  cases around
  refine ⟨⟨_, r.draft.close_eq_ofBranches, ends ▸ drafted.alternation⟩, few, ?_⟩
  intro i mem
  exact known i ((noted i).2 (.inl (Draft.mem_references_close.1 mem)))

theorem derives_of_run {pattern : Pattern} (derived : r.Derived text) (noted : r.Noted)
    (h : r.run = .ok pattern) : Derives text pattern := by
  fun_induction run r with
  | case1 r ends => exact derives_of_finish derived noted (Cursor.next_eq_none_iff.1 ends) h
  | case2 => cases h
  | case3 r c after next s read ih => exact ih (derived.step next read) (noted.step read) h

end Reader

/-- A text is read as just the pattern that the grammar derives from it. -/
theorem Pattern.parse_eq_ok_iff_derives {text : String} {pattern : Pattern} :
    Pattern.parse text = .ok pattern ↔ Derives text.toList pattern := by
  constructor
  · exact Reader.derives_of_run (Reader.derived_ofString text) (Reader.noted_ofString text)
  · rintro ⟨⟨branches, root, derivation⟩, few, known⟩
    obtain ⟨draft, ⟨r, leads, ends, rfl, outermost, count⟩, nodes⟩ :=
      @Alternation.readsOn _ _ _ _ _ derivation few (by simp [Unquantified])
        (Reader.ofString text) rfl rfl rfl
    have noted := leads.noted (Reader.noted_ofString text)
    have close : r.draft.close = pattern.root := by
      rw [Draft.close_eq_ofBranches, nodes, root]
      rfl
    rw [Pattern.parse, leads.run_eq, Reader.run_of_end ends, Reader.finish_eq_ok_iff]
    refine ⟨outermost, ?_, ?_⟩
    · intro i mem
      rcases (noted i).1 mem with here | ⟨group, within, -⟩
      · rw [count]
        exact known i (close ▸ Draft.mem_references_close.2 here)
      · rw [outermost] at within
        cases within
    · rw [close, count]

/-- Just the texts that are patterns by the grammar are accepted: none is cut short and none is
refused. -/
theorem Pattern.parses_iff_derivable (text : String) :
    (∃ pattern, Pattern.parse text = .ok pattern) ↔ ∃ pattern, Derives text.toList pattern :=
  exists_congr fun _ => parse_eq_ok_iff_derives

end RegexEngine
