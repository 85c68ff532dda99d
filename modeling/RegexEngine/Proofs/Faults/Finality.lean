import Mathlib
import RegexEngine.Proofs.Faults.Causes
import RegexEngine.Proofs.Grammar.Composition

/-!
# Faults that no further text mends

A pattern that ends too early may be mended by what follows, and a reference to a group that has not
come may be met by one that comes later. All other faults lie in what has been read already: the
pattern fails with the same fault whatever follows (`Pattern.parse_append_of_isFinal`).

The readers look ahead, so what they give may change with more text behind, but only if they have
come to the end, or to a character in front of it that waits for the one behind (`Brink`). A reader
that stands on the brink finds no final fault any more. Everywhere else it gives the same for the
longer text: what the grammar derives it derives with more text behind (`Gives.extend`), and a final
fault was found without regard to the end.
-/

namespace RegexEngine

open Grammar

/-! ## A text that goes on -/

namespace Cursor

/-- The same position in the text that goes on with `t`. -/
def extend (here : Cursor) (t : List Char) : Cursor := ⟨here.offset, here.rest ++ t⟩

@[simp] theorem offset_extend (here : Cursor) (t : List Char) :
    (here.extend t).offset = here.offset := rfl

@[simp] theorem rest_extend (here : Cursor) (t : List Char) :
    (here.extend t).rest = here.rest ++ t := rfl

theorem next_extend {here after : Cursor} {c : Char} (h : here.next? = some (c, after))
    (t : List Char) : (here.extend t).next? = some (c, after.extend t) := by
  unfold next? at h
  split at h
  · cases h
  · rename_i rest text
    cases h
    exact next_of_rest (congrArg (· ++ t) text)

theorem Reaches.extend {a b : Cursor} (h : a.Reaches b) (t : List Char) :
    (a.extend t).Reaches (b.extend t) := by
  obtain ⟨between, rest, offset⟩ := h
  exact ⟨between, by simp [rest], offset⟩

/-- Positions behind one another are told apart by what follows them. -/
theorem Reaches.eq_of_rest_eq {a b c : Cursor} (hb : a.Reaches b) (hc : a.Reaches c)
    (same : b.rest = c.rest) : b = c := by
  obtain ⟨between, rest, offset⟩ := hb
  obtain ⟨between', rest', offset'⟩ := hc
  obtain ⟨offset_b, rest_b⟩ := b
  obtain ⟨offset_c, rest_c⟩ := c
  obtain rfl : rest_b = rest_c := same
  obtain rfl := List.append_cancel_right (rest.symm.trans rest')
  obtain rfl : offset_b = offset_c := offset.trans offset'.symm
  rfl

end Cursor

/-- A reader that can give the same for the longer text gives it at the same position. -/
theorem Gives.extend {α : Type} {t : List Char} {result : Except PatternError (α × Cursor)} {x : α}
    {here after : Cursor} (h : Gives result x (after.rest ++ t)) (forward : here.Reaches after)
    (forward' : ∀ {y last}, result = .ok (y, last) → (here.extend t).Reaches last) :
    result = .ok (x, after.extend t) := by
  obtain ⟨last, eq, rest⟩ := h
  obtain rfl := (forward.extend t).eq_of_rest_eq (forward' eq) rest.symm
  exact eq

/-! ## Final faults -/

/-- Whether a fault of this cause is there whatever follows. -/
def PatternError.Cause.isFinal : Cause → Bool
  | .reversedRange _ _ | .danglingQuantifier | .strayClose | .unknownEscape _ => true
  | .unknownBackreference index => index == 0
  | .unclosedGroup | .tooManyGroups | .incompleteEscape | .unclosedClass | .badRepetition
  | .unknownGroup | .tooLarge => false

variable {e : PatternError}

/-! ## Escapes and classes -/

namespace Escape

theorem readHexDigit_extend {start value : Nat} {here after : Cursor}
    (h : readHexDigit start here = .ok (value, after)) (t : List Char) :
    readHexDigit start (here.extend t) = .ok (value, after.extend t) := by
  obtain ⟨c, hex, text⟩ := gives_readHexDigit_iff.1 ⟨after, h, rfl⟩
  exact (gives_readHexDigit_iff.2 ⟨c, hex, congrArg (· ++ t) text⟩).extend
    (reaches_readHexDigit h) reaches_readHexDigit

theorem readHexDigit_extend_of_isFinal {start : Nat} {here : Cursor}
    (h : readHexDigit start here = .error e) (final : e.cause.isFinal = true) (t : List Char) :
    readHexDigit start (here.extend t) = .error e := by
  unfold readHexDigit at h ⊢
  split at h
  · cases h
    cases final
  · rename_i c after next
    rw [Cursor.next_extend next]
    dsimp only
    split at h
    · exact h
    · cases h

theorem read_extend {start : Nat} {here after : Cursor} {escape : Escape}
    (h : read start here = .ok (escape, after)) (t : List Char) :
    read start (here.extend t) = .ok (escape, after.extend t) :=
  (gives_read_iff.2 ((escaped_of_read ⟨after, h, rfl⟩).append t)).extend
    (reaches_read h) reaches_read

theorem read_extend_of_isFinal {start : Nat} {here : Cursor} (h : read start here = .error e)
    (final : e.cause.isFinal = true) (t : List Char) :
    read start (here.extend t) = .error e := by
  unfold read at h ⊢
  split at h
  · cases h
    cases final
  · rename_i c after next
    rw [Cursor.next_extend next]
    dsimp only
    split at h
    · rename_i isX
      rw [if_pos isX]
      rcases bind_eq_error_iff.1 h with failed | ⟨⟨high, mid⟩, first, h⟩
      · exact bind_eq_error_iff.2 (.inl (readHexDigit_extend_of_isFinal failed final t))
      refine bind_eq_error_iff.2 (.inr ⟨_, readHexDigit_extend first t, ?_⟩)
      rcases bind_eq_error_iff.1 h with failed | ⟨_, -, h⟩
      · exact bind_eq_error_iff.2 (.inl (readHexDigit_extend_of_isFinal failed final t))
      · cases h
    · rename_i notX
      rw [if_neg notX]
      split at h
      · cases h
      · repeat' split at h
        all_goals simp_all

end Escape

namespace CharClass

theorem readItem_extend {opened : Nat} {here after : Cursor} {item : ClassItem}
    (h : readItem opened here = .ok (item, after)) (t : List Char) :
    readItem opened (here.extend t) = .ok (item, after.extend t) :=
  (gives_readItem_iff.2 ((gives_readItem_iff.1 ⟨after, h, rfl⟩).append t)).extend
    (reaches_readItem h) reaches_readItem

theorem readItem_extend_of_isFinal {opened : Nat} {here : Cursor}
    (h : readItem opened here = .error e) (final : e.cause.isFinal = true) (t : List Char) :
    readItem opened (here.extend t) = .error e := by
  unfold readItem at h ⊢
  split at h
  · cases h
    cases final
  · rename_i c after next
    rw [Cursor.next_extend next]
    dsimp only
    split at h
    · rename_i backslash
      rw [if_pos backslash, Cursor.offset_extend]
      split at h
      · rename_i failed
        cases h
        rw [Escape.read_extend_of_isFinal failed final t]
      · cases h
      · cases h
      · rename_i read
        rw [Escape.read_extend read t]
        exact h
    · cases h

theorem behindHyphen_extend {here behind : Cursor} (h : behindHyphen? here = some behind)
    (t : List Char) : behindHyphen? (here.extend t) = some (behind.extend t) := by
  obtain ⟨joins, rfl⟩ := behindHyphen?_eq_some_iff.1 h
  refine behindHyphen?_eq_some_iff.2 ⟨joins.append t, ?_⟩
  obtain ⟨c, rest, text, -⟩ := joins
  simp [Cursor.extend, Cursor.advance, text]

theorem readMember_extend {opened : Nat} {here after : Cursor} {items : List ClassItem}
    (h : readMember opened here = .ok (items, after)) (settled : ¬ Brink '-' after.rest)
    (t : List Char) : readMember opened (here.extend t) = .ok (items, after.extend t) :=
  (gives_readMember_iff.2 ((member_of_readMember ⟨after, h, rfl⟩).append settled t)).extend
    (reaches_readMember h) reaches_readMember

theorem readMember_extend_of_isFinal {opened : Nat} {here : Cursor}
    (h : readMember opened here = .error e) (final : e.cause.isFinal = true) (t : List Char) :
    readMember opened (here.extend t) = .error e := by
  rcases bind_eq_error_iff.1 h with failed | ⟨⟨lower, mid⟩, first, h⟩
  · exact bind_eq_error_iff.2 (.inl (readItem_extend_of_isFinal failed final t))
  refine bind_eq_error_iff.2 (.inr ⟨_, readItem_extend first t, ?_⟩)
  dsimp only at h ⊢
  split at h
  · rename_i lo _ behind hyphen
    rw [behindHyphen_extend hyphen t]
    dsimp only
    rcases bind_eq_error_iff.1 h with failed | ⟨⟨upper, last⟩, second, h⟩
    · exact bind_eq_error_iff.2 (.inl (readItem_extend_of_isFinal failed final t))
    refine bind_eq_error_iff.2 (.inr ⟨_, readItem_extend second t, ?_⟩)
    dsimp only at h ⊢
    repeat' split at h
    all_goals simp_all
  · cases h

theorem readMembers_of_member {opened : Nat} {here after mid : Cursor} {c : Char}
    {items : List ClassItem} (next : here.next? = some (c, after)) (inside : c ≠ ']')
    (read : readMember opened here = .ok (items, mid)) :
    readMembers opened here =
      (readMembers opened mid).map fun (others, last) => (items ++ others, last) := by
  rw [readMembers, next]
  dsimp only
  rw [if_neg inside]
  split
  · rename_i failed
    cases read.symm.trans failed
  · rename_i succeeded
    cases read.symm.trans succeeded
    rfl

theorem readMembers_of_failed {opened : Nat} {here after : Cursor} {c : Char}
    (next : here.next? = some (c, after)) (inside : c ≠ ']')
    (failed : readMember opened here = .error e) : readMembers opened here = .error e := by
  rw [readMembers, next]
  dsimp only
  rw [if_neg inside]
  split
  · rename_i failed'
    exact failed'.symm.trans failed
  · rename_i read
    cases failed.symm.trans read

/-- On the brink the class is not closed any more. -/
theorem readMembers_of_brink {opened : Nat} {here : Cursor} (h : Brink '-' here.rest) :
    readMembers opened here = .error ⟨.unclosedClass, opened⟩ := by
  have ended {last : Cursor} (text : last.rest = []) :
      readMembers opened last = .error ⟨.unclosedClass, opened⟩ := by
    rw [readMembers, Cursor.next_eq_none_iff.2 text]
  rcases h with text | text
  · exact ended text
  · have hyphen : Member here.rest [.single '-'] [] := by
      rw [text]
      refine .alone (.raw (by decide)) ?_
      rintro c - ⟨_, _, ⟨⟩, -⟩
    obtain ⟨after, read, ends⟩ := (@gives_readMember_iff opened here _ _).2 hyphen
    rw [readMembers_of_member (Cursor.next_of_rest text) (by decide) read, ended ends]
    rfl

theorem settled_of_isFinal {opened : Nat} {here : Cursor}
    (h : readMembers opened here = .error e) (final : e.cause.isFinal = true) :
    ¬ Brink '-' here.rest := by
  intro brink
  cases (readMembers_of_brink brink).symm.trans h
  cases final

theorem readMembers_extend_of_isFinal {opened : Nat} {here : Cursor}
    (h : readMembers opened here = .error e) (final : e.cause.isFinal = true) (t : List Char) :
    readMembers opened (here.extend t) = .error e := by
  fun_induction readMembers opened here with
  | case1 =>
    cases h
    cases final
  | case2 => cases h
  | case3 here c after next inside e' failed =>
    cases h
    exact readMembers_of_failed (Cursor.next_extend next t) inside
      (readMember_extend_of_isFinal failed final t)
  | case4 here c after next inside items mid read ih =>
    rcases bind_eq_error_iff.1 h with failed | ⟨_, -, h⟩
    · have read := readMember_extend read (settled_of_isFinal failed final) t
      rw [readMembers_of_member (Cursor.next_extend next t) inside read, ih failed]
      rfl
    · cases h

theorem readNegation_extend {here : Cursor} (more : here.rest ≠ []) (t : List Char) :
    readNegation (here.extend t) = ((readNegation here).1, (readNegation here).2.extend t) := by
  obtain ⟨c, s, text⟩ := List.exists_cons_of_ne_nil more
  by_cases mark : c = '^'
  · subst mark
    rw [readNegation_of_marked text, readNegation_of_marked (congrArg (· ++ t) text)]
    rfl
  · rw [readNegation_of_unmarked (by simpa [text] using mark),
      readNegation_of_unmarked (by simpa [text] using mark)]

theorem read_extend_of_isFinal {opened : Nat} {here : Cursor}
    (h : read opened here = .error e) (final : e.cause.isFinal = true) (t : List Char) :
    read opened (here.extend t) = .error e := by
  have more : here.rest ≠ [] := by
    intro ends
    have unmarked : '^' ∉ here.rest.head? := by simp [ends]
    have unclosed : readMember opened here = .error ⟨.unclosedClass, opened⟩ := by
      rw [readMember, readItem, Cursor.next_eq_none_iff.2 ends]
      rfl
    rw [read, readNegation_of_unmarked unmarked] at h
    rcases bind_eq_error_iff.1 h with failed | ⟨_, first, -⟩
    · cases unclosed.symm.trans failed
      cases final
    · cases unclosed.symm.trans first
  rw [read, readNegation_extend more]
  unfold read at h
  generalize readNegation here = start at h ⊢
  rcases bind_eq_error_iff.1 h with failed | ⟨⟨items, mid⟩, first, h⟩
  · exact bind_eq_error_iff.2 (.inl (readMember_extend_of_isFinal failed final t))
  rcases bind_eq_error_iff.1 h with failed | ⟨_, -, h⟩
  · have first := readMember_extend first (settled_of_isFinal failed final) t
    refine bind_eq_error_iff.2 (.inr ⟨_, first, ?_⟩)
    exact bind_eq_error_iff.2 (.inl (readMembers_extend_of_isFinal failed final t))
  · cases h

end CharClass

/-! ## Quantifiers -/

namespace Quantifier

/-- Nothing makes a quantifier of what is none, except on the brink. -/
theorem Unquantified.append {s : List Char} (h : Unquantified s) (settled : ¬ Brink '{' s)
    (t : List Char) : Unquantified (s ++ t) := by
  obtain ⟨star, plus, question, brace⟩ := h
  rcases s with _ | ⟨a, s⟩
  · exact absurd (.inl rfl) settled
  refine ⟨star, plus, question, ?_⟩
  rintro d rest text
  rcases s with _ | ⟨b, s⟩
  · cases text
    exact absurd (.inr rfl) settled
  · cases text
    exact brace d s rfl

theorem startsAt_extend {here : Cursor} (h : startsAt here = true) (t : List Char) :
    startsAt (here.extend t) = true := by
  unfold startsAt at h
  split at h
  case h_5 => cases h
  case h_4 text => simpa [startsAt, text] using h
  all_goals
    rename_i text
    simp [startsAt, text]

theorem startsAt_extend_of_settled {here : Cursor} (settled : ¬ Brink '{' here.rest)
    (h : startsAt here = false) (t : List Char) : startsAt (here.extend t) = false :=
  startsAt_eq_false_iff.2 ((startsAt_eq_false_iff.1 h).append settled t)

theorem readRounds_extend {here after : Cursor} {rounds : Nat × Option Nat}
    (starts : startsAt here = true) (h : readRounds here = .ok (rounds, after)) (t : List Char) :
    readRounds (here.extend t) = .ok (rounds, after.extend t) := by
  have derived := (gives_readRounds_iff starts).1 ⟨after, h, rfl⟩
  exact ((gives_readRounds_iff (startsAt_extend starts t)).2 (derived.append t)).extend
    (reaches_readRounds h) reaches_readRounds

theorem Behind.append {atom part : Node} {s rest : List Char} (h : Behind atom s part rest)
    (settled : ¬ Brink '{' rest) (t : List Char) : Behind atom (s ++ t) part (rest ++ t) := by
  cases h with
  | once unquantified => exact .once (unquantified.append settled t)
  | repeated repeatable quantifier unquantified =>
    exact .repeated repeatable (quantifier.append t) (unquantified.append settled t)

theorem readBehind_extend {atom part : Node} {start : Nat} {here after : Cursor}
    (h : readBehind atom start here = .ok (part, after)) (settled : ¬ Brink '{' after.rest)
    (t : List Char) : readBehind atom start (here.extend t) = .ok (part, after.extend t) :=
  (gives_readBehind_iff.2 ((behind_of_readBehind ⟨after, h, rfl⟩).append settled t)).extend
    (reaches_readBehind h) reaches_readBehind

theorem readGreedy_extend {here : Cursor} (more : here.rest ≠ []) (t : List Char) :
    readGreedy (here.extend t) = ((readGreedy here).1, (readGreedy here).2.extend t) := by
  obtain ⟨c, s, text⟩ := List.exists_cons_of_ne_nil more
  by_cases mark : c = '?'
  · subst mark
    rw [readGreedy_of_lazy text, readGreedy_of_lazy (congrArg (· ++ t) text)]
    rfl
  · rw [readGreedy_of_not (by simpa [text] using mark),
      readGreedy_of_not (by simpa [text] using mark)]

theorem readBehind_extend_of_isFinal {atom : Node} {start : Nat} {here : Cursor}
    (h : readBehind atom start here = .error e) (final : e.cause.isFinal = true) (t : List Char) :
    readBehind atom start (here.extend t) = .error e := by
  unfold readBehind at h ⊢
  split at h
  · rename_i starts
    rw [if_pos (startsAt_extend starts t)]
    rcases bind_eq_error_iff.1 h with failed | ⟨⟨⟨min, max⟩, mid⟩, rounds, h⟩
    · cases eq_of_readRounds failed
      cases final
    refine bind_eq_error_iff.2 (.inr ⟨_, readRounds_extend starts rounds t, ?_⟩)
    dsimp only at h ⊢
    split at h
    · rename_i repeatable
      split at h
      · rename_i again
        -- a quantifier stands behind this one, so the mark for few rounds has been looked for
        have more : mid.rest ≠ [] := by
          intro ends
          have unmarked : '?' ∉ mid.rest.head? := by simp [ends]
          rw [readGreedy_of_not unmarked] at again
          simp [startsAt, ends] at again
        rw [if_pos repeatable, readGreedy_extend more, if_pos (startsAt_extend again t)]
        exact h
      · cases h
    · rename_i position
      rw [if_neg position]
      exact h
  · cases h

end Quantifier

/-! ## Parts and groups -/

namespace Grammar

theorem Opening.append {n m : Nat} {kind : GroupKind} {s rest : List Char}
    (h : Opening n s kind m rest) (more : rest ≠ []) (t : List Char) :
    Opening n (s ++ t) kind m (rest ++ t) := by
  cases h with
  | group => exact .group
  | ahead => exact .ahead
  | notAhead => exact .notAhead
  | capture unmarked few =>
    refine .capture ?_ few
    rwa [List.head?_append_of_ne_nil _ more]

theorem Simple.append {c : Char} {atom : Node} {s rest : List Char} (h : Simple c s atom rest)
    (t : List Char) : Simple c (s ++ t) atom (rest ++ t) := by
  cases h with
  | any => exact .any
  | atStart => exact .atStart
  | atEnd => exact .atEnd
  | bracket members => exact .bracket (members.append t)
  | escape escaped => exact .escape (escaped.append t)
  | char plain => exact .char plain

end Grammar

namespace Reader

/-- The same reader in front of the text that goes on with `t`. -/
def extend (r : Reader) (t : List Char) : Reader := { r with here := r.here.extend t }

theorem readOpening_extend {start n m : Nat} {here after : Cursor} {kind : GroupKind}
    (h : readOpening start n here = .ok (kind, m, after)) (more : after.rest ≠ []) (t : List Char) :
    readOpening start n (here.extend t) = .ok (kind, m, after.extend t) := by
  have opening := (readOpening_iff.1 ⟨after, h, rfl⟩).append more t
  obtain ⟨last, reads, rest⟩ := (@readOpening_iff start _ _ (here.extend t) _ _).2 opening
  obtain rfl := ((reaches_readOpening h).extend t).eq_of_rest_eq (reaches_readOpening reads)
    rest.symm
  exact reads

/-- What a group opens with may always become something else. -/
theorem not_isFinal_of_readOpening {start groups : Nat} {here : Cursor}
    (h : readOpening start groups here = .error e) : e.cause.isFinal = false := by
  unfold readOpening at h
  repeat' split at h
  all_goals cases h
  all_goals rfl

theorem readAtom_extend {c : Char} {start : Nat} {here after : Cursor} {atom : Node}
    (h : readAtom c start here = .ok (atom, after)) (t : List Char) :
    readAtom c start (here.extend t) = .ok (atom, after.extend t) :=
  (gives_readAtom_iff.2 ((gives_readAtom_iff.1 ⟨after, h, rfl⟩).append t)).extend
    (reaches_readAtom h) reaches_readAtom

theorem readAtom_extend_of_isFinal {c : Char} {start : Nat} {here : Cursor}
    (h : readAtom c start here = .error e) (final : e.cause.isFinal = true) (t : List Char) :
    readAtom c start (here.extend t) = .error e := by
  unfold readAtom at h ⊢
  split at h
  · rename_i bracket
    rw [if_pos bracket]
    rcases bind_eq_error_iff.1 h with failed | ⟨_, -, h⟩
    · exact bind_eq_error_iff.2 (.inl (CharClass.read_extend_of_isFinal failed final t))
    · cases h
  split at h
  · rename_i noBracket backslash
    rw [if_neg noBracket, if_pos backslash]
    rcases bind_eq_error_iff.1 h with failed | ⟨_, -, h⟩
    · exact bind_eq_error_iff.2 (.inl (Escape.read_extend_of_isFinal failed final t))
    · cases h
  · repeat' split at h
    all_goals cases h

variable {r r' : Reader} {c : Char} {after : Cursor}

theorem closeGroup_extend (h : r.closeGroup after = .ok r') (settled : ¬ Brink '{' r'.here.rest)
    (t : List Char) : (r.extend t).closeGroup (after.extend t) = .ok (r'.extend t) := by
  unfold closeGroup extend at *
  dsimp only
  cases inside : r.opened with
  | nil =>
    rw [inside] at h
    cases h
  | cons group opened =>
    rw [inside] at h
    obtain ⟨⟨part, last⟩, quantifier, eq⟩ := bind_eq_ok_iff.1 h
    cases eq
    exact bind_eq_ok_iff.2 ⟨_, Quantifier.readBehind_extend quantifier settled t, rfl⟩

theorem closeGroup_extend_of_isFinal (h : r.closeGroup after = .error e)
    (final : e.cause.isFinal = true) (t : List Char) :
    (r.extend t).closeGroup (after.extend t) = .error e := by
  unfold closeGroup extend at *
  dsimp only
  cases inside : r.opened with
  | nil =>
    rw [inside] at h
    exact h
  | cons group opened =>
    rw [inside] at h
    rcases bind_eq_error_iff.1 h with failed | ⟨_, -, h⟩
    · exact bind_eq_error_iff.2 (.inl (Quantifier.readBehind_extend_of_isFinal failed final t))
    · cases h

theorem openGroup_extend (h : r.openGroup after = .ok r') (settled : ¬ Brink '{' r'.here.rest)
    (t : List Char) : (r.extend t).openGroup (after.extend t) = .ok (r'.extend t) := by
  obtain ⟨⟨kind, groups, last⟩, reads, eq⟩ := bind_eq_ok_iff.1 h
  cases eq
  have more : last.rest ≠ [] := fun ends => settled (.inl ends)
  exact bind_eq_ok_iff.2 ⟨_, readOpening_extend reads more t, rfl⟩

theorem not_isFinal_of_openGroup (h : r.openGroup after = .error e) : e.cause.isFinal = false := by
  rcases bind_eq_error_iff.1 h with failed | ⟨_, -, h⟩
  · exact not_isFinal_of_readOpening failed
  · cases h

theorem readPart_extend (h : r.readPart c after = .ok r') (settled : ¬ Brink '{' r'.here.rest)
    (t : List Char) : (r.extend t).readPart c (after.extend t) = .ok (r'.extend t) := by
  obtain ⟨⟨atom, mid⟩, readAtom, h⟩ := bind_eq_ok_iff.1 h
  obtain ⟨⟨part, last⟩, readBehind, eq⟩ := bind_eq_ok_iff.1 h
  cases eq
  refine bind_eq_ok_iff.2 ⟨_, readAtom_extend readAtom t, ?_⟩
  exact bind_eq_ok_iff.2 ⟨_, Quantifier.readBehind_extend readBehind settled t, rfl⟩

theorem readPart_extend_of_isFinal (h : r.readPart c after = .error e)
    (final : e.cause.isFinal = true) (t : List Char) :
    (r.extend t).readPart c (after.extend t) = .error e := by
  rcases bind_eq_error_iff.1 h with failed | ⟨⟨atom, mid⟩, readAtom, h⟩
  · exact bind_eq_error_iff.2 (.inl (readAtom_extend_of_isFinal failed final t))
  refine bind_eq_error_iff.2 (.inr ⟨_, readAtom_extend readAtom t, ?_⟩)
  rcases bind_eq_error_iff.1 h with failed | ⟨_, -, h⟩
  · exact bind_eq_error_iff.2 (.inl (Quantifier.readBehind_extend_of_isFinal failed final t))
  · cases h

/-- A step goes the same way in the longer text. Before it reads on it looks further than its
character only for a quantifier. -/
theorem step_extend (h : r.step c after = .ok r') (here : ¬ Brink '{' r.here.rest)
    (settled : ¬ Brink '{' r'.here.rest) (t : List Char) :
    (r.extend t).step c (after.extend t) = .ok (r'.extend t) := by
  unfold step at h ⊢
  split at h
  · rename_i close
    rw [if_pos close]
    exact closeGroup_extend h settled t
  rename_i noClose
  rw [if_neg noClose]
  split at h
  · rename_i bar
    cases h
    rw [if_pos bar]
    rfl
  rename_i noBar
  rw [if_neg noBar]
  split at h
  · cases h
  rename_i unquantified
  have same := Quantifier.startsAt_extend_of_settled here (eq_false_of_ne_true unquantified) t
  rw [extend, same, if_neg Bool.false_ne_true]
  split at h
  · rename_i opens
    rw [if_pos opens]
    exact openGroup_extend h settled t
  · rename_i noOpen
    rw [if_neg noOpen]
    exact readPart_extend h settled t

theorem step_extend_of_isFinal (h : r.step c after = .error e) (final : e.cause.isFinal = true)
    (here : ¬ Brink '{' r.here.rest) (t : List Char) :
    (r.extend t).step c (after.extend t) = .error e := by
  unfold step at h ⊢
  split at h
  · rename_i close
    rw [if_pos close]
    exact closeGroup_extend_of_isFinal h final t
  rename_i noClose
  rw [if_neg noClose]
  split at h
  · cases h
  rename_i noBar
  rw [if_neg noBar]
  split at h
  · rename_i starts
    cases h
    exact if_pos (Quantifier.startsAt_extend starts t)
  rename_i unquantified
  have same := Quantifier.startsAt_extend_of_settled here (eq_false_of_ne_true unquantified) t
  rw [extend, same, if_neg Bool.false_ne_true]
  split at h
  · cases final.symm.trans (not_isFinal_of_openGroup h)
  · rename_i noOpen
    rw [if_neg noOpen]
    exact readPart_extend_of_isFinal h final t

/-! ## The whole text -/

/-- The faults that wait for the end are not final. -/
theorem not_isFinal_of_finish (h : r.finish = .error e) : e.cause.isFinal = false := by
  unfold finish at h
  split at h
  · cases h
    rfl
  · split at h
    · rename_i reference unknown
      cases h
      have large := List.find?_some unknown
      have nonzero : reference.index ≠ 0 := by
        simp at large
        omega
      simpa [PatternError.Cause.isFinal] using nonzero
    · cases h

/-- On the brink a brace is one more part, and then only the faults that wait for the end are
left. -/
theorem not_isFinal_of_brink (brink : Brink '{' r.here.rest) (h : r.run = .error e) :
    e.cause.isFinal = false := by
  rcases brink with text | text
  · rw [run_of_end text] at h
    exact not_isFinal_of_finish h
  · have brace : Quantifier.Unquantified ['{'] := by simp [Quantifier.Unquantified]
    have ends : Quantifier.Unquantified [] := by simp [Quantifier.Unquantified]
    obtain ⟨s, leads, ended, -⟩ :=
      readsOn_part text (.char (by decide)) (by decide) brace (.once ends)
    rw [leads.run_eq, run_of_end ended] at h
    exact not_isFinal_of_finish h

theorem run_of_failed (next : r.here.next? = some (c, after)) (failed : r.step c after = .error e) :
    r.run = .error e := by
  unfold run
  split
  · rename_i ends
    cases next.symm.trans ends
  · rename_i found
    cases next.symm.trans found
    split
    · rename_i failed'
      cases failed.symm.trans failed'
      rfl
    · rename_i read
      cases failed.symm.trans read

theorem run_extend_of_isFinal (h : r.run = .error e) (final : e.cause.isFinal = true)
    (t : List Char) : (r.extend t).run = .error e := by
  have settled {s : Reader} (fails : s.run = .error e) : ¬ Brink '{' s.here.rest := by
    intro brink
    cases final.symm.trans (not_isFinal_of_brink brink fails)
  fun_induction run r with
  | case1 => cases final.symm.trans (not_isFinal_of_finish h)
  | case2 r c after next e' failed =>
    cases h
    exact run_of_failed (Cursor.next_extend next t)
      (step_extend_of_isFinal failed final (settled (run_of_failed next failed)) t)
  | case3 r c after next s read ih =>
    have here := settled ((run_of_next next read).trans h)
    have goes := step_extend read here (settled h) t
    exact (run_of_next (Cursor.next_extend next t) goes).trans (ih h)

end Reader

/-- A final fault is there with the same offset whatever follows the pattern. -/
theorem Pattern.parse_append_of_isFinal {text : String} {e : PatternError}
    (h : Pattern.parse text = .error e) (final : e.cause.isFinal = true) (more : String) :
    Pattern.parse (text ++ more) = .error e := by
  have longer : Reader.ofString (text ++ more) = (Reader.ofString text).extend more.toList := by
    rw [Reader.ofString, Cursor.ofString, String.toList_append]
    rfl
  rw [Pattern.parse, longer]
  exact Reader.run_extend_of_isFinal h final more.toList

/-- The question mark would ask the quantifier for few rounds, but an anchor has none. -/
theorem Pattern.parse_append_of_repeated_anchor :
    Pattern.parse "é(^+" = .error ⟨.danglingQuantifier, 3⟩ ∧
      PatternError.Cause.danglingQuantifier.isFinal = true ∧
      Pattern.parse ("é(^+" ++ "?)|b") = .error ⟨.danglingQuantifier, 3⟩ :=
  have fails : Pattern.parse "é(^+" = .error ⟨.danglingQuantifier, 3⟩ := by cbv
  ⟨fails, rfl, parse_append_of_isFinal fails rfl "?)|b"⟩

/-- A reference to a group that has not come is no final fault, as the group may come later. -/
example : Pattern.parse "\\1" = .error ⟨.unknownBackreference 1, 0⟩ ∧
    (Pattern.parse "\\1()").isOk = true :=
  ⟨by cbv, by cbv⟩

end RegexEngine
