import Mathlib
import RegexEngine.Proofs.Grammar.Reading
import RegexEngine.Proofs.Text.Bytes

/-!
# Faults point at their causes

The offset of a fault is a position inside the pattern, and what stands there shows the cause
(`Pattern.pinpoints_of_parse`).

Most readers report their faults at a position that they have been handed and that lies behind
them: an escape at its backslash, a class at its bracket, bounds at their brace, a quantifier at the
part before it. So the lemma on each reader supposes that the position it has been handed is one of
the text and that the right characters stand there (`Points`).
-/

namespace RegexEngine

open Grammar

/-! ## What shows a cause -/

namespace PatternError

/-- Says that a quantifier begins here: a mark, or a brace that a digit follows. -/
inductive Quantifies : List Char → Prop where
  | mark {c : Char} {rest : List Char} (mark : c ∈ ['*', '+', '?']) : Quantifies (c :: rest)
  | brace {d : Char} {rest : List Char} (digit : d.isDigit = true) : Quantifies ('{' :: d :: rest)

theorem quantifies_of_startsAt {here : Cursor} (h : Quantifier.startsAt here = true) :
    Quantifies here.rest := by
  unfold Quantifier.startsAt at h
  split at h
  case h_4 text => exact text ▸ .brace h
  case h_5 => cases h
  all_goals
    rename_i text
    rw [text]
    exact .mark (by decide)

/-- Says that a text begins with what shows a cause. That a program would be too large shows
nowhere. -/
inductive Shows : Cause → List Char → Prop where
  | unclosedGroup {rest : List Char} : Shows .unclosedGroup ('(' :: rest)
  | strayClose {rest : List Char} : Shows .strayClose (')' :: rest)
  /-- The first end of the range stands here, the second one behind the hyphen. -/
  | reversedRange {lo hi : Char} {s mid rest : List Char} (lower : Item s (.single lo) ('-' :: mid))
    (upper : Item mid (.single hi) rest) (reversed : hi < lo) : Shows (.reversedRange lo hi) s
  | quantifier {s : List Char} (here : Quantifies s) : Shows .danglingQuantifier s
  | anchor {c : Char} {rest : List Char} (anchor : c = '^' ∨ c = '$') (behind : Quantifies rest) :
    Shows .danglingQuantifier (c :: rest)
  | look {n m : Nat} {branches : List Node} {c : Char} {s rest : List Char}
    (mark : c = '=' ∨ c = '!') (body : Alternation n s branches m (')' :: rest))
    (behind : Quantifies rest) : Shows .danglingQuantifier ('(' :: '?' :: c :: s)
  | tooManyGroups {rest : List Char} : Shows .tooManyGroups ('(' :: rest)
  | unknownBackreference {index : Nat} {rest : List Char} (digit : index ≤ 9) :
    Shows (.unknownBackreference index) ('\\' :: index.digitChar :: rest)
  | unknownEscape {c : Char} {rest : List Char} : Shows (.unknownEscape c) ('\\' :: c :: rest)
  | incompleteEscape {rest : List Char} : Shows .incompleteEscape ('\\' :: rest)
  | unclosedClass {rest : List Char} : Shows .unclosedClass ('[' :: rest)
  | badRepetition {d : Char} {rest : List Char} (digit : d.isDigit = true) :
    Shows .badRepetition ('{' :: d :: rest)
  | unknownGroup {rest : List Char} : Shows .unknownGroup ('(' :: '?' :: rest)

/-- Says that a fault is reported at a position behind `start` where its cause shows. -/
def Points (start : Cursor) (e : PatternError) : Prop :=
  ∃ s, start.Reaches ⟨e.offset, s⟩ ∧ Shows e.cause s

end PatternError

open PatternError

theorem Cursor.Reaches.in_front {start here : Cursor} {s : List Char} (h : start.Reaches here)
    (text : here.rest = s) : start.Reaches ⟨here.offset, s⟩ := text ▸ h

variable {origin : Cursor} {e : PatternError}

/-! ## Escapes and classes -/

namespace Escape

/-- A backreference is a backslash and the digit that its group is numbered by. -/
theorem digit_of_escaped {index : Nat} {s rest : List Char}
    (h : Escaped s (.backreference index) rest) : index ≤ 9 ∧ s = index.digitChar :: rest := by
  cases h with
  | letter meaning => simp [letters] at meaning
  | backreference digit =>
    obtain ⟨low, high⟩ := Char.isDigit_iff_toNat.1 digit
    have small := Nat.sub_le_sub_right high '0'.toNat
    have each : ∀ n ≤ 9, Nat.digitChar n = Char.ofNat ('0'.toNat + n) := by decide
    refine ⟨small, ?_⟩
    rw [each _ small, Nat.add_sub_cancel' low, Char.ofNat_toNat]

theorem points_readHexDigit {start : Nat} {here : Cursor} {s : List Char}
    (place : origin.Reaches ⟨start, '\\' :: 'x' :: s⟩) (h : readHexDigit start here = .error e) :
    Points origin e := by
  unfold readHexDigit at h
  split at h
  · cases h
    exact ⟨_, place, .incompleteEscape⟩
  · split at h
    · cases h
      exact ⟨_, place, .unknownEscape⟩
    · cases h

theorem points_read {start : Nat} {here : Cursor}
    (place : origin.Reaches ⟨start, '\\' :: here.rest⟩) (h : read start here = .error e) :
    Points origin e := by
  unfold read at h
  split at h
  · cases h
    exact ⟨_, place, .incompleteEscape⟩
  · rename_i c after next
    rw [Cursor.rest_of_next next] at place
    split at h
    · rename_i isX
      subst isX
      rcases bind_eq_error_iff.1 h with first | ⟨⟨high, mid⟩, -, h⟩
      · exact points_readHexDigit place first
      · rcases bind_eq_error_iff.1 h with second | ⟨_, -, h⟩
        · exact points_readHexDigit place second
        · cases h
    · split at h
      · cases h
      · split at h
        · rename_i zero
          subst zero
          cases h
          exact ⟨_, place, .unknownBackreference (Nat.zero_le 9)⟩
        · split at h
          · cases h
          · split at h
            · cases h
              exact ⟨_, place, .unknownEscape⟩
            · cases h

end Escape

namespace CharClass

theorem points_readItem {opened : Nat} {here : Cursor} {s : List Char}
    (bracket : origin.Reaches ⟨opened, '[' :: s⟩) (place : origin.Reaches here)
    (h : readItem opened here = .error e) : Points origin e := by
  unfold readItem at h
  split at h
  · cases h
    exact ⟨_, bracket, .unclosedClass⟩
  · rename_i c after next
    split at h
    · rename_i backslash
      subst backslash
      have text := Cursor.rest_of_next next
      split at h
      · rename_i failed
        cases h
        exact Escape.points_read (text ▸ place) failed
      · cases h
      · cases h
      · rename_i index mid read
        cases h
        obtain ⟨-, digit⟩ := Escape.digit_of_escaped (Escape.escaped_of_read ⟨mid, read, rfl⟩)
        exact ⟨_, place.in_front (digit ▸ text), .unknownEscape⟩
    · cases h

theorem points_readMember {opened : Nat} {here : Cursor} {s : List Char}
    (bracket : origin.Reaches ⟨opened, '[' :: s⟩) (place : origin.Reaches here)
    (h : readMember opened here = .error e) : Points origin e := by
  rcases bind_eq_error_iff.1 h with failed | ⟨⟨lower, mid⟩, first, h⟩
  · exact points_readItem bracket place failed
  have item := gives_readItem_iff.1 ⟨mid, first, rfl⟩
  dsimp only at h
  rcases single_or_shorthand_of_item item with ⟨lo, rfl⟩ | ⟨set, negated, rfl⟩
  · cases hyphen : behindHyphen? mid with
    | none =>
      rw [hyphen] at h
      cases h
    | some behind =>
      rw [hyphen] at h
      have joined := place.trans ((reaches_readItem first).trans (reaches_behindHyphen hyphen))
      obtain ⟨⟨c, s, text, -⟩, rfl⟩ := behindHyphen?_eq_some_iff.1 hyphen
      rcases bind_eq_error_iff.1 h with failed | ⟨⟨upper, last⟩, second, h⟩
      · exact points_readItem bracket joined failed
      have item' := gives_readItem_iff.1 ⟨last, second, rfl⟩
      rw [text] at item item'
      dsimp only at h
      rcases single_or_shorthand_of_item item' with ⟨hi, rfl⟩ | ⟨set, negated, rfl⟩
      · dsimp only [ClassItem.single] at h
        split at h
        · rename_i reversed
          cases h
          exact ⟨_, place, .reversedRange item item' reversed⟩
        · cases h
      · cases h
  · cases h

theorem points_readMembers {opened : Nat} {here : Cursor} {s : List Char}
    (bracket : origin.Reaches ⟨opened, '[' :: s⟩) (place : origin.Reaches here)
    (h : readMembers opened here = .error e) : Points origin e := by
  fun_induction readMembers opened here with
  | case1 =>
    cases h
    exact ⟨_, bracket, .unclosedClass⟩
  | case2 => cases h
  | case3 here c next _ inside e' failed =>
    cases h
    exact points_readMember bracket place failed
  | case4 here c next _ inside items mid read ih =>
    rcases bind_eq_error_iff.1 h with failed | ⟨_, -, h⟩
    · exact ih (place.trans (reaches_readMember read)) failed
    · cases h

theorem points_read {opened : Nat} {here : Cursor}
    (bracket : origin.Reaches ⟨opened, '[' :: here.rest⟩) (place : origin.Reaches here)
    (h : read opened here = .error e) : Points origin e := by
  have place := place.trans (reaches_readNegation here)
  unfold read at h
  generalize readNegation here = start at h place
  rcases bind_eq_error_iff.1 h with failed | ⟨⟨items, mid⟩, first, h⟩
  · exact points_readMember bracket place failed
  rcases bind_eq_error_iff.1 h with failed | ⟨_, -, h⟩
  · exact points_readMembers bracket (place.trans (reaches_readMember first)) failed
  · cases h

end CharClass

/-! ## Quantifiers -/

namespace Quantifier

theorem eq_of_readBound {start : Nat} {here : Cursor} (h : readBound start here = .error e) :
    e = ⟨.badRepetition, start⟩ := by
  unfold readBound at h
  dsimp only at h
  split at h
  · cases h
    rfl
  · cases h

theorem eq_of_readBounds {start : Nat} {here : Cursor} (h : readBounds start here = .error e) :
    e = ⟨.badRepetition, start⟩ := by
  rcases bind_eq_error_iff.1 h with failed | ⟨⟨min, mid⟩, -, h⟩
  · exact eq_of_readBound failed
  dsimp only at h
  split at h
  · cases h
  · cases h
  · rcases bind_eq_error_iff.1 h with failed | ⟨⟨max, last⟩, -, h⟩
    · exact eq_of_readBound failed
    dsimp only at h
    repeat' split at h
    all_goals cases h
    all_goals rfl
  · cases h
    rfl

/-- Whatever is wrong with a number of rounds is reported as the same fault. -/
theorem eq_of_readRounds {here : Cursor} (h : readRounds here = .error e) :
    e = ⟨.badRepetition, here.offset⟩ := by
  unfold readRounds at h
  split at h
  case h_4 => exact eq_of_readBounds h
  case h_5 =>
    cases h
    rfl
  all_goals cases h

theorem points_readRounds {here : Cursor} (place : origin.Reaches here)
    (starts : startsAt here = true) (h : readRounds here = .error e) : Points origin e := by
  obtain rfl := eq_of_readRounds h
  unfold startsAt at starts
  split at starts
  case h_4 text => exact ⟨_, place.in_front text, .badRepetition starts⟩
  case h_5 => cases starts
  all_goals
    rename_i text
    unfold readRounds at h
    rw [text] at h
    cases h

/-- The position of the part before is a fault only if the part is not to be repeated. -/
theorem points_readBehind {atom : Node} {start : Nat} {here : Cursor}
    (place : origin.Reaches here)
    (test : atom.repeatable = false → Quantifies here.rest →
      Points origin ⟨.danglingQuantifier, start⟩)
    (h : readBehind atom start here = .error e) : Points origin e := by
  unfold readBehind at h
  split at h
  · rename_i starts
    rcases bind_eq_error_iff.1 h with failed | ⟨⟨⟨min, max⟩, mid⟩, rounds, h⟩
    · exact points_readRounds place starts failed
    have place := place.trans ((reaches_readRounds rounds).trans (reaches_readGreedy mid))
    dsimp only at h
    split at h
    · split at h
      · rename_i again
        cases h
        exact ⟨_, place, .quantifier (quantifies_of_startsAt again)⟩
      · cases h
    · rename_i position
      cases h
      exact test (eq_false_of_ne_true position) (quantifies_of_startsAt starts)
  · cases h

end Quantifier

/-! ## Parts and groups -/

namespace Reader

theorem points_readOpening {start groups : Nat} {here : Cursor}
    (place : origin.Reaches ⟨start, '(' :: here.rest⟩)
    (h : readOpening start groups here = .error e) : Points origin e := by
  unfold readOpening at h
  split at h
  case h_4 text =>
    cases h
    exact ⟨_, text ▸ place, .unknownGroup⟩
  case h_5 =>
    split at h
    · cases h
    · cases h
      exact ⟨_, place, .tooManyGroups⟩
  all_goals cases h

theorem points_readAtom {c : Char} {start : Nat} {here : Cursor}
    (place : origin.Reaches ⟨start, c :: here.rest⟩) (behind : origin.Reaches here)
    (h : readAtom c start here = .error e) : Points origin e := by
  unfold readAtom at h
  split at h
  · rename_i is
    subst is
    rcases bind_eq_error_iff.1 h with failed | ⟨_, -, h⟩
    · exact CharClass.points_read place behind failed
    · cases h
  split at h
  · rename_i is
    subst is
    rcases bind_eq_error_iff.1 h with failed | ⟨_, -, h⟩
    · exact Escape.points_read place failed
    · cases h
  · repeat' split at h
    all_goals cases h

variable {text : List Char} {r r' : Reader} {c : Char} {after : Cursor}

theorem Derived.points_closeGroup (h : r.Derived text) (next : r.here.next? = some (')', after))
    (fails : r.closeGroup after = .error e) : Points ⟨0, text⟩ e := by
  have here := Cursor.rest_of_next next
  obtain ⟨place, ⟨n, s, around, drafted⟩, few⟩ := h
  unfold Reader.closeGroup at fails
  cases inside : r.opened with
  | nil =>
    rw [inside] at fails
    cases fails
    exact ⟨_, place.in_front here, .strayClose⟩
  | cons group opened =>
    rw [inside] at around fails
    cases around with
    | within around before opened opening =>
      have body := (here ▸ drafted).alternation
      rcases bind_eq_error_iff.1 fails with failed | ⟨_, -, fails⟩
      · apply Quantifier.points_readBehind (place.trans (Cursor.reaches_next next)) _ failed
        -- only the groups that look ahead are not repeated
        intro test behind
        refine ⟨_, opened, ?_⟩
        generalize group.kind = kind at opening test
        cases opening with
        | group | capture => cases test
        | ahead => exact .look (.inl rfl) body behind
        | notAhead => exact .look (.inr rfl) body behind
      · cases fails

theorem Derived.points_openGroup (h : r.Derived text) (next : r.here.next? = some ('(', after))
    (fails : r.openGroup after = .error e) : Points ⟨0, text⟩ e := by
  rcases bind_eq_error_iff.1 fails with failed | ⟨_, -, fails⟩
  · exact points_readOpening (h.place.in_front (Cursor.rest_of_next next)) failed
  · cases fails

theorem Derived.points_readPart (h : r.Derived text) (next : r.here.next? = some (c, after))
    (fails : r.readPart c after = .error e) : Points ⟨0, text⟩ e := by
  have here := h.place.in_front (Cursor.rest_of_next next)
  have behind := h.place.trans (Cursor.reaches_next next)
  rcases bind_eq_error_iff.1 fails with failed | ⟨⟨atom, mid⟩, readAtom, fails⟩
  · exact points_readAtom here behind failed
  rcases bind_eq_error_iff.1 fails with failed | ⟨_, -, fails⟩
  · apply Quantifier.points_readBehind (behind.trans (reaches_readAtom readAtom)) _ failed
    -- and of the other parts only the anchors, which are one character each
    intro test quantified
    refine ⟨_, here, ?_⟩
    have simple := gives_readAtom_iff.1 ⟨mid, readAtom, rfl⟩
    generalize after.rest = s, mid.rest = rest at simple quantified
    cases simple with
    | atStart => exact .anchor (.inl rfl) quantified
    | atEnd => exact .anchor (.inr rfl) quantified
    | @escape escape => cases escape <;> cases test
    | any | bracket | char => cases test
  · cases fails

theorem Derived.points_step (h : r.Derived text) (next : r.here.next? = some (c, after))
    (fails : r.step c after = .error e) : Points ⟨0, text⟩ e := by
  unfold Reader.step at fails
  split at fails
  · rename_i is
    exact h.points_closeGroup (is ▸ next) fails
  split at fails
  · cases fails
  split at fails
  · rename_i starts
    cases fails
    exact ⟨_, h.place, .quantifier (quantifies_of_startsAt starts)⟩
  split at fails
  · rename_i is
    exact h.points_openGroup (is ▸ next) fails
  · exact h.points_readPart next fails

/-! ## Faults that wait for the end -/

/-- Says that each reference has been noted where it stands. -/
def Placed (text : List Char) (r : Reader) : Prop :=
  ∀ reference ∈ r.references,
    Points ⟨0, text⟩ ⟨.unknownBackreference reference.index, reference.offset⟩

theorem placed_ofString (text : String) : Placed text.toList (ofString text) := nofun

theorem placed_referenceOf {atom : Node} {s rest : List Char}
    (place : (⟨0, text⟩ : Cursor).Reaches ⟨r.here.offset, c :: s⟩) (simple : Simple c s atom rest)
    {reference : Reference} (noted : reference ∈ referenceOf r.here.offset atom) :
    Points ⟨0, text⟩ ⟨.unknownBackreference reference.index, reference.offset⟩ := by
  cases simple with
  | any | atStart | atEnd | bracket | char => cases noted
  | @escape escape _ _ escaped =>
    cases escape with
    | char | shorthand => cases noted
    | backreference index =>
      obtain ⟨small, rfl⟩ := Escape.digit_of_escaped escaped
      obtain rfl := List.mem_singleton.1 noted
      exact ⟨_, place, .unknownBackreference small⟩

theorem Placed.step (h : r.Placed text) (derived : r.Derived text)
    (next : r.here.next? = some (c, after)) (reads : r.step c after = .ok r') : r'.Placed text := by
  unfold Reader.step at reads
  split at reads
  · unfold Reader.closeGroup at reads
    split at reads
    · cases reads
    · obtain ⟨_, -, eq⟩ := bind_eq_ok_iff.1 reads
      cases eq
      exact h
  split at reads
  · cases reads
    exact h
  split at reads
  · cases reads
  split at reads
  · obtain ⟨_, -, eq⟩ := bind_eq_ok_iff.1 reads
    cases eq
    exact h
  · obtain ⟨⟨atom, mid⟩, readAtom, reads⟩ := bind_eq_ok_iff.1 reads
    obtain ⟨_, -, eq⟩ := bind_eq_ok_iff.1 reads
    cases eq
    intro reference noted
    rcases List.mem_append.1 noted with new | old
    · exact placed_referenceOf (derived.place.in_front (Cursor.rest_of_next next))
        (gives_readAtom_iff.1 ⟨mid, readAtom, rfl⟩) new
    · exact h reference old

/-- A group that is still open began at a parenthesis. -/
theorem Derived.points_finish (h : r.Derived text) (placed : r.Placed text)
    (fails : r.finish = .error e) : Points ⟨0, text⟩ e := by
  unfold finish at fails
  cases inside : r.opened with
  | cons group opened =>
    rw [inside] at fails
    cases fails
    obtain ⟨-, ⟨n, s, around, -⟩, -⟩ := h
    rw [inside] at around
    cases around with
    | within around before opened => exact ⟨_, opened, .unclosedGroup⟩
  | nil =>
    rw [inside] at fails
    dsimp only at fails
    split at fails
    · rename_i reference unknown
      cases fails
      exact placed reference (List.mem_reverse.1 (List.mem_of_find?_eq_some unknown))
    · cases fails

theorem Derived.points_run (h : r.Derived text) (placed : r.Placed text)
    (fails : r.run = .error e) : Points ⟨0, text⟩ e := by
  fun_induction run r with
  | case1 => exact h.points_finish placed fails
  | case2 r c after next e' failed =>
    cases fails
    exact h.points_step next failed
  | case3 r c after next s read ih => exact ih (h.step next read) (placed.step h next read) fails

end Reader

/-! ## The whole text -/

/-- Says that a fault in a pattern is reported where a character of it begins, and that what stands
there shows the cause. -/
structure Pinpoints (text : String) (e : PatternError) : Prop where
  notTooLarge : e.cause ≠ .tooLarge
  boundary : String.Pos.Raw.IsValid text ⟨e.offset⟩
  inside : e.offset < text.utf8ByteSize
  shows : ∃ before behind, text = before ++ String.ofList behind ∧
    e.offset = before.utf8ByteSize ∧ Shows e.cause behind

theorem PatternError.Shows.ne_nil {cause : Cause} {s : List Char} (h : Shows cause s) : s ≠ [] := by
  cases h with
  | reversedRange lower => cases lower <;> nofun
  | quantifier here => cases here <;> nofun
  | _ => nofun

/-- Every fault is reported where its cause shows. -/
theorem Pattern.pinpoints_of_parse {text : String} {e : PatternError}
    (h : Pattern.parse text = .error e) : Pinpoints text e := by
  obtain ⟨s, place, shows⟩ :=
    (Reader.derived_ofString text).points_run (Reader.placed_ofString text) h
  have lies := place.lies (.refl (Cursor.ofString text))
  obtain ⟨before, eq, offset⟩ := lies.rest
  refine ⟨?_, lies.boundary, ?_, before, s, eq, offset, shows⟩
  · intro large
    rw [large] at shows
    cases shows
  · have size : 0 < byteLength s :=
      Nat.pos_of_ne_zero fun zero => shows.ne_nil (eq_nil_of_byteLength zero)
    rw [byteLength_eq_utf8ByteSize] at size
    rw [eq, String.utf8ByteSize_append]
    exact offset ▸ Nat.lt_add_of_pos_right size

/-- The group that looks ahead is to blame and not the mark behind it; the first character takes
two bytes. -/
theorem Pattern.pinpoints_of_repeated_look :
    Pattern.parse "é(?=a|(b))*" = .error ⟨.danglingQuantifier, 2⟩ ∧
      Pinpoints "é(?=a|(b))*" ⟨.danglingQuantifier, 2⟩ :=
  have fails : Pattern.parse "é(?=a|(b))*" = .error ⟨.danglingQuantifier, 2⟩ := by cbv
  ⟨fails, pinpoints_of_parse fails⟩

end RegexEngine
