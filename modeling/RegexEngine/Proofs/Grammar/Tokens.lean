import RegexEngine.Proofs.Grammar.Rules

/-!
# Escapes, classes and quantifiers are read by their rules

Each of these readers succeeds exactly where its judgement holds, with what the judgement says and
in front of the text that the judgement leaves (`Gives`). The readers decide by looking ahead, the
rules by what follows; that both come to the same is shown reader by reader.
-/

namespace RegexEngine

/-- Says that reading has given `x` and stands in front of `rest`. -/
def Gives {α : Type} (result : Except PatternError (α × Cursor)) (x : α) (rest : List Char) :
    Prop :=
  ∃ after, result = .ok (x, after) ∧ after.rest = rest

namespace Gives

variable {α β : Type} {x : α} {y : β} {mid rest : List Char}

theorem ok (x : α) (after : Cursor) : Gives (.ok (x, after)) x after.rest := ⟨after, rfl, rfl⟩

theorem ok_iff {x' : α} {after : Cursor} :
    Gives (.ok (x', after)) x rest ↔ x' = x ∧ after.rest = rest := by
  constructor
  · rintro ⟨_, eq, rfl⟩
    cases eq
    exact ⟨rfl, rfl⟩
  · rintro ⟨rfl, rfl⟩
    exact .ok _ _

theorem not_error {e : PatternError} : ¬ Gives (.error e) x rest := nofun

theorem bind {f : Except PatternError (α × Cursor)}
    {g : α × Cursor → Except PatternError (β × Cursor)} (first : Gives f x mid)
    (second : ∀ here : Cursor, here.rest = mid → Gives (g (x, here)) y rest) :
    Gives (f >>= g) y rest := by
  obtain ⟨here, eq, hr⟩ := first
  rw [eq]
  exact second here hr

theorem of_bind {f : Except PatternError (α × Cursor)}
    {g : α × Cursor → Except PatternError (β × Cursor)} (h : Gives (f >>= g) y rest) :
    ∃ x here, Gives f x here.rest ∧ Gives (g (x, here)) y rest := by
  obtain ⟨after, eq, hr⟩ := h
  obtain ⟨⟨x, here⟩, first, second⟩ := bind_eq_ok_iff.1 eq
  exact ⟨x, here, ⟨here, first, rfl⟩, after, second, hr⟩

end Gives

open Grammar

/-! ## Escapes -/

namespace Escape

theorem ofLetter?_eq_some_iff {c : Char} {escape : Escape} :
    ofLetter? c = some escape ↔ (c, escape) ∈ letters := by
  constructor
  · intro h
    unfold ofLetter? at h
    split at h
    case h_12 => cases h
    all_goals
      cases h
      decide
  · have each : ∀ letter ∈ letters, ofLetter? letter.1 = some letter.2 := by decide
    exact each (c, escape)

theorem isAlphanum_of_ofLetter? {c : Char} {escape : Escape} (h : ofLetter? c = some escape) :
    c.isAlphanum = true ∧ c.isDigit = false ∧ c ≠ 'x' := by
  have each : ∀ letter ∈ letters,
      letter.1.isAlphanum = true ∧ letter.1.isDigit = false ∧ letter.1 ≠ 'x' := by decide
  exact each (c, escape) (ofLetter?_eq_some_iff.1 h)

/-- Only letters have a meaning of their own. -/
theorem ofLetter?_eq_none {c : Char} (h : c.isDigit = true ∨ c.isAlphanum = false) :
    ofLetter? c = none := by
  rw [Option.eq_none_iff_forall_ne_some]
  intro escape eq
  obtain ⟨alphanum, noDigit, -⟩ := isAlphanum_of_ofLetter? eq
  rcases h with digit | other
  · exact Bool.false_ne_true (noDigit.symm.trans digit)
  · exact Bool.false_ne_true (other.symm.trans alphanum)

theorem gives_readHexDigit_iff {start : Nat} {here : Cursor} {value : Nat} {rest : List Char} :
    Gives (readHexDigit start here) value rest ↔
      ∃ c, hexValue? c = some value ∧ here.rest = c :: rest := by
  unfold readHexDigit Cursor.next?
  cases here.rest with
  | nil => exact ⟨nofun, nofun⟩
  | cons c s =>
    dsimp only
    cases hex : hexValue? c with
    | none =>
      refine ⟨nofun, ?_⟩
      rintro ⟨d, eq, same⟩
      cases same
      cases hex.symm.trans eq
    | some v =>
      rw [Gives.ok_iff]
      constructor
      · rintro ⟨rfl, rfl⟩
        exact ⟨c, hex, rfl⟩
      · rintro ⟨d, eq, same⟩
        cases same
        cases hex.symm.trans eq
        exact ⟨rfl, rfl⟩

theorem escaped_of_read {start : Nat} {here : Cursor} {escape : Escape} {rest : List Char}
    (h : Gives (read start here) escape rest) : Escaped here.rest escape rest := by
  unfold read Cursor.next? at h
  cases text : here.rest with
  | nil =>
    rw [text] at h
    exact absurd h Gives.not_error
  | cons c s =>
    rw [text] at h
    dsimp only at h
    split at h
    · rename_i isX
      subst isX
      obtain ⟨high, mid, first, h⟩ := h.of_bind
      obtain ⟨low, last, second, h⟩ := h.of_bind
      obtain ⟨d, hd, eq⟩ := gives_readHexDigit_iff.1 first
      obtain ⟨d', hd', eq'⟩ := gives_readHexDigit_iff.1 second
      obtain ⟨rfl, rfl⟩ := Gives.ok_iff.1 h
      have both : s = d :: d' :: last.rest := by rw [← eq']; exact eq
      rw [both]
      exact .hex hd hd'
    · split at h
      · rename_i meaning
        obtain ⟨rfl, rfl⟩ := Gives.ok_iff.1 h
        exact .letter (ofLetter?_eq_some_iff.1 meaning)
      · split at h
        · exact absurd h Gives.not_error
        · rename_i nonzero
          split at h
          · rename_i digit
            obtain ⟨rfl, rfl⟩ := Gives.ok_iff.1 h
            exact .backreference digit nonzero
          · split at h
            · exact absurd h Gives.not_error
            · rename_i other
              obtain ⟨rfl, rfl⟩ := Gives.ok_iff.1 h
              exact .itself (Bool.eq_false_iff.2 other)

theorem gives_read_iff {start : Nat} {here : Cursor} {escape : Escape} {rest : List Char} :
    Gives (read start here) escape rest ↔ Escaped here.rest escape rest := by
  refine ⟨escaped_of_read, ?_⟩
  intro h
  generalize text : here.rest = s at h
  unfold read Cursor.next?
  rw [text]
  cases h with
  | letter meaning =>
    have meaning := ofLetter?_eq_some_iff.2 meaning
    obtain ⟨-, -, notX⟩ := isAlphanum_of_ofLetter? meaning
    dsimp only
    rw [if_neg notX, meaning]
    exact .ok _ _
  | hex first second =>
    dsimp only
    rw [if_pos rfl]
    apply (gives_readHexDigit_iff.2 ⟨_, first, rfl⟩).bind
    intro mid eq
    apply (gives_readHexDigit_iff.2 ⟨_, second, eq⟩).bind
    intro last eq
    exact Gives.ok_iff.2 ⟨rfl, eq⟩
  | @backreference c _ digit nonzero =>
    have notX : c ≠ 'x' := by
      rintro rfl
      cases digit
    dsimp only
    rw [if_neg notX, ofLetter?_eq_none (.inl digit)]
    dsimp only
    rw [if_neg nonzero, if_pos digit]
    exact .ok _ _
  | @itself c _ other =>
    have notX : c ≠ 'x' := by
      rintro rfl
      cases other
    have nonzero : c ≠ '0' := by
      rintro rfl
      cases other
    obtain ⟨-, noDigit⟩ := Bool.or_eq_false_iff.1 other
    dsimp only
    rw [if_neg notX, ofLetter?_eq_none (.inr other)]
    dsimp only
    rw [if_neg nonzero, if_neg (Bool.eq_false_iff.1 noDigit), if_neg (Bool.eq_false_iff.1 other)]
    exact .ok _ _

end Escape

/-! ## Classes -/

namespace CharClass

theorem gives_readItem_iff {opened : Nat} {here : Cursor} {item : ClassItem} {rest : List Char} :
    Gives (readItem opened here) item rest ↔ Item here.rest item rest := by
  unfold readItem Cursor.next?
  cases here.rest with
  | nil => exact ⟨nofun, nofun⟩
  | cons c s =>
    dsimp only
    by_cases backslash : c = '\\'
    · subst backslash
      rw [if_pos rfl]
      have escapes := fun escape rest =>
        @Escape.gives_read_iff here.offset (here.advance '\\' s) escape rest
      have text : (here.advance '\\' s).rest = s := rfl
      rw [text] at escapes
      constructor
      · intro h
        split at h
        · exact absurd h Gives.not_error
        · rename_i read
          obtain ⟨rfl, rfl⟩ := Gives.ok_iff.1 h
          exact .char ((escapes _ _).1 ⟨_, read, rfl⟩)
        · rename_i read
          obtain ⟨rfl, rfl⟩ := Gives.ok_iff.1 h
          exact .shorthand ((escapes _ _).1 ⟨_, read, rfl⟩)
        · exact absurd h Gives.not_error
      · intro h
        cases h with
        | raw plain => exact absurd rfl plain
        | char escape =>
          obtain ⟨after, read, eq⟩ := (escapes _ _).2 escape
          rw [read]
          exact Gives.ok_iff.2 ⟨rfl, eq⟩
        | shorthand escape =>
          obtain ⟨after, read, eq⟩ := (escapes _ _).2 escape
          rw [read]
          exact Gives.ok_iff.2 ⟨rfl, eq⟩
    · rw [if_neg backslash, Gives.ok_iff]
      constructor
      · rintro ⟨rfl, rfl⟩
        exact .raw backslash
      · intro h
        cases h with
        | raw => exact ⟨rfl, rfl⟩
        | char | shorthand => exact absurd rfl backslash

/-- An item is a single character or a shorthand. -/
theorem single_or_shorthand_of_item {item : ClassItem} {s rest : List Char}
    (h : Item s item rest) :
    (∃ c, item = .single c) ∨ ∃ set negated, item = .shorthand set negated := by
  cases h with
  | raw | char => exact .inl ⟨_, rfl⟩
  | shorthand => exact .inr ⟨_, _, rfl⟩

theorem behindHyphen?_eq_some_iff {here behind : Cursor} :
    behindHyphen? here = some behind ↔
      Joins here.rest ∧ behind = here.advance '-' here.rest.tail := by
  unfold behindHyphen? Joins
  split
  · rename_i c rest text
    rw [text]
    by_cases closes : c = ']'
    · rw [if_pos closes]
      refine ⟨nofun, ?_⟩
      rintro ⟨⟨d, s, same, inside⟩, -⟩
      cases same
      exact absurd closes inside
    · rw [if_neg closes]
      constructor
      · rintro ⟨⟩
        exact ⟨⟨c, rest, rfl, closes⟩, rfl⟩
      · rintro ⟨-, rfl⟩
        rfl
  · rename_i other
    refine ⟨nofun, ?_⟩
    rintro ⟨⟨c, rest, text, -⟩, -⟩
    exact absurd text (other c rest)

theorem behindHyphen?_eq_none_iff {here : Cursor} :
    behindHyphen? here = none ↔ ¬ Joins here.rest := by
  rw [Option.eq_none_iff_forall_ne_some]
  constructor
  · intro h joins
    exact h _ (behindHyphen?_eq_some_iff.2 ⟨joins, rfl⟩)
  · intro h behind eq
    exact h (behindHyphen?_eq_some_iff.1 eq).1

theorem member_of_readMember {opened : Nat} {here : Cursor} {items : List ClassItem}
    {rest : List Char} (h : Gives (readMember opened here) items rest) :
    Member here.rest items rest := by
  obtain ⟨lower, mid, first, h⟩ := h.of_bind
  have first := gives_readItem_iff.1 first
  dsimp only at h
  rcases single_or_shorthand_of_item first with ⟨lo, rfl⟩ | ⟨set, negated, rfl⟩
  · cases hyphen : behindHyphen? mid with
    | none =>
      rw [hyphen] at h
      obtain ⟨rfl, rfl⟩ := Gives.ok_iff.1 h
      refine .alone first ?_
      rintro c -
      exact behindHyphen?_eq_none_iff.1 hyphen
    | some behind =>
      rw [hyphen] at h
      obtain ⟨joins, rfl⟩ := behindHyphen?_eq_some_iff.1 hyphen
      obtain ⟨d, s, text, -⟩ := id joins
      rw [text] at first joins
      obtain ⟨upper, last, second, h⟩ := h.of_bind
      have second := gives_readItem_iff.1 second
      have behind : (mid.advance '-' mid.rest.tail).rest = d :: s := by rw [text]; rfl
      rw [behind] at second
      dsimp only at h
      rcases single_or_shorthand_of_item second with ⟨hi, rfl⟩ | ⟨set, negated, rfl⟩
      · dsimp only [ClassItem.single] at h
        split at h
        · exact absurd h Gives.not_error
        · rename_i ordered
          obtain ⟨rfl, rfl⟩ := Gives.ok_iff.1 h
          exact .range first joins second (Char.not_lt.1 ordered)
      · obtain ⟨rfl, rfl⟩ := Gives.ok_iff.1 h
        exact .hyphen first joins second
  · obtain ⟨rfl, rfl⟩ := Gives.ok_iff.1 h
    exact .alone first nofun

theorem gives_readMember_iff {opened : Nat} {here : Cursor} {items : List ClassItem}
    {rest : List Char} :
    Gives (readMember opened here) items rest ↔ Member here.rest items rest := by
  refine ⟨member_of_readMember, ?_⟩
  intro h
  generalize text : here.rest = s at h
  -- behind a first item that a hyphen joins the second one is read
  have behind {mid : Cursor} {s : List Char} (eq : mid.rest = '-' :: s) (joins : Joins ('-' :: s)) :
      behindHyphen? mid = some (mid.advance '-' s) := by
    refine behindHyphen?_eq_some_iff.2 ⟨eq ▸ joins, ?_⟩
    rw [eq]
    rfl
  cases h with
  | @alone item s rest one apart =>
    apply (gives_readItem_iff.2 (text ▸ one)).bind
    intro mid eq
    rcases single_or_shorthand_of_item one with ⟨lo, rfl⟩ | ⟨set, negated, rfl⟩
    · have none_behind : behindHyphen? mid = none :=
        behindHyphen?_eq_none_iff.2 (eq ▸ apart lo rfl)
      dsimp only [ClassItem.single]
      rw [none_behind]
      exact Gives.ok_iff.2 ⟨rfl, eq⟩
    · exact Gives.ok_iff.2 ⟨rfl, eq⟩
  | range lower joins upper ordered =>
    apply (gives_readItem_iff.2 (text ▸ lower)).bind
    intro mid eq
    dsimp only [ClassItem.single]
    rw [behind eq joins]
    apply (gives_readItem_iff.2 upper).bind
    intro last eq
    dsimp only [ClassItem.single]
    rw [if_neg (Char.not_lt.2 ordered)]
    exact Gives.ok_iff.2 ⟨rfl, eq⟩
  | hyphen lower joins upper =>
    apply (gives_readItem_iff.2 (text ▸ lower)).bind
    intro mid eq
    dsimp only [ClassItem.single]
    rw [behind eq joins]
    apply (gives_readItem_iff.2 upper).bind
    intro last eq
    exact Gives.ok_iff.2 ⟨rfl, eq⟩

theorem members_of_readMembers {opened : Nat} {here : Cursor} {items : List ClassItem}
    {rest : List Char} (h : Gives (readMembers opened here) items rest) :
    Members here.rest items rest := by
  fun_induction readMembers opened here generalizing items with
  | case1 => exact absurd h Gives.not_error
  | case2 here after next =>
    obtain ⟨rfl, rfl⟩ := Gives.ok_iff.1 h
    rw [Cursor.rest_of_next next]
    exact .close
  | case3 => exact absurd h Gives.not_error
  | case4 here c after next inside members mid read ih =>
    obtain ⟨others, last, further, h⟩ := h.of_bind
    obtain ⟨rfl, rfl⟩ := Gives.ok_iff.1 h
    refine .cons ?_ (member_of_readMember ⟨mid, read, rfl⟩) (ih further)
    rw [Cursor.rest_of_next next]
    simpa using inside

theorem gives_readMembers_iff {opened : Nat} {here : Cursor} {items : List ClassItem}
    {rest : List Char} :
    Gives (readMembers opened here) items rest ↔ Members here.rest items rest := by
  refine ⟨members_of_readMembers, ?_⟩
  intro h
  generalize text : here.rest = s at h
  induction h generalizing here with
  | close =>
    rw [readMembers, Cursor.next_of_rest text]
    exact .ok _ _
  | @cons items others s mid rest inside first further ih =>
    obtain ⟨after, read, eq⟩ := gives_readMember_iff.2 (text ▸ first)
    obtain ⟨c, s, rfl⟩ : ∃ c s', s = c :: s' := by
      cases s with
      | nil => cases first with | alone one | range one | hyphen one => cases one
      | cons c s => exact ⟨c, s, rfl⟩
    have opens : c ≠ ']' := by simpa using inside
    rw [readMembers, Cursor.next_of_rest text]
    dsimp only
    rw [if_neg opens]
    split
    · rename_i failed
      cases read.symm.trans failed
    · rename_i succeeded
      cases read.symm.trans succeeded
      apply (ih eq).bind
      intro last eq
      exact Gives.ok_iff.2 ⟨rfl, eq⟩

theorem readNegation_of_marked {here : Cursor} {s : List Char} (h : here.rest = '^' :: s) :
    readNegation here = (true, here.advance '^' s) := by
  unfold readNegation
  rw [h]
  rfl

theorem readNegation_of_unmarked {here : Cursor} (h : '^' ∉ here.rest.head?) :
    readNegation here = (false, here) := by
  unfold readNegation
  split
  · rename_i text
    rw [text] at h
    exact absurd rfl h
  · rfl

theorem gives_read_iff {opened : Nat} {here : Cursor} {cls : CharClass} {rest : List Char} :
    Gives (read opened here) cls rest ↔ Class here.rest cls rest := by
  constructor
  · intro h
    unfold read at h
    by_cases marked : '^' ∈ here.rest.head?
    · obtain ⟨s, text⟩ := List.head?_eq_some_iff.1 marked
      rw [readNegation_of_marked text] at h
      obtain ⟨items, mid, first, h⟩ := h.of_bind
      obtain ⟨others, last, further, h⟩ := h.of_bind
      obtain ⟨rfl, rfl⟩ := Gives.ok_iff.1 h
      rw [text]
      exact .negated (member_of_readMember first) (members_of_readMembers further)
    · rw [readNegation_of_unmarked marked] at h
      obtain ⟨items, mid, first, h⟩ := h.of_bind
      obtain ⟨others, last, further, h⟩ := h.of_bind
      obtain ⟨rfl, rfl⟩ := Gives.ok_iff.1 h
      exact .plain marked (member_of_readMember first) (members_of_readMembers further)
  · intro h
    generalize text : here.rest = s at h
    unfold read
    cases h with
    | plain unmarked first further =>
      rw [readNegation_of_unmarked (text ▸ unmarked)]
      apply (gives_readMember_iff.2 (text ▸ first)).bind
      intro mid eq
      apply (gives_readMembers_iff.2 (eq ▸ further)).bind
      intro last eq
      exact Gives.ok_iff.2 ⟨rfl, eq⟩
    | negated first further =>
      rw [readNegation_of_marked text]
      apply (gives_readMember_iff.2 first).bind
      intro mid eq
      apply (gives_readMembers_iff.2 (eq ▸ further)).bind
      intro last eq
      exact Gives.ok_iff.2 ⟨rfl, eq⟩

end CharClass

/-! ## Quantifiers -/

namespace Quantifier

/-- Says that no quantifier begins a text. -/
def Unquantified (s : List Char) : Prop :=
  '*' ∉ s.head? ∧ '+' ∉ s.head? ∧ '?' ∉ s.head? ∧
    ∀ d t, s = '{' :: d :: t → d.isDigit = false

theorem startsAt_eq_false_iff {here : Cursor} :
    startsAt here = false ↔ Unquantified here.rest := by
  unfold startsAt Unquantified
  split
  · rename_i text
    simp [text]
  · rename_i text
    simp [text]
  · rename_i text
    simp [text]
  · rename_i c s text
    simp [text]
  · rename_i noStar noPlus noQuestion noBrace
    refine ⟨fun _ => ⟨?_, ?_, ?_, ?_⟩, fun _ => rfl⟩
    · intro first
      obtain ⟨s, eq⟩ := List.head?_eq_some_iff.1 first
      exact noStar s eq
    · intro first
      obtain ⟨s, eq⟩ := List.head?_eq_some_iff.1 first
      exact noPlus s eq
    · intro first
      obtain ⟨s, eq⟩ := List.head?_eq_some_iff.1 first
      exact noQuestion s eq
    · intro d t eq
      exact absurd eq (noBrace d t)

theorem takeWhile_digits {ds rest : List Char} (digits : ∀ c ∈ ds, c.isDigit = true)
    (ends : ∀ c ∈ rest.head?, c.isDigit = false) :
    (ds ++ rest).takeWhile Char.isDigit = ds ∧ (ds ++ rest).dropWhile Char.isDigit = rest := by
  rw [List.takeWhile_append_of_pos digits, List.dropWhile_append_of_pos digits]
  cases rest with
  | nil => simp
  | cons c rest =>
    have stops : c.isDigit = false := ends c rfl
    simp [stops]

theorem bound_of_readBound {start value : Nat} {here : Cursor} {rest : List Char}
    (h : Gives (readBound start here) value rest) :
    ∃ ds, Bound ds ∧ value = valueOf ds ∧ here.rest = ds ++ rest := by
  unfold readBound at h
  dsimp only at h
  split at h
  · exact absurd h Gives.not_error
  · rename_i readable
    obtain ⟨rfl, rfl⟩ := Gives.ok_iff.1 h
    simp only [Bool.or_eq_true, List.isEmpty_iff, decide_eq_true_eq, not_or] at readable
    have digits := List.all_eq_true.1 (List.all_takeWhile (l := here.rest) (p := Char.isDigit))
    exact ⟨_, ⟨readable.1, digits, Nat.le_of_not_lt readable.2⟩, rfl,
      List.takeWhile_append_dropWhile.symm⟩

theorem gives_readBound {start : Nat} {here : Cursor} {ds rest : List Char} (bound : Bound ds)
    (text : here.rest = ds ++ rest) (ends : ∀ c ∈ rest.head?, c.isDigit = false) :
    Gives (readBound start here) (valueOf ds) rest := by
  obtain ⟨taken, dropped⟩ := takeWhile_digits bound.digit ends
  unfold readBound
  dsimp only
  rw [text, taken, dropped, if_neg]
  · exact Gives.ok_iff.2 ⟨rfl, rfl⟩
  · simp only [Bool.or_eq_true, List.isEmpty_iff, decide_eq_true_eq, not_or]
    exact ⟨bound.nonempty, Nat.not_lt.2 bound.small⟩

theorem rounds_of_readBounds {start min : Nat} {max : Option Nat} {here : Cursor}
    {rest : List Char} (h : Gives (readBounds start here) (min, max) rest) :
    Rounds ('{' :: here.rest) min max rest := by
  obtain ⟨lower, mid, first, h⟩ := h.of_bind
  obtain ⟨ds, bound, rfl, text⟩ := bound_of_readBound first
  dsimp only at h
  split at h
  · rename_i s eq
    obtain ⟨same, rfl⟩ := Gives.ok_iff.1 h
    cases same
    rw [text, eq]
    exact .exactly bound
  · rename_i s eq
    obtain ⟨same, rfl⟩ := Gives.ok_iff.1 h
    cases same
    rw [text, eq]
    exact .atLeast bound
  · rename_i s _ eq
    obtain ⟨upper, last, second, h⟩ := h.of_bind
    obtain ⟨es, bound', rfl, text'⟩ := bound_of_readBound second
    dsimp only at h
    split at h
    · rename_i t eq'
      split at h
      · exact absurd h Gives.not_error
      · rename_i ordered
        obtain ⟨same, rfl⟩ := Gives.ok_iff.1 h
        cases same
        have behind : s = es ++ '}' :: t := eq' ▸ text'
        rw [text, eq, behind]
        exact .between bound bound' (Nat.le_of_not_lt ordered)
    · exact absurd h Gives.not_error
  · exact absurd h Gives.not_error

theorem gives_readBounds {start min : Nat} {max : Option Nat} {here : Cursor}
    {rest : List Char} (h : Rounds ('{' :: here.rest) min max rest) :
    Gives (readBounds start here) (min, max) rest := by
  generalize text : '{' :: here.rest = s at h
  have brace : ∀ c ∈ ('}' :: rest).head?, c.isDigit = false := by
    rintro c ⟨⟩
    rfl
  have comma : ∀ s, ∀ c ∈ (',' :: s : List Char).head?, c.isDigit = false := by
    rintro s c ⟨⟩
    rfl
  cases h with
  | star | plus | question => cases text
  | exactly bound =>
    have text := (List.cons.inj text).2
    apply (gives_readBound bound text brace).bind
    intro mid eq
    dsimp only
    rw [eq]
    exact Gives.ok_iff.2 ⟨rfl, rfl⟩
  | atLeast bound =>
    have text := (List.cons.inj text).2
    apply (gives_readBound bound text (comma _)).bind
    intro mid eq
    dsimp only
    rw [eq]
    exact Gives.ok_iff.2 ⟨rfl, rfl⟩
  | @between ds es _ bound bound' ordered =>
    have text := (List.cons.inj text).2
    apply (gives_readBound bound text (comma _)).bind
    intro mid eq
    obtain ⟨e, es', rfl⟩ := List.exists_cons_of_ne_nil bound'.nonempty
    have digit : e ≠ '}' := by
      rintro rfl
      cases bound'.digit '}' List.mem_cons_self
    dsimp only
    rw [eq]
    split
    · rename_i other
      cases other
    · rename_i other
      cases other
      exact absurd rfl digit
    · rename_i other
      cases other
      apply (gives_readBound bound' rfl brace).bind
      intro last eq
      rw [eq]
      change Gives (if valueOf (e :: es') < valueOf ds then _ else _) _ _
      rw [if_neg (Nat.not_lt.2 ordered)]
      exact .ok _ _
    · rename_i other
      exact absurd rfl (other _)

theorem readRounds_of_brace {here : Cursor} {s : List Char} (h : here.rest = '{' :: s) :
    readRounds here = readBounds here.offset (here.advance '{' s) := by
  unfold readRounds
  rw [h]
  rfl

theorem gives_readRounds_iff {min : Nat} {max : Option Nat} {here : Cursor} {rest : List Char}
    (starts : startsAt here = true) :
    Gives (readRounds here) (min, max) rest ↔ Rounds here.rest min max rest := by
  unfold startsAt at starts
  split at starts
  case h_4 c s text =>
    rw [readRounds_of_brace text, text]
    have behind : (here.advance '{' (c :: s)).rest = c :: s := rfl
    rw [← behind]
    exact ⟨rounds_of_readBounds, gives_readBounds⟩
  case h_5 => cases starts
  all_goals
    rename_i text
    unfold readRounds
    rw [text]
    constructor
    · intro h
      obtain ⟨same, rfl⟩ := Gives.ok_iff.1 h
      cases same
      constructor
    · rintro ⟨⟩
      exact .ok _ _

/-- A quantifier begins with one of its marks, or with a brace and a digit. -/
theorem startsAt_of_rounds {here : Cursor} {min : Nat} {max : Option Nat} {rest : List Char}
    (h : Rounds here.rest min max rest) : startsAt here = true := by
  have braced {ds s : List Char} (bound : Bound ds) (text : here.rest = '{' :: (ds ++ s)) :
      startsAt here = true := by
    obtain ⟨d, ds, rfl⟩ := List.exists_cons_of_ne_nil bound.nonempty
    unfold startsAt
    rw [text]
    exact bound.digit d List.mem_cons_self
  generalize text : here.rest = s at h
  cases h with
  | star | plus | question =>
    unfold startsAt
    rw [text]
    rfl
  | exactly bound => exact braced bound text
  | atLeast bound => exact braced bound text
  | between bound => exact braced bound text

/-! ### A part and its quantifier -/

/-- What stands behind a part that a quantifier may follow: the part alone, if none does, or the
part repeated. -/
inductive Behind (atom : Node) : List Char → Node → List Char → Prop where
  | once {s : List Char} (unquantified : Unquantified s) : Behind atom s atom s
  | repeated {q : Quantifier} {s rest : List Char} (repeatable : atom.repeatable = true)
    (quantifier : Quantified s q rest) (unquantified : Unquantified rest) :
    Behind atom s (.repeated atom q) rest

theorem readGreedy_of_lazy {here : Cursor} {s : List Char} (h : here.rest = '?' :: s) :
    readGreedy here = (false, here.advance '?' s) := by
  unfold readGreedy
  rw [h]
  rfl

theorem readGreedy_of_not {here : Cursor} (h : '?' ∉ here.rest.head?) :
    readGreedy here = (true, here) := by
  unfold readGreedy
  split
  · rename_i text
    rw [text] at h
    exact absurd rfl h
  · rfl

theorem behind_of_readBehind {atom node : Node} {start : Nat} {here : Cursor}
    {rest : List Char} (h : Gives (readBehind atom start here) node rest) :
    Behind atom here.rest node rest := by
  unfold readBehind at h
  split at h
  · rename_i starts
    obtain ⟨⟨min, max⟩, mid, rounds, h⟩ := h.of_bind
    have rounds := (gives_readRounds_iff starts).1 rounds
    dsimp only at h
    split at h
    · rename_i repeatable
      by_cases marked : '?' ∈ mid.rest.head?
      · obtain ⟨s, text⟩ := List.head?_eq_some_iff.1 marked
        rw [readGreedy_of_lazy text] at h
        dsimp only at h
        split at h
        · exact absurd h Gives.not_error
        · rename_i ends
          obtain ⟨rfl, rfl⟩ := Gives.ok_iff.1 h
          rw [text] at rounds
          exact .repeated repeatable (.lazy rounds)
            (startsAt_eq_false_iff.1 (Bool.eq_false_iff.2 ends))
      · rw [readGreedy_of_not marked] at h
        dsimp only at h
        split at h
        · exact absurd h Gives.not_error
        · rename_i ends
          obtain ⟨rfl, rfl⟩ := Gives.ok_iff.1 h
          exact .repeated repeatable (.greedy rounds)
            (startsAt_eq_false_iff.1 (Bool.eq_false_iff.2 ends))
    · exact absurd h Gives.not_error
  · rename_i ends
    obtain ⟨rfl, rfl⟩ := Gives.ok_iff.1 h
    exact .once (startsAt_eq_false_iff.1 (Bool.eq_false_iff.2 ends))

theorem gives_readBehind_iff {atom node : Node} {start : Nat} {here : Cursor}
    {rest : List Char} :
    Gives (readBehind atom start here) node rest ↔ Behind atom here.rest node rest := by
  refine ⟨behind_of_readBehind, ?_⟩
  intro h
  generalize text : here.rest = s at h
  unfold readBehind
  cases h with
  | once unquantified =>
    rw [startsAt_eq_false_iff.2 (text ▸ unquantified), if_neg Bool.false_ne_true]
    exact Gives.ok_iff.2 ⟨rfl, text⟩
  | repeated repeatable quantifier unquantified =>
    cases quantifier with
    | greedy rounds =>
      have starts := startsAt_of_rounds (text ▸ rounds)
      rw [if_pos starts]
      apply ((gives_readRounds_iff starts).2 (text ▸ rounds)).bind
      intro mid eq
      have ends := startsAt_eq_false_iff.2 (eq ▸ unquantified)
      dsimp only
      rw [if_pos repeatable, readGreedy_of_not (eq ▸ unquantified.2.2.1)]
      dsimp only
      rw [ends, if_neg Bool.false_ne_true]
      exact Gives.ok_iff.2 ⟨rfl, eq⟩
    | lazy rounds =>
      have starts := startsAt_of_rounds (text ▸ rounds)
      rw [if_pos starts]
      apply ((gives_readRounds_iff starts).2 (text ▸ rounds)).bind
      intro mid eq
      have ends : startsAt (mid.advance '?' rest) = false :=
        startsAt_eq_false_iff.2 unquantified
      dsimp only
      rw [if_pos repeatable, readGreedy_of_lazy eq]
      dsimp only
      rw [ends, if_neg Bool.false_ne_true]
      exact .ok _ _

end Quantifier

end RegexEngine
