import Mathlib
import RegexEngine.Proofs.Literals.Programs
import RegexEngine.Proofs.Search.Rebuilding
import RegexEngine.Proofs.Text.Bytes

/-!
# Searching for a text

To search for an escaped text is to search for the bytes of the text: the first match is its first
occurrence, all matches are its occurrences from left to right, and replacing the matches exchanges
the text for another one (`Regex.readsText_of_escape`). No limit is in the way as long as an attempt
may execute an instruction for every character and one more.

`SpelledFrom` is the list of matches in terms of positions. From it everything that is asked about
the list is read off by induction.
-/

namespace RegexEngine

/-! ## What is searched for -/

/-- Says that `j` is the first byte from `i` on at which `s` stands in a text. -/
structure FirstFrom (s text : String) (i j : Nat) : Prop where
  le : i ≤ j
  occurs : Occurs s text j
  first : ∀ k, i ≤ k → k < j → ¬ Occurs s text k

/-- Says that these are the bytes from `i` on at which `s` stands in a text, each the first one that
does not overlap the one before. -/
inductive OccurrencesFrom (s text : String) : Nat → List Nat → Prop where
  | nil {i : Nat} (absent : ∀ k, i ≤ k → ¬ Occurs s text k) : OccurrencesFrom s text i []
  | cons {i j : Nat} {js : List Nat} (next : FirstFrom s text i j)
    (others : OccurrencesFrom s text (j + s.utf8ByteSize) js) : OccurrencesFrom s text i (j :: js)

/-- The bytes at which the characters of a text begin, and its end. -/
def boundaries (text : String) : List Nat :=
  text.toList.scanl (fun offset c => offset + c.utf8Size) 0

/-- The text with `s` exchanged for `r` wherever it stands, from left to right. The empty text
stands before every character and at the end. -/
def exchange (s r : List Char) : List Char → List Char
  | [] => if s.isEmpty then r else []
  | c :: cs =>
    if s.isEmpty then r ++ c :: exchange s r cs
    else if s.isPrefixOf (c :: cs) then r ++ exchange s r (cs.drop (s.length - 1))
    else c :: exchange s r cs
termination_by cs => cs.length

/-- The text from a position on, with `s` exchanged only behind the position where the search goes
on, if it does. -/
def exchangeFrom (s r : List Char) (here : Cursor) : Option Cursor → List Char
  | none => here.rest
  | some start => here.textTo start ++ exchange s r start.rest

namespace Cursor

variable {q : Cursor} {cs : List Char}

theorem reaches_spelled (h : cs <+: q.rest) : q.Reaches (q.spelled cs).whole.stop := by
  obtain ⟨further, eq⟩ := h
  refine ⟨cs, ?_, rfl⟩
  rw [spelled, ← eq, List.drop_left]

theorem resume_spelled (nonempty : cs ≠ []) :
    Matches.resume (q.spelled cs) = some (q.spelled cs).whole.stop := by
  have size := length_le_byteLength cs
  have := List.length_pos_iff.2 nonempty
  refine if_neg ?_
  simp only [spelled, Span.isEmpty, Span.length, beq_iff_eq]
  omega

theorem resume_spelled_nil (q : Cursor) :
    Matches.resume (q.spelled []) = q.next?.map (·.2) := by
  refine if_pos ?_
  simp [spelled, Span.isEmpty, Span.length]

theorem textTo_self (here : Cursor) : here.textTo here = [] := by
  unfold textTo
  rw [Nat.sub_self]
  exact takeBytes_append [] here.rest

theorem textTo_append {a b c : Cursor} (hab : a.Reaches b) (hbc : b.Reaches c) :
    a.textTo c = a.textTo b ++ b.textTo c := by
  have first := rest_eq_textTo_append hab
  rw [rest_eq_textTo_append hbc, ← List.append_assoc, rest_eq_textTo_append (hab.trans hbc)]
    at first
  exact List.append_cancel_right first

end Cursor

/-! ## Positions and bytes -/

section

variable {s text : String} {here : Cursor} (within : (Cursor.ofString text).Reaches here)

include within

/-- What stands at a byte from a position on stands at a position up to that byte. -/
theorem Occurs.exists_ahead {i : Nat} (h : Occurs s text i) (le : here.offset ≤ i) :
    ∃ p, here.Reaches p ∧ p.offset ≤ i ∧ s.toList <+: p.rest := by
  by_cases nonempty : s = ""
  · subst nonempty
    exact ⟨here, .refl here, le, List.nil_prefix⟩
  · obtain ⟨p, within', rfl, stands⟩ := h.exists_reaches nonempty
    exact ⟨p, within.of_offset_le within' le, Nat.le_refl _, stands⟩

theorem not_occurs_of_absent (absent : ∀ q, here.Reaches q → ¬ s.toList <+: q.rest) (i : Nat)
    (le : here.offset ≤ i) : ¬ Occurs s text i := by
  intro occurs
  obtain ⟨p, ahead, -, stands⟩ := occurs.exists_ahead within le
  exact absent p ahead stands

theorem FirstFrom.of_first {q : Cursor} (ahead : here.Reaches q) (stands : s.toList <+: q.rest)
    (first : ∀ p, here.Reaches p → p.offset < q.offset → ¬ s.toList <+: p.rest) :
    FirstFrom s text here.offset q.offset := by
  refine ⟨ahead.offset_le, .of_reaches (within.trans ahead) stands, ?_⟩
  intro k le lt occurs
  obtain ⟨p, ahead', le', stands'⟩ := occurs.exists_ahead within le
  exact first p ahead' (Nat.lt_of_le_of_lt le' lt) stands'

end

/-! ## Exchanging -/

section

variable {s r : List Char}

theorem exchange_append_of_absent (between rest : List Char)
    (absent : ∀ before behind, between = before ++ behind → behind ≠ [] → ¬ s <+: behind ++ rest) :
    exchange s r (between ++ rest) = between ++ exchange s r rest := by
  induction between with
  | nil => rfl
  | cons c between ih =>
    have here := absent [] (c :: between) rfl (List.cons_ne_nil _ _)
    have nonempty : s.isEmpty = false := by
      cases s with
      | nil => exact absurd List.nil_prefix here
      | cons => rfl
    have others : exchange s r (between ++ rest) = between ++ exchange s r rest := by
      apply ih
      rintro before behind rfl
      exact absent (c :: before) behind rfl
    rw [List.cons_append, exchange, nonempty, if_neg Bool.false_ne_true, if_neg, others]
    · rfl
    · rwa [List.isPrefixOf_iff_prefix]

theorem exchange_of_absent {here : Cursor} (absent : ∀ q, here.Reaches q → ¬ s <+: q.rest) :
    exchange s r here.rest = here.rest := by
  have nonempty : s.isEmpty ≠ true := by
    rw [ne_eq, List.isEmpty_iff]
    rintro rfl
    exact absent here (.refl here) List.nil_prefix
  have all := exchange_append_of_absent (s := s) (r := r) here.rest [] ?_
  · rwa [exchange, if_neg nonempty, List.append_nil] at all
  · intro before behind eq _
    rw [List.append_nil]
    exact absent ⟨here.offset + byteLength before, behind⟩ ⟨before, eq, rfl⟩

/-- Up to the first position where the text stands nothing is exchanged. -/
theorem exchange_append_of_first {here q : Cursor} (ahead : here.Reaches q)
    (first : ∀ p, here.Reaches p → p.offset < q.offset → ¬ s <+: p.rest) :
    exchange s r here.rest = here.textTo q ++ exchange s r q.rest := by
  have copied := Cursor.rest_eq_textTo_append ahead
  obtain ⟨between, rest, offset⟩ := ahead
  rw [← List.append_cancel_right (rest.symm.trans copied), rest, exchange_append_of_absent]
  rintro before behind rfl nonempty
  have size := length_le_byteLength behind
  have := List.length_pos_iff.2 nonempty
  rw [byteLength_append] at offset
  refine first ⟨here.offset + byteLength before, behind ++ q.rest⟩ ⟨before, ?_, rfl⟩ ?_
  · rw [rest, List.append_assoc]
  · dsimp only
    omega

/-- What is exchanged where the text stands, and what comes behind. -/
theorem exchange_of_stands {q : Cursor} (stands : s <+: q.rest) :
    exchange s r q.rest =
      r ++ exchangeFrom s r (q.spelled s).whole.stop (Matches.resume (q.spelled s)) := by
  cases s with
  | nil =>
    have stays : (q.spelled []).whole.stop = q := rfl
    rw [Cursor.resume_spelled_nil, stays]
    cases rest : q.rest with
    | nil =>
      rw [Cursor.next_eq_none_iff.2 rest, exchange]
      simp [exchangeFrom, rest]
    | cons c others =>
      have step := Cursor.rest_eq_textTo_append (Cursor.reaches_advance rest)
      rw [rest, ← List.singleton_append] at step
      rw [Cursor.next_of_rest rest, exchange, Option.map_some, exchangeFrom,
        ← List.append_cancel_right step]
      rfl
  | cons c s =>
    obtain ⟨further, eq⟩ := stands
    have behind : (q.spelled (c :: s)).whole.stop.rest = further := by
      rw [Cursor.spelled, ← eq, List.drop_left]
    have starts : (c :: s).isPrefixOf (c :: (s ++ further)) = true := by
      rw [List.isPrefixOf_iff_prefix]
      exact ⟨further, rfl⟩
    rw [Cursor.resume_spelled (List.cons_ne_nil c s)]
    rw [exchangeFrom, Cursor.textTo_self, behind, ← eq, List.cons_append, exchange, if_pos starts]
    simp

-- what stands across another occurrence is left alone, and nothing stands before each character
example : exchange ['a', 'a'] ['-'] "baaa".toList = "b-a".toList := by cbv
example : exchange [] ['-'] "é.".toList = "-é-.-".toList := by cbv

end

/-! ## Lists of matches -/

/-- Says that these are the matches of a search for `cs`, one after the other. -/
inductive SpelledFrom (cs : List Char) : Option Cursor → List Match → Prop where
  | ended : SpelledFrom cs none []
  | absent {here : Cursor} (absent : ∀ q, here.Reaches q → ¬ cs <+: q.rest) :
    SpelledFrom cs (some here) []
  | found {here q : Cursor} {ms : List Match} (ahead : here.Reaches q) (stands : cs <+: q.rest)
    (first : ∀ p, here.Reaches p → p.offset < q.offset → ¬ cs <+: p.rest)
    (others : SpelledFrom cs (Matches.resume (q.spelled cs)) ms) :
    SpelledFrom cs (some here) (q.spelled cs :: ms)

namespace SpelledFrom

variable {cs : List Char} {next : Option Cursor} {ms : List Match} {s text : String}

theorem stop_eq (h : SpelledFrom cs next ms) :
    ∀ m ∈ ms, m.whole.stop.offset = m.whole.start.offset + byteLength cs := by
  induction h with
  | ended | absent => exact nofun
  | found _ _ _ _ ih => exact List.forall_mem_cons.2 ⟨rfl, ih⟩

theorem occurrences (h : SpelledFrom s.toList next ms) (nonempty : s ≠ "") {here : Cursor}
    (begins : next = some here) (within : (Cursor.ofString text).Reaches here) :
    OccurrencesFrom s text here.offset (ms.map (·.whole.start.offset)) := by
  induction h generalizing here with
  | ended => cases begins
  | absent absent =>
    cases begins
    exact .nil (not_occurs_of_absent within absent)
  | @found _ q _ ahead stands first _ ih =>
    cases begins
    refine .cons (.of_first within ahead stands first) ?_
    have chars : s.toList ≠ [] := fun nil => nonempty (String.toList_eq_nil_iff.1 nil)
    have stop := (within.trans ahead).trans (Cursor.reaches_spelled stands)
    rw [← byteLength_toList]
    exact ih (Cursor.resume_spelled chars) stop

/-- The empty text stands at every position. -/
theorem boundaries (h : SpelledFrom [] next ms) {here : Cursor} (begins : next = some here) :
    ms.map (·.whole.start.offset) =
      here.rest.scanl (fun offset c => offset + c.utf8Size) here.offset := by
  induction h generalizing here with
  | ended => cases begins
  | absent absent => exact absurd List.nil_prefix (absent _ (.refl _))
  | @found start q _ ahead _ first others ih =>
    cases begins
    obtain rfl : start = q := by
      have le := Nat.le_of_not_lt fun lt => first start (.refl start) lt List.nil_prefix
      exact (Cursor.Reaches.refl start).eq_of_offset_eq ahead (Nat.le_antisymm ahead.offset_le le)
    rw [Cursor.resume_spelled_nil] at others ih
    cases rest : start.rest with
    | nil =>
      rw [Cursor.next_eq_none_iff.2 rest] at others
      cases others
      rfl
    | cons c behind =>
      rw [Cursor.next_of_rest rest] at ih
      rw [List.map_cons, ih rfl, List.scanl_cons]
      rfl

/-- Putting a text in the place of each match. What has not been copied yet may begin before the
position at which the search goes on. -/
theorem rebuild_eq (h : SpelledFrom cs next ms) (r written : String) (here : Cursor)
    (behind : ∀ start, next = some start → here.Reaches start) :
    rebuild written here (ms.map fun m => (m, r)) =
      written ++ String.ofList (exchangeFrom cs r.toList here next) := by
  induction h generalizing written here with
  | ended => rfl
  | @absent start absent =>
    rw [exchangeFrom, exchange_of_absent absent, ← Cursor.rest_eq_textTo_append (behind start rfl)]
    rfl
  | @found start q _ ahead stands first _ ih =>
    have copied : here.textTo start ++ exchange cs r.toList start.rest =
        here.textTo q ++ exchange cs r.toList q.rest := by
      rw [Cursor.textTo_append (behind start rfl) ahead, List.append_assoc,
        ← exchange_append_of_first ahead first]
    rw [exchangeFrom, copied, exchange_of_stands stands, List.map_cons, rebuild,
      ih _ _ fun _ resumed => Matches.reaches_of_resume resumed]
    simp only [String.ofList_append, String.ofList_toList, String.append_assoc]
    rfl

end SpelledFrom

/-! ## What programs find -/

namespace Program.Seeks

variable {program : Program} {limits : Limits} {cs : List Char} {here q : Cursor}

theorem matchAt_eq_none_iff (h : program.Seeks limits cs) :
    program.matchAt limits q = .ok none ↔ ¬ cs <+: q.rest := by
  rw [h q]
  split <;> simp [*]

/-- The first attempt that answers finds the characters. -/
theorem of_firstAnswer (h : program.Seeks limits cs) {answer : Except LimitError (Option Match)}
    (found : program.FirstAnswer limits here q answer) :
    answer = .ok (some (q.spelled cs)) ∧ cs <+: q.rest ∧
      ∀ p, here.Reaches p → p.offset < q.offset → ¬ cs <+: p.rest := by
  have before := fun p ahead lt => h.matchAt_eq_none_iff.1 (found.before p ahead lt)
  have attempt := (h q).symm.trans found.attempt
  split at attempt
  · rename_i stands
    exact ⟨attempt.symm, stands, before⟩
  · exact absurd attempt.symm found.answers

theorem spelled_of_successive (h : program.Seeks limits cs) {next : Option Cursor}
    {ms : List Match} {failure : Option LimitError}
    (successive : Matches.Successive program limits next ms failure) :
    failure = none ∧ SpelledFrom cs next ms := by
  induction ms generalizing next with
  | nil =>
    cases failure with
    | some e =>
      obtain ⟨here, q, -, failed⟩ := successive.failed e rfl
      cases (h.of_firstAnswer failed).1
    | none =>
      cases next with
      | none => exact ⟨rfl, .ended⟩
      | some here =>
        refine ⟨rfl, .absent fun q ahead => h.matchAt_eq_none_iff.1 ?_⟩
        exact successive.ended rfl here rfl q ahead
  | cons m ms ih =>
    obtain ⟨here, rfl, leftmost, others⟩ := successive.of_cons
    obtain ⟨found, stands, before⟩ := h.of_firstAnswer leftmost
    have spelled : m.whole.start.spelled cs = m := (Option.some.inj (Except.ok.inj found)).symm
    obtain ⟨ended, listed⟩ := ih others
    rw [← spelled] at listed
    refine ⟨ended, ?_⟩
    rw [← spelled]
    exact .found leftmost.reaches stands before listed

theorem exists_find?_eq (h : program.Seeks limits cs) (steps : 0 < limits.steps)
    (anchored : program.anchored = beginsAtStart program.code) (here : Cursor) :
    ∃ found, program.find? limits here = .ok found := by
  rcases Program.find?_eq_none_or_firstAnswer anchored fun _ => steps with
    ⟨missed, -⟩ | ⟨q, leftmost⟩
  · exact ⟨_, missed⟩
  · exact ⟨_, (h.of_firstAnswer leftmost).1⟩

end Program.Seeks

/-! ## Escaped texts -/

namespace Regex

/-- Says that a regular expression does to a text what `s`, taken as it is, does: no search errs,
and matches are the occurrences of its bytes. -/
structure ReadsText (re : Regex) (s text : String) : Prop where
  find : re.find? text = .ok none ∧ (∀ i, ¬ Occurs s text i) ∨
    ∃ m, re.find? text = .ok (some m) ∧ FirstFrom s text 0 m.whole.start.offset ∧
      m.whole.stop.offset = m.whole.start.offset + s.utf8ByteSize
  findAll : ∃ ms : List Match, re.findAll text = ms.map .ok ∧
    (∀ m ∈ ms, m.whole.stop.offset = m.whole.start.offset + s.utf8ByteSize) ∧
    (s ≠ "" → OccurrencesFrom s text 0 (ms.map (·.whole.start.offset))) ∧
    (s = "" → ms.map (·.whole.start.offset) = boundaries text)
  replace : ∀ r, re.replace text r =
    .ok (String.ofList (exchange s.toList r.toList text.toList))
  isMatch : ∃ matched, re.isMatch text = .ok matched ∧ (matched = true ↔ ∃ i, Occurs s text i)
  findAt : ∀ n, ∃ found, re.findAt? text n = .ok found
  replaceWith : ∀ substitute, ∃ written, re.replaceWith text substitute = .ok written

variable {re : Regex} {s text : String}

theorem exists_spelled (seeks : re.program.Seeks re.options.limits s.toList)
    (anchored : re.program.anchored = beginsAtStart re.program.code) (text : String) :
    ∃ ms : List Match, re.findAll text = ms.map .ok ∧
      SpelledFrom s.toList (some (.ofString text)) ms := by
  obtain ⟨ms, failure, items, successive⟩ := (re.allMatches text).exists_successive anchored (by
    rintro _ ⟨⟩ behind
    exact absurd behind (Nat.lt_irrefl 0))
  obtain ⟨rfl, spelled⟩ := seeks.spelled_of_successive successive
  exact ⟨ms, by simpa [findAll] using items, spelled⟩

theorem find_of_seeks (seeks : re.program.Seeks re.options.limits s.toList)
    (anchored : re.program.anchored = beginsAtStart re.program.code) (text : String) :
    re.find? text = .ok none ∧ (∀ i, ¬ Occurs s text i) ∨
      ∃ m, re.find? text = .ok (some m) ∧ FirstFrom s text 0 m.whole.start.offset ∧
        m.whole.stop.offset = m.whole.start.offset + s.utf8ByteSize := by
  have whole := Cursor.Reaches.refl (.ofString text)
  have searches : re.find? text = re.program.find? re.options.limits (.ofString text) :=
    Program.findAt?_zero text
  have at_start : 0 < (Cursor.ofString text).offset → 0 < re.options.limits.steps :=
    fun behind => absurd behind (Nat.lt_irrefl 0)
  rw [searches]
  rcases Program.find?_eq_none_or_firstAnswer anchored at_start with
    ⟨missed, nothing⟩ | ⟨q, leftmost⟩
  · refine .inl ⟨missed, fun i => ?_⟩
    exact not_occurs_of_absent whole
      (fun q ahead => seeks.matchAt_eq_none_iff.1 (nothing q ahead)) i (Nat.zero_le i)
  · obtain ⟨found, stands, before⟩ := seeks.of_firstAnswer leftmost
    refine .inr ⟨q.spelled s.toList, found, .of_first whole leftmost.reaches stands before, ?_⟩
    rw [← byteLength_toList]
    rfl

theorem readsText_of_seeks (seeks : re.program.Seeks re.options.limits s.toList)
    (anchored : re.program.anchored = beginsAtStart re.program.code)
    (steps : 0 < re.options.limits.steps) (text : String) : re.ReadsText s text := by
  obtain ⟨ms, items, spelled⟩ := exists_spelled seeks anchored text
  have whole := Cursor.Reaches.refl (.ofString text)
  constructor
  case find => exact find_of_seeks seeks anchored text
  case findAll =>
    refine ⟨ms, items, byteLength_toList s ▸ spelled.stop_eq, ?_, ?_⟩
    · exact fun nonempty => spelled.occurrences nonempty rfl whole
    · rintro rfl
      exact SpelledFrom.boundaries spelled rfl
  case replace =>
    intro r
    refine (replaceWith_of_findAll items _).trans (congrArg Except.ok ?_)
    rw [spelled.rebuild_eq r "" (.ofString text), exchangeFrom, Cursor.textTo_self]
    · exact String.empty_append
    · rintro _ ⟨⟩
      exact whole
  case isMatch =>
    unfold isMatch
    rcases find_of_seeks seeks anchored text with ⟨missed, nowhere⟩ | ⟨m, found, first, -⟩
    · rw [missed]
      exact ⟨false, rfl, nofun, fun ⟨i, occurs⟩ => absurd occurs (nowhere i)⟩
    · rw [found]
      exact ⟨true, rfl, fun _ => ⟨_, first.occurs⟩, fun _ => rfl⟩
  case findAt =>
    intro n
    unfold findAt? Program.findAt?
    cases Cursor.atByte? text n with
    | none => exact ⟨none, rfl⟩
    | some here => exact seeks.exists_find?_eq steps anchored here
  case replaceWith => exact fun substitute => ⟨_, replaceWith_of_findAll items substitute⟩

/-- An escaped text is a pattern that reads just this text, if there is room for its program. -/
theorem readsText_of_escape (s : String) (short : s.length ≤ 199999) (limits : Limits) :
    ∃ re, compile (Pattern.escape s) { limits := limits } = .ok re ∧
      (s.length + 1 ≤ limits.steps → ∀ text, re.ReadsText s text) := by
  obtain ⟨program, compiled⟩ := Pattern.exists_compile_chars s.toList
    (Nat.lt_succ_of_le short) false
  have spells := Pattern.spells_of_compile compiled
  refine ⟨⟨Pattern.escape s, program, { limits := limits }⟩, ?_, ?_⟩
  · exact bind_eq_ok_iff.2 ⟨_, Pattern.parse_escape s, bind_eq_ok_iff.2 ⟨program, compiled, rfl⟩⟩
  · intro steps
    exact readsText_of_seeks (spells.seeks steps) spells.anchored (Nat.zero_lt_of_lt steps)

/-- A text of two characters, one of which would match anything, under the least limits. -/
theorem readsText_of_escape_of_dot :
    ∃ re, compile (Pattern.escape "é.") { limits := ⟨3, 0⟩ } = .ok re ∧
      re.ReadsText "é." "xé.é.y" := by
  obtain ⟨re, compiled, reads⟩ := readsText_of_escape "é." (by decide) ⟨3, 0⟩
  exact ⟨re, compiled, reads (by decide) "xé.é.y"⟩

end Regex

end RegexEngine
