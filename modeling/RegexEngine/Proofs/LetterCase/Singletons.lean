import Mathlib
import RegexEngine.Proofs.Limits.Ending
import RegexEngine.Proofs.Literals.Searches
import RegexEngine.Proofs.Search.Rebuilding

/-!
# Classes of one character

Ignoring case, a character of a pattern stands for every character with the same lower-case form,
whereas a class goes by the forms of the text's character alone (`CharClass.accepts_only_iff`). So
the class of one character and the character itself find the same in a text if, and only if, these
two conditions agree on every character of the text (`CharClass.findAll_only_eq_iff`). In ASCII
they always do (`CharClass.accepts_only_of_ascii`); beyond it neither condition implies the other.
-/

namespace RegexEngine

open CaseMapping (lower upper sameLetter)

/-! ## What is accepted -/

namespace CharClass

/-- The class that lists one character. -/
def only (c : Char) : CharClass := ⟨[.single c], false⟩

variable {c d : Char}

theorem lists_only : (only c).lists d = true ↔ d = c := by
  unfold lists only ClassItem.single
  rw [List.any_cons, List.any_nil, Bool.or_false, ClassItem.contains, Bool.and_eq_true,
    decide_eq_true_eq, decide_eq_true_eq, and_comm]
  exact le_antisymm_iff.symm

theorem accepts_only_iff :
    (only c).accepts true d = true ↔ d = c ∨ lower d = c ∨ upper d = c := by
  rw [accepts, show (only c).negated = false from rfl, Bool.bne_false, covers, Bool.true_and,
    Bool.or_eq_true, Bool.or_eq_true, lists_only, lists_only, lists_only]

end CharClass

/-! ## Programs that read one character -/

/-- What comes of an attempt to read one accepted character: an instruction reads it and another
accepts. -/
def attemptChar (limits : Limits) (accepts : Char → Bool) (here : Cursor) :
    Except LimitError (Option Match) :=
  if here.rest.head?.any accepts then
    if limits.steps < 2 then .error (.steps limits.steps)
    else .ok (some (here.spelled (here.rest.take 1)))
  else if limits.steps < 1 then .error (.steps limits.steps) else .ok none

/-- Says that attempts with a program read one accepted character, and do so anywhere. -/
structure Program.ReadsChar (program : Program) (accepts : Char → Bool) : Prop where
  anywhere : program.anchored = false
  matchAt_eq : ∀ limits here, program.matchAt limits here = attemptChar limits accepts here

namespace Program

variable {program : Program} {accepts : Char → Bool}

/-- No alternative is kept, so the height of the stack is never in the way. -/
theorem matchAt_eq_of_attemptEnds {steps : Nat} {start : Cursor} {answer : Option Match}
    (ends : program.AttemptEnds start ⟨steps, 0⟩ answer) (limits : Limits) :
    program.matchAt limits start =
      if limits.steps < steps then .error (.steps limits.steps) else .ok answer := by
  have low : ¬ limits.depth < program.peakAt limits.steps start :=
    Nat.not_lt_of_le (Nat.le_trans (ends.peakAt_le limits.steps) (Nat.zero_le _))
  rw [ends.matchAt_eq limits, if_neg low]

theorem readsChar_of_code {inst : Inst} (code : program.code = #[inst, .accept])
    (anywhere : program.anchored = false)
    (reads : ∀ s : Machine.State, s.execute program.ignoreCase inst = s.readChar accepts) :
    program.ReadsChar accepts := by
  refine ⟨anywhere, fun limits here => ?_⟩
  let initial := Machine.State.initial program.registers here
  have first : initial.step program = initial.readChar accepts := by
    unfold Machine.State.step
    rw [code]
    exact reads initial
  unfold Machine.State.readChar at first
  unfold attemptChar
  cases rest : here.rest with
  | nil =>
    rw [Cursor.next_eq_none_iff.2 (show initial.here.rest = [] from rest),
      Machine.State.backtrack_of_alone rfl] at first
    exact matchAt_eq_of_attemptEnds ⟨none, .failed first, rfl⟩ limits
  | cons c others =>
    rw [Cursor.next_of_rest (show initial.here.rest = c :: others from rest)] at first
    dsimp only at first
    rw [List.head?_cons, Option.any_some]
    cases accepted : accepts c with
    | false =>
      rw [accepted, if_neg Bool.false_ne_true, Machine.State.backtrack_of_alone rfl] at first
      exact matchAt_eq_of_attemptEnds ⟨none, .failed first, rfl⟩ limits
    | true =>
      rw [accepted, if_pos rfl] at first
      let after : Machine.State :=
        { initial with pc := initial.pc + 1, here := initial.here.advance c others }
      have last : after.step program = .accepted after := by
        unfold Machine.State.step
        rw [code]
        rfl
      have spelled : after.toMatch here = here.spelled [c] := by
        rw [Machine.State.toMatch_of_blank rfl here, Cursor.spelled, rest]
        rfl
      refine matchAt_eq_of_attemptEnds ⟨some after, .running first (.accepted last), ?_⟩ limits
      rw [Option.map_some, spelled]
      rfl

end Program

/-! ## What a search for one character gives -/

/-- What a search for one accepted character gives from byte `offset` on, where `rest` begins. -/
def charMatches (limits : Limits) (accepts : Char → Bool) (offset : Nat) :
    List Char → List (Except LimitError Match)
  | [] => if limits.steps < 1 then [.error (.steps limits.steps)] else []
  | c :: rest =>
    match attemptChar limits accepts ⟨offset, c :: rest⟩ with
    | .error e => [.error e]
    | .ok (some m) => .ok m :: charMatches limits accepts (offset + c.utf8Size) rest
    | .ok none => charMatches limits accepts (offset + c.utf8Size) rest

theorem resume_of_attemptChar {limits : Limits} {accepts : Char → Bool} {offset : Nat} {c : Char}
    {rest : List Char} {m : Match}
    (found : attemptChar limits accepts ⟨offset, c :: rest⟩ = .ok (some m)) :
    Matches.resume m = some ⟨offset + c.utf8Size, rest⟩ := by
  unfold attemptChar at found
  split at found
  · split at found
    · cases found
    · cases found
      exact Cursor.resume_spelled (List.cons_ne_nil c [])
  · split at found <;> cases found

/-- A search goes on as one that finds the same. -/
theorem Matches.toList_eq_of_find?_eq {program : Program} {limits : Limits} {here there : Cursor}
    (same : program.find? limits here = program.find? limits there) :
    (⟨program, limits, some here⟩ : Matches).toList =
      (⟨program, limits, some there⟩ : Matches).toList := by
  have next_same : (⟨program, limits, some here⟩ : Matches).next? =
      (⟨program, limits, some there⟩ : Matches).next? := by
    unfold next?
    dsimp only
    rw [same]
  cases call : (⟨program, limits, some here⟩ : Matches).next? with
  | none =>
    rw [toList_of_next?_eq_none call, toList_of_next?_eq_none (next_same.symm.trans call)]
  | some found =>
    rw [toList_of_next?_eq_some call, toList_of_next?_eq_some (next_same.symm.trans call)]

theorem Program.ReadsChar.toList_eq {program : Program} {accepts : Char → Bool}
    (reads : program.ReadsChar accepts) (limits : Limits) (offset : Nat) (rest : List Char) :
    (⟨program, limits, some ⟨offset, rest⟩⟩ : Matches).toList =
      charMatches limits accepts offset rest := by
  have find_eq (offset : Nat) (rest : List Char) : program.find? limits ⟨offset, rest⟩ =
      program.leftmost limits offset rest := by
    rw [find?, reads.anywhere]
    rfl
  induction rest generalizing offset with
  | nil =>
    have found := (find_eq offset []).trans (reads.matchAt_eq limits _)
    rw [attemptChar, if_neg (by simp)] at found
    rw [charMatches]
    by_cases none_allowed : limits.steps < 1
    · rw [if_pos none_allowed] at found ⊢
      exact Matches.toList_of_next?_eq_error (Matches.next?_of_error found)
    · rw [if_neg none_allowed] at found ⊢
      exact Matches.toList_of_next?_eq_none (Matches.next?_of_none found)
  | cons c rest ih =>
    have attempt := reads.matchAt_eq limits ⟨offset, c :: rest⟩
    have found := find_eq offset (c :: rest)
    rw [charMatches]
    split <;> rename_i answer <;> rw [answer] at attempt
    · rw [leftmost_cons_of_answer (by rw [attempt]; nofun), attempt] at found
      exact Matches.toList_of_next?_eq_error (Matches.next?_of_error found)
    · rw [leftmost_cons_of_answer (by rw [attempt]; nofun), attempt] at found
      rw [Matches.toList_of_next?_eq_some (Matches.next?_of_match found),
        resume_of_attemptChar answer, ih]
    · rw [leftmost_cons_of_nothing attempt, reads.anywhere, if_neg Bool.false_ne_true,
        ← find_eq] at found
      rw [Matches.toList_eq_of_find?_eq found, ih]

/-! ## Comparing what two tests let be found -/

section

variable {limits : Limits} {accepts accepts' : Char → Bool} {offset : Nat} {c : Char}
  {rest cs : List Char}

theorem charMatches_congr (alike : ∀ c ∈ cs, accepts c = accepts' c) :
    charMatches limits accepts offset cs = charMatches limits accepts' offset cs := by
  induction cs generalizing offset with
  | nil => rfl
  | cons c rest ih =>
    rw [List.forall_mem_cons] at alike
    have here : attemptChar limits accepts ⟨offset, c :: rest⟩ =
        attemptChar limits accepts' ⟨offset, c :: rest⟩ := by
      unfold attemptChar
      rw [List.head?_cons, Option.any_some, Option.any_some, alike.1]
    rw [charMatches, charMatches, here, ih alike.2]

theorem charMatches_of_accepts (enough : 2 ≤ limits.steps) (accepted : accepts c = true) :
    charMatches limits accepts offset (c :: rest) =
      .ok ((⟨offset, c :: rest⟩ : Cursor).spelled [c]) ::
        charMatches limits accepts (offset + c.utf8Size) rest := by
  rw [charMatches, attemptChar, if_pos (by simpa using accepted), if_neg (by omega)]
  rfl

theorem charMatches_of_rejects (enough : 2 ≤ limits.steps) (rejected : accepts c = false) :
    charMatches limits accepts offset (c :: rest) =
      charMatches limits accepts (offset + c.utf8Size) rest := by
  rw [charMatches, attemptChar, if_neg (by simpa using rejected), if_neg (by omega)]

theorem le_of_mem_charMatches (enough : 2 ≤ limits.steps) {m : Match}
    (mem : .ok m ∈ charMatches limits accepts offset cs) : offset ≤ m.whole.start.offset := by
  induction cs generalizing offset with
  | nil =>
    rw [charMatches, if_neg (by omega)] at mem
    cases mem
  | cons c rest ih =>
    cases accepted : accepts c with
    | false =>
      rw [charMatches_of_rejects enough accepted] at mem
      exact Nat.le_of_add_right_le (ih mem)
    | true =>
      rw [charMatches_of_accepts enough accepted, List.mem_cons] at mem
      rcases mem with first | later
      · cases first
        exact Nat.le_refl offset
      · exact Nat.le_of_add_right_le (ih later)

/-- What one test accepts and the other does not, only one of the searches gives. -/
theorem charMatches_ne (enough : 2 ≤ limits.steps) (accepted : accepts c = true)
    (rejected : accepts' c = false) :
    charMatches limits accepts offset (c :: rest) ≠
      charMatches limits accepts' offset (c :: rest) := by
  intro same
  rw [charMatches_of_accepts enough accepted, charMatches_of_rejects enough rejected] at same
  have later : offset + c.utf8Size ≤ offset :=
    le_of_mem_charMatches enough (same ▸ List.mem_cons_self)
  have := c.utf8Size_pos
  omega

/-- Two searches that are given enough steps give the same exactly if their tests agree on every
character of the text. -/
theorem charMatches_eq_iff (enough : 2 ≤ limits.steps) :
    charMatches limits accepts offset cs = charMatches limits accepts' offset cs ↔
      ∀ c ∈ cs, accepts c = accepts' c := by
  refine ⟨fun same => ?_, charMatches_congr⟩
  induction cs generalizing offset with
  | nil => nofun
  | cons c rest ih =>
    rw [List.forall_mem_cons]
    cases accepted : accepts c <;> cases accepted' : accepts' c
    · rw [charMatches_of_rejects enough accepted, charMatches_of_rejects enough accepted'] at same
      exact ⟨rfl, ih same⟩
    · exact absurd same.symm (charMatches_ne enough accepted' accepted)
    · exact absurd same (charMatches_ne enough accepted accepted')
    · rw [charMatches_of_accepts enough accepted, charMatches_of_accepts enough accepted'] at same
      exact ⟨rfl, ih (List.cons.inj same).2⟩

end

/-! ## A character and its class -/

namespace CaseMapping

theorem toNat_lower_of_ascii {c : Char} (ascii : c.toNat < 0x80) :
    (lower c).toNat = if 65 ≤ c.toNat ∧ c.toNat ≤ 90 then c.toNat + 32 else c.toNat := by
  rw [lower, if_pos ascii, Char.toLower]
  split
  · rename_i h
    have h' : 65 ≤ c.toNat ∧ c.toNat ≤ 90 := h
    rw [if_pos h']
    change (c.val + 32).toNat = c.val.toNat + 32
    rw [UInt32.toNat_add]
    exact Nat.mod_eq_of_lt (by have : c.val.toNat < 128 := ascii; simp; omega)
  · rename_i h
    have h' : ¬ (65 ≤ c.toNat ∧ c.toNat ≤ 90) := h
    rw [if_neg h']

theorem toNat_upper_of_ascii {c : Char} (ascii : c.toNat < 0x80) :
    (upper c).toNat = if 97 ≤ c.toNat ∧ c.toNat ≤ 122 then c.toNat - 32 else c.toNat := by
  rw [upper, if_pos ascii, Char.toUpper]
  split
  · rename_i h
    have h' : 97 ≤ c.toNat ∧ c.toNat ≤ 122 := h
    rw [if_pos h']
    change (c.val + (65 - 97)).toNat = c.val.toNat - 32
    rw [UInt32.toNat_add]
    have : c.val.toNat < 128 := ascii
    have : 97 ≤ c.val.toNat := h'.1
    have : (65 - 97 : UInt32).toNat = 4294967264 := rfl
    omega
  · rename_i h
    have h' : ¬ (97 ≤ c.toNat ∧ c.toNat ≤ 122) := h
    rw [if_neg h']

end CaseMapping

theorem sameChar_true_iff {c d : Char} :
    Machine.sameChar true c d = true ↔ lower d = lower c := by
  unfold Machine.sameChar sameLetter
  rw [Bool.true_and, Bool.or_eq_true, beq_iff_eq, beq_iff_eq]
  exact or_iff_right_of_imp (congrArg lower)

namespace CharClass

/-- Within ASCII, the class of a character accepts what the character stands for. -/
theorem accepts_only_of_ascii {c d : Char} (hc : c.toNat < 0x80) (hd : d.toNat < 0x80) :
    (only c).accepts true d = Machine.sameChar true c d := by
  rw [Bool.eq_iff_iff, accepts_only_iff, sameChar_true_iff]
  simp only [← Char.toNat_inj, CaseMapping.toNat_lower_of_ascii hc,
    CaseMapping.toNat_lower_of_ascii hd, CaseMapping.toNat_upper_of_ascii hd]
  split_ifs <;> omega

theorem exists_letter (c : Char) :
    ∃ letter, (⟨.char c, 0⟩ : Pattern).compile true = .ok letter ∧
      letter.ReadsChar (Machine.sameChar true c) :=
  ⟨⟨#[.char c, .accept], 0, 0, true, false⟩, rfl,
    Program.readsChar_of_code rfl rfl fun _ => rfl⟩

theorem exists_class (c : Char) :
    ∃ cls, (⟨.oneOf (only c), 0⟩ : Pattern).compile true = .ok cls ∧
      cls.ReadsChar ((only c).accepts true) :=
  ⟨⟨#[.oneOf (only c), .accept], 0, 0, true, false⟩, rfl,
    Program.readsChar_of_code rfl rfl fun _ => rfl⟩

/-- Ignoring case, a character and the class that lists it give the same matches in a text, whatever
the limits are, exactly if the characters of the text which are the listed one, or have it for one
of their two forms, are those with the same lower-case form as the listed one. -/
theorem findAll_only_eq_iff (c : Char) (text : String) :
    ∃ letter cls, (⟨.char c, 0⟩ : Pattern).compile true = .ok letter ∧
      (⟨.oneOf (only c), 0⟩ : Pattern).compile true = .ok cls ∧
      ((∀ limits, (Matches.ofString cls limits text).toList =
          (Matches.ofString letter limits text).toList) ↔
        ∀ d ∈ text.toList, d = c ∨ lower d = c ∨ upper d = c ↔ lower d = lower c) := by
  obtain ⟨letter, compiled, reads⟩ := exists_letter c
  obtain ⟨cls, compiled', reads'⟩ := exists_class c
  have agree_iff (d : Char) : (only c).accepts true d = Machine.sameChar true c d ↔
      (d = c ∨ lower d = c ∨ upper d = c ↔ lower d = lower c) := by
    rw [Bool.eq_iff_iff, accepts_only_iff, sameChar_true_iff]
  refine ⟨letter, cls, compiled, compiled', ?_⟩
  simp only [← agree_iff]
  constructor
  · intro same
    have found := same {}
    unfold Matches.ofString Cursor.ofString at found
    rw [reads.toList_eq, reads'.toList_eq] at found
    exact (charMatches_eq_iff (by decide)).1 found
  · intro alike limits
    unfold Matches.ofString Cursor.ofString
    rw [reads.toList_eq, reads'.toList_eq, charMatches_congr alike]

/-- The Kelvin sign has the letter k for its lower-case form, so it stands for that letter; its
class does not accept the letter. -/
theorem findAll_only_ne_of_kelvin_sign :
    lower 'k' = lower '\u212a' ∧ (only '\u212a').accepts true 'k' = false ∧
      ∃ letter cls, (⟨.char '\u212a', 0⟩ : Pattern).compile true = .ok letter ∧
        (⟨.oneOf (only '\u212a'), 0⟩ : Pattern).compile true = .ok cls ∧
        (Matches.ofString cls {} "k").toList ≠ (Matches.ofString letter {} "k").toList := by
  obtain ⟨letter, compiled, reads⟩ := exists_letter '\u212a'
  obtain ⟨cls, compiled', reads'⟩ := exists_class '\u212a'
  have same : lower 'k' = lower '\u212a' := by decide +kernel
  have refused : (only '\u212a').accepts true 'k' = false := by decide +kernel
  refine ⟨same, refused, letter, cls, compiled, compiled', ?_⟩
  unfold Matches.ofString Cursor.ofString
  rw [reads.toList_eq, reads'.toList_eq]
  exact (charMatches_ne (by decide) (sameChar_true_iff.2 same) refused).symm

/-- The other way round, the class of a capital accepts a letter that has the capital for its upper
form and no other form: the i without a dot. -/
example : (only 'I').accepts true '\u0131' = true ∧ lower '\u0131' ≠ lower 'I' := by
  constructor <;> decide +kernel

end CharClass

end RegexEngine
