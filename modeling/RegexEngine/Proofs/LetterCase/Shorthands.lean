import RegexEngine.Proofs.Grammar.Composition
import RegexEngine.Proofs.LetterCase.Singletons

/-!
# Negated shorthands in brackets

Outside brackets, a negated shorthand is a class that is negated as a whole; in brackets, it is an
item that is negated within its class. A class goes by the case forms of a character before it is
negated itself and after its items are, so the two differ on a character if the shorthand holds one
of its forms and not the character. Just three characters are so (`CaseMapping.borrowed`), and only
`\w` holds a form of theirs. Hence the two escapes find the same in a text unless case is ignored,
the shorthand is `\w` and one of the three stands in the text (`Regex.findAll_negated_eq_iff`).
-/

namespace RegexEngine

open CaseMapping (lower upper)

/-! ## Characters that borrow a form from ASCII -/

namespace CaseMapping

/-- The characters outside ASCII with a form inside it: the i without a dot, the long s and the
Kelvin sign. -/
def borrowed : List Char := ['\u0131', '\u017f', '\u212a']

theorem Run.exists_of_find? {runs : List Run} {k n : Nat} (h : Run.find? runs k = some n) :
    ∃ run ∈ runs, run.first ≤ k ∧ k ≤ run.last ∧ n = run.image + (k - run.first) := by
  induction runs with
  | nil => cases h
  | cons run runs ih =>
    unfold Run.find? at h
    by_cases low : k ≤ run.last
    · rw [if_pos low] at h
      unfold Run.imageOf? at h
      split at h
      · rename_i inside
        cases h
        exact ⟨run, List.mem_cons_self, inside.1, inside.2.1, rfl⟩
      · cases h
    · rw [if_neg low] at h
      obtain ⟨other, mem, within⟩ := ih h
      exact ⟨other, List.mem_cons_of_mem run mem, within⟩

/-- Says that only a borrowed character, in a run of its own, is carried into ASCII. -/
def Run.Borrows (run : Run) : Prop :=
  run.image < 0x80 → run.last ≤ run.first ∧ run.first ∈ borrowed.map Char.toNat

instance (run : Run) : Decidable run.Borrows :=
  inferInstanceAs (Decidable (_ → _))

theorem borrows_of_mem : ∀ run ∈ lowerRuns ++ upperRuns, run.Borrows := by decide +kernel

theorem mem_borrowed_of_image {run : Run} {c : Char} (mem : run ∈ lowerRuns ++ upperRuns)
    (first : run.first ≤ c.toNat) (last : c.toNat ≤ run.last) (ascii : run.image < 0x80) :
    c ∈ borrowed := by
  obtain ⟨single, listed⟩ := borrows_of_mem run mem ascii
  have same : run.first = c.toNat := by omega
  obtain ⟨d, mem, eq⟩ := List.mem_map.1 (same ▸ listed)
  exact Char.toNat_inj.1 eq ▸ mem

end CaseMapping

/-! ## What a shorthand holds -/

namespace Shorthand

variable {set : Shorthand} {c : Char}

/-- Shorthands speak of ASCII alone. -/
theorem toNat_lt_of_contains (h : set.contains c = true) : c.toNat < 0x80 := by
  cases set with
  | digit => exact Nat.lt_of_le_of_lt (Char.isDigit_iff_toNat.1 h).2 (by decide)
  | word =>
    simp only [contains, Char.isAlphanum, Char.isAlpha, Char.isUpper, Char.isLower, Char.isDigit,
      ge_iff_le, UInt32.le_iff_toNat_le, Bool.or_eq_true, Bool.and_eq_true,
      decide_eq_true_eq, beq_iff_eq] at h
    rcases h with ((h | h) | h) | rfl
    · exact Nat.lt_of_le_of_lt h.2 (by decide)
    · exact Nat.lt_of_le_of_lt h.2 (by decide)
    · exact Nat.lt_of_le_of_lt h.2 (by decide)
    · decide
  | space =>
    simp only [contains, Bool.or_eq_true, beq_iff_eq] at h
    rcases h with ((((rfl | rfl) | rfl) | rfl) | rfl) | rfl <;> decide

theorem contains_of_wide (wide : 0x80 ≤ c.toNat) : set.contains c = false := by
  by_contra h
  exact Nat.not_lt_of_le wide (toNat_lt_of_contains (eq_true_of_ne_false h))

theorem contains_ofNat_of_wide {n : Nat} (wide : 0x80 ≤ n) :
    set.contains (Char.ofNat n) = false := by
  by_cases valid : n.isValidChar
  · apply contains_of_wide
    rwa [Char.toNat_ofNat, if_pos valid]
  · have zero : Char.ofNat n = '\x00' :=
      Char.toNat_inj.1 (by rw [Char.toNat_ofNat, if_neg valid]; rfl)
    rw [zero]
    cases set <;> rfl

/-- The form of a character outside ASCII that borrows none from it. -/
theorem contains_mapped {runs : List CaseMapping.Run}
    (known : runs ⊆ CaseMapping.lowerRuns ++ CaseMapping.upperRuns) (wide : 0x80 ≤ c.toNat)
    (plain : c ∉ CaseMapping.borrowed) : set.contains (CaseMapping.mapped runs c) = false := by
  unfold CaseMapping.mapped
  split
  · rename_i n found
    obtain ⟨run, mem, first, last, rfl⟩ := CaseMapping.Run.exists_of_find? found
    apply contains_ofNat_of_wide
    by_contra ascii
    exact plain (CaseMapping.mem_borrowed_of_image (known mem) first last (by omega))
  · exact contains_of_wide wide

theorem contains_forms_of_ascii (ascii : c.toNat < 0x80) :
    set.contains (lower c) = set.contains c ∧ set.contains (upper c) = set.contains c := by
  have each : ∀ n < 0x80, set.contains (lower (Char.ofNat n)) = set.contains (Char.ofNat n) ∧
      set.contains (upper (Char.ofNat n)) = set.contains (Char.ofNat n) := by
    cases set <;> decide +kernel
  simpa only [Char.ofNat_toNat] using each c.toNat ascii

/-- A shorthand that holds a character holds its forms, and holds no form of any other character,
borrowed forms excepted. -/
theorem contains_forms (plain : set = .word → c ∉ CaseMapping.borrowed) :
    set.contains (lower c) = set.contains c ∧ set.contains (upper c) = set.contains c := by
  by_cases ascii : c.toNat < 0x80
  · exact contains_forms_of_ascii ascii
  · have wide : 0x80 ≤ c.toNat := Nat.le_of_not_lt ascii
    by_cases mem : c ∈ CaseMapping.borrowed
    · cases set with
      | word => exact absurd mem (plain rfl)
      | digit | space =>
        simp only [CaseMapping.borrowed, List.mem_cons, List.not_mem_nil, or_false] at mem
        rcases mem with rfl | rfl | rfl <;> decide +kernel
    · rw [lower, if_neg ascii, upper, if_neg ascii, contains_of_wide wide]
      exact ⟨contains_mapped (List.subset_append_left _ _) wide mem,
        contains_mapped (List.subset_append_right _ _) wide mem⟩

theorem contains_of_borrowed (mem : c ∈ CaseMapping.borrowed) :
    word.contains c = false ∧ (word.contains (lower c) || word.contains (upper c)) = true := by
  simp only [CaseMapping.borrowed, List.mem_cons, List.not_mem_nil, or_false] at mem
  rcases mem with rfl | rfl | rfl <;> decide +kernel

/-! ## The two classes -/

/-- What a negated shorthand stands for outside brackets: a class that is negated as a whole. -/
def outside (set : Shorthand) : CharClass := ⟨[.shorthand set false], true⟩

/-- What a negated shorthand stands for in brackets: a class with a negated item. -/
def inside (set : Shorthand) : CharClass := ⟨[.shorthand set true], false⟩

theorem accepts_outside (ignoreCase : Bool) :
    set.outside.accepts ignoreCase c = !(set.contains c ||
      (ignoreCase && (set.contains (lower c) || set.contains (upper c)))) := by
  simp [CharClass.accepts, CharClass.covers, CharClass.lists, outside, ClassItem.contains]

theorem accepts_inside (ignoreCase : Bool) :
    set.inside.accepts ignoreCase c = (!set.contains c ||
      (ignoreCase && (!set.contains (lower c) || !set.contains (upper c)))) := by
  simp [CharClass.accepts, CharClass.covers, CharClass.lists, inside, ClassItem.contains]

/-- Both classes accept the same characters, the borrowed ones excepted where case is ignored. -/
theorem accepts_outside_eq_inside_iff {ignoreCase : Bool} :
    set.outside.accepts ignoreCase c = set.inside.accepts ignoreCase c ↔
      (set = .word → ignoreCase = true → c ∉ CaseMapping.borrowed) := by
  rw [accepts_outside, accepts_inside]
  cases ignoreCase with
  | false => simp
  | true =>
    by_cases plain : set = .word → c ∉ CaseMapping.borrowed
    · obtain ⟨lower_eq, upper_eq⟩ := contains_forms plain
      rw [lower_eq, upper_eq]
      simpa using plain
    · rw [Classical.not_imp, not_not] at plain
      obtain ⟨rfl, mem⟩ := plain
      obtain ⟨none_itself, some_form⟩ := contains_of_borrowed mem
      rw [none_itself, some_form]
      simpa using mem

end Shorthand

/-! ## The two escapes -/

namespace Shorthand

/-- The letter that stands for everything a shorthand does not hold. -/
def negatedLetter : Shorthand → Char
  | digit => 'D'
  | word => 'W'
  | space => 'S'

def negatedEscape (set : Shorthand) : String := String.ofList ['\\', set.negatedLetter]

def bracketedEscape (set : Shorthand) : String :=
  String.ofList ['[', '\\', set.negatedLetter, ']']

theorem escaped_negatedLetter (set : Shorthand) (rest : List Char) :
    Grammar.Escaped (set.negatedLetter :: rest) (.shorthand set true) rest :=
  .letter (by cases set <;> decide)

theorem parse_negatedEscape (set : Shorthand) :
    Pattern.parse set.negatedEscape = .ok ⟨.sequence [.oneOf set.outside], 0⟩ := by
  refine Pattern.parse_of_piece ?_ (Nat.zero_le _) nofun
  rw [negatedEscape, String.toList_ofList]
  exact .once (.escape (set.escaped_negatedLetter []))

theorem parse_bracketedEscape (set : Shorthand) :
    Pattern.parse set.bracketedEscape = .ok ⟨.sequence [.oneOf set.inside], 0⟩ := by
  have item : Grammar.Item ['\\', set.negatedLetter, ']'] (.shorthand set true) [']'] :=
    .shorthand (set.escaped_negatedLetter _)
  have members : Grammar.Class ['\\', set.negatedLetter, ']'] set.inside [] :=
    .plain (by simp) (.alone item nofun) .close
  refine Pattern.parse_of_piece ?_ (Nat.zero_le _) nofun
  rw [bracketedEscape, String.toList_ofList]
  exact .once (.bracket members)

end Shorthand

namespace Regex

/-- A class alone is compiled to a program that reads one character that the class accepts. -/
theorem exists_compile_class {source : String} {cls : CharClass}
    (parsed : Pattern.parse source = .ok ⟨.sequence [.oneOf cls], 0⟩) (ignoreCase : Bool) :
    ∃ program : Program, program.ReadsChar (cls.accepts ignoreCase) ∧
      ∀ limits, compile source ⟨ignoreCase, limits⟩ =
        .ok ⟨source, program, ⟨ignoreCase, limits⟩⟩ := by
  refine ⟨⟨#[.oneOf cls, .accept], 0, 0, ignoreCase, false⟩, ?_, ?_⟩
  · exact Program.readsChar_of_code rfl rfl fun _ => rfl
  · intro limits
    rw [compile, parsed]
    rfl

theorem findAll_eq_charMatches {source text : String} {program : Program} {accepts : Char → Bool}
    (reads : program.ReadsChar accepts) (ignoreCase : Bool) (limits : Limits) :
    findAll ⟨source, program, ⟨ignoreCase, limits⟩⟩ text =
      charMatches limits accepts 0 text.toList :=
  reads.toList_eq limits 0 text.toList

/-- A negated shorthand, alone and in brackets, gives the same matches in a text, whatever the
limits are, unless case is ignored, the shorthand is the one for words and a character of the text
borrows a form from ASCII; and with the same exception the brackets accept just what the shorthand
that is not negated does not. -/
theorem findAll_negated_eq_iff (set : Shorthand) (ignoreCase : Bool) (text : String) :
    ∃ bare bracketed : Limits → Regex,
      (∀ limits, compile set.negatedEscape ⟨ignoreCase, limits⟩ = .ok (bare limits)) ∧
      (∀ limits, compile set.bracketedEscape ⟨ignoreCase, limits⟩ = .ok (bracketed limits)) ∧
      ((∀ limits, (bare limits).findAll text = (bracketed limits).findAll text) ↔
        (set = .word → ignoreCase = true → ∀ c ∈ text.toList, c ∉ CaseMapping.borrowed)) ∧
      ∀ c, set.inside.accepts ignoreCase c =
          !(⟨[.shorthand set false], false⟩ : CharClass).accepts ignoreCase c ↔
        (set = .word → ignoreCase = true → c ∉ CaseMapping.borrowed) := by
  obtain ⟨bare, reads, compiled⟩ := exists_compile_class set.parse_negatedEscape ignoreCase
  obtain ⟨bracketed, reads', compiled'⟩ := exists_compile_class set.parse_bracketedEscape ignoreCase
  refine ⟨_, _, compiled, compiled', ?_, ?_⟩
  · simp only [findAll_eq_charMatches reads, findAll_eq_charMatches reads']
    constructor
    · intro same word ignored c mem
      have alike := (charMatches_eq_iff (by decide)).1 (same {}) c mem
      exact Shorthand.accepts_outside_eq_inside_iff.1 alike word ignored
    · intro plain limits
      apply charMatches_congr
      intro c mem
      exact Shorthand.accepts_outside_eq_inside_iff.2 fun word ignored => plain word ignored c mem
  · intro c
    have negated : (!(⟨[.shorthand set false], false⟩ : CharClass).accepts ignoreCase c) =
        set.outside.accepts ignoreCase c := by
      simp [CharClass.accepts, CharClass.covers, CharClass.lists, Shorthand.outside]
    rw [negated, eq_comm]
    exact Shorthand.accepts_outside_eq_inside_iff

/-- The Kelvin sign has a lower-case form that belongs to words, so the escape alone does not accept
it; in brackets, the escape does. -/
theorem findAll_negated_ne_of_kelvin_sign :
    ∃ bare bracketed, compile "\\W" ⟨true, {}⟩ = .ok bare ∧
      compile "[\\W]" ⟨true, {}⟩ = .ok bracketed ∧ bare.findAll "\u212a" = [] ∧
      (bracketed.findAll "\u212a").length = 1 ∧
      Shorthand.word.inside.accepts true '\u212a' = true ∧
      (⟨[.shorthand .word false], false⟩ : CharClass).accepts true '\u212a' = true := by
  obtain ⟨bare, reads, compiled⟩ := exists_compile_class Shorthand.word.parse_negatedEscape true
  obtain ⟨bracketed, reads', compiled'⟩ :=
    exists_compile_class Shorthand.word.parse_bracketedEscape true
  refine ⟨_, _, compiled {}, compiled' {}, ?_, ?_, by decide +kernel, by decide +kernel⟩
  · rw [findAll_eq_charMatches reads]
    decide +kernel
  · rw [findAll_eq_charMatches reads']
    decide +kernel

end Regex

end RegexEngine
