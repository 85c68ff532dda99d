import RegexEngine.Pattern.Reader
import RegexEngine.Proofs.Patterns.Groups

/-!
# The grammar of patterns

    alternation  =  sequence ('|' sequence)*
    sequence     =  piece*
    piece        =  '^' | '$' | '(?=' alternation ')' | '(?!' alternation ')' | atom quantifier?
    atom         =  '.' | '(' alternation ')' | '(?:' alternation ')'
                 |  '[' class | '\' escape | literal

Each judgement relates the text before a phrase, what the phrase stands for and the text behind it,
so that a rule can look at what follows. Phrases with groups in them are numbered: the judgement
also says how many capturing groups have opened before the phrase and by its end. Nothing here says
how a text is read; that `Pattern.parse` reads just these patterns is shown elsewhere.
-/

namespace RegexEngine.Grammar

/-! ## Escapes and literals -/

/-- The letters that have a meaning behind a backslash. -/
def letters : List (Char × Escape) :=
  [('d', .shorthand .digit false), ('D', .shorthand .digit true),
    ('w', .shorthand .word false), ('W', .shorthand .word true),
    ('s', .shorthand .space false), ('S', .shorthand .space true),
    ('n', .char '\n'), ('r', .char '\r'), ('t', .char '\t'),
    ('f', .char '\x0c'), ('v', .char '\x0b')]

/-- What may follow a backslash: a letter with a meaning, `x` and two hexadecimal digits, a digit
that names a group, or any character that is no ASCII letter or digit. -/
inductive Escaped : List Char → Escape → List Char → Prop where
  | letter {c : Char} {escape : Escape} {rest : List Char}
    (meaning : (c, escape) ∈ letters) : Escaped (c :: rest) escape rest
  | hex {c d : Char} {high low : Nat} {rest : List Char}
    (first : Escape.hexValue? c = some high) (second : Escape.hexValue? d = some low) :
    Escaped ('x' :: c :: d :: rest) (.char (Char.ofNat (16 * high + low))) rest
  | backreference {c : Char} {rest : List Char} (digit : c.isDigit = true) (nonzero : c ≠ '0') :
    Escaped (c :: rest) (.backreference (c.toNat - '0'.toNat)) rest
  | itself {c : Char} {rest : List Char} (other : c.isAlphanum = false) :
    Escaped (c :: rest) (.char c) rest

/-- The characters that never stand for themselves outside classes. -/
def reserved : List Char := ['(', ')', '[', '\\', '.', '^', '$', '|', '*', '+', '?']

/-- Says that a character stands for itself where `rest` follows it. A brace does not where a digit
follows. -/
structure Literal (c : Char) (rest : List Char) : Prop where
  unreserved : c ∉ reserved
  brace : c = '{' → ∀ d ∈ rest.head?, d.isDigit = false

/-! ## Classes -/

/-- A raw character or an escape that names no group. -/
inductive Item : List Char → ClassItem → List Char → Prop where
  | raw {c : Char} {rest : List Char} (plain : c ≠ '\\') : Item (c :: rest) (.single c) rest
  | char {c : Char} {s rest : List Char} (escape : Escaped s (.char c) rest) :
    Item ('\\' :: s) (.single c) rest
  | shorthand {set : Shorthand} {negated : Bool} {s rest : List Char}
    (escape : Escaped s (.shorthand set negated) rest) :
    Item ('\\' :: s) (.shorthand set negated) rest

/-- Says that a hyphen stands here which neither a `]` nor the end follows. -/
def Joins (s : List Char) : Prop := ∃ c rest, s = '-' :: c :: rest ∧ c ≠ ']'

/-- A single character joined to a second one is a range; joined to a shorthand it stands for
itself, and so does the hyphen. -/
inductive Member : List Char → List ClassItem → List Char → Prop where
  | alone {item : ClassItem} {s rest : List Char} (one : Item s item rest)
    (apart : ∀ c, item = .single c → ¬ Joins rest) : Member s [item] rest
  | range {lo hi : Char} {s mid rest : List Char} (lower : Item s (.single lo) ('-' :: mid))
    (joins : Joins ('-' :: mid)) (upper : Item mid (.single hi) rest) (ordered : lo ≤ hi) :
    Member s [.range lo hi] rest
  | hyphen {lo : Char} {set : Shorthand} {negated : Bool} {s mid rest : List Char}
    (lower : Item s (.single lo) ('-' :: mid)) (joins : Joins ('-' :: mid))
    (upper : Item mid (.shorthand set negated) rest) :
    Member s [.single lo, .single '-', .shorthand set negated] rest

/-- The members behind the first one, which alone may begin with a raw `]`. -/
inductive Members : List Char → List ClassItem → List Char → Prop where
  | close {rest : List Char} : Members (']' :: rest) [] rest
  | cons {items others : List ClassItem} {s mid rest : List Char} (inside : ']' ∉ s.head?)
    (first : Member s items mid) (further : Members mid others rest) :
    Members s (items ++ others) rest

/-- What follows the bracket that opens a class. A `^` right behind it is always the mark of
negation. -/
inductive Class : List Char → CharClass → List Char → Prop where
  | plain {items others : List ClassItem} {s mid rest : List Char} (unmarked : '^' ∉ s.head?)
    (first : Member s items mid) (further : Members mid others rest) :
    Class s ⟨items ++ others, false⟩ rest
  | negated {items others : List ClassItem} {s mid rest : List Char}
    (first : Member s items mid) (further : Members mid others rest) :
    Class ('^' :: s) ⟨items ++ others, true⟩ rest

/-! ## Quantifiers -/

/-- Says that these digits are a bound that may stand between braces. -/
structure Bound (digits : List Char) : Prop where
  nonempty : digits ≠ []
  digit : ∀ c ∈ digits, c.isDigit = true
  small : Quantifier.valueOf digits ≤ Quantifier.maxBound

/-- The least and the largest number of rounds. -/
inductive Rounds : List Char → Nat → Option Nat → List Char → Prop where
  | star {rest : List Char} : Rounds ('*' :: rest) 0 none rest
  | plus {rest : List Char} : Rounds ('+' :: rest) 1 none rest
  | question {rest : List Char} : Rounds ('?' :: rest) 0 (some 1) rest
  | exactly {ds rest : List Char} (min : Bound ds) :
    Rounds ('{' :: (ds ++ '}' :: rest)) (Quantifier.valueOf ds) (some (Quantifier.valueOf ds)) rest
  | atLeast {ds rest : List Char} (min : Bound ds) :
    Rounds ('{' :: (ds ++ ',' :: '}' :: rest)) (Quantifier.valueOf ds) none rest
  | between {ds es rest : List Char} (min : Bound ds) (max : Bound es)
    (ordered : Quantifier.valueOf ds ≤ Quantifier.valueOf es) :
    Rounds ('{' :: (ds ++ ',' :: (es ++ '}' :: rest))) (Quantifier.valueOf ds)
      (some (Quantifier.valueOf es)) rest

/-- A question mark behind the number of rounds asks for few of them. -/
inductive Quantified : List Char → Quantifier → List Char → Prop where
  | greedy {min : Nat} {max : Option Nat} {s rest : List Char} (rounds : Rounds s min max rest) :
    Quantified s ⟨min, max, true⟩ rest
  | lazy {min : Nat} {max : Option Nat} {s rest : List Char}
    (rounds : Rounds s min max ('?' :: rest)) : Quantified s ⟨min, max, false⟩ rest

/-! ## Patterns -/

/-- What an alternation stands for: a single branch needs no choice. -/
def ofBranches : List Node → Node
  | [branch] => branch
  | branches => .choice branches

mutual

/-- The branches of an alternation. -/
inductive Alternation : Nat → List Char → List Node → Nat → List Char → Prop where
  | last {n m : Nat} {parts : List Node} {s rest : List Char}
    (branch : Sequence n s parts m rest) : Alternation n s [.sequence parts] m rest
  | bar {n m k : Nat} {parts branches : List Node} {s mid rest : List Char}
    (branch : Sequence n s parts m ('|' :: mid)) (others : Alternation m mid branches k rest) :
    Alternation n s (.sequence parts :: branches) k rest

/-- The parts of a branch. -/
inductive Sequence : Nat → List Char → List Node → Nat → List Char → Prop where
  | nil {n : Nat} {s : List Char} : Sequence n s [] n s
  | cons {n m k : Nat} {part : Node} {parts : List Node} {s mid rest : List Char}
    (first : Piece n s part m mid) (others : Sequence m mid parts k rest) :
    Sequence n s (part :: parts) k rest

/-- A test of a position, which is never repeated, or an atom, which may be. -/
inductive Piece : Nat → List Char → Node → Nat → List Char → Prop where
  | atStart {n : Nat} {rest : List Char} : Piece n ('^' :: rest) .atStart n rest
  | atEnd {n : Nat} {rest : List Char} : Piece n ('$' :: rest) .atEnd n rest
  | ahead {n m : Nat} {branches : List Node} {s rest : List Char}
    (body : Alternation n s branches m (')' :: rest)) :
    Piece n ('(' :: '?' :: '=' :: s) (.look true (ofBranches branches)) m rest
  | notAhead {n m : Nat} {branches : List Node} {s rest : List Char}
    (body : Alternation n s branches m (')' :: rest)) :
    Piece n ('(' :: '?' :: '!' :: s) (.look false (ofBranches branches)) m rest
  | once {n m : Nat} {atom : Node} {s rest : List Char} (one : Atom n s atom m rest) :
    Piece n s atom m rest
  | repeated {n m : Nat} {atom : Node} {q : Quantifier} {s mid rest : List Char}
    (one : Atom n s atom m mid) (quantifier : Quantified mid q rest) :
    Piece n s (.repeated atom q) m rest

inductive Atom : Nat → List Char → Node → Nat → List Char → Prop where
  | any {n : Nat} {rest : List Char} : Atom n ('.' :: rest) .any n rest
  | capture {n m : Nat} {branches : List Node} {s rest : List Char}
    (body : Alternation (n + 1) s branches m (')' :: rest)) :
    Atom n ('(' :: s) (.capture (n + 1) (ofBranches branches)) m rest
  | group {n m : Nat} {branches : List Node} {s rest : List Char}
    (body : Alternation n s branches m (')' :: rest)) :
    Atom n ('(' :: '?' :: ':' :: s) (.group (ofBranches branches)) m rest
  | bracket {n : Nat} {cls : CharClass} {s rest : List Char} (members : Class s cls rest) :
    Atom n ('[' :: s) (.oneOf cls) n rest
  | escape {n : Nat} {escape : Escape} {s rest : List Char} (escaped : Escaped s escape rest) :
    Atom n ('\\' :: s) (Reader.nodeOfEscape escape) n rest
  | literal {n : Nat} {c : Char} {rest : List Char} (plain : Literal c rest) :
    Atom n (c :: rest) (.char c) n rest

end

/-- Says that a whole text is a pattern: it is an alternation that opens no more capturing groups
than there may be and refers to none that it does not open. -/
structure Derives (text : List Char) (pattern : Pattern) : Prop where
  alternation : ∃ branches, pattern.root = ofBranches branches ∧
    Alternation 0 text branches pattern.groups []
  few : pattern.groups ≤ maxGroups
  known : ∀ i ∈ pattern.root.references, i ≤ pattern.groups

end RegexEngine.Grammar
