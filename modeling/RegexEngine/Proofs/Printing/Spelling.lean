import RegexEngine.Pattern.Node

/-!
# Writing patterns down

One way to write each tree: punctuation always gets a backslash, classes always stand between
brackets, and every repetition has its bounds between braces.
-/

namespace RegexEngine

/-! ## Leaves -/

/-- Whether a character is ASCII punctuation. -/
def isPunctuation (c : Char) : Bool :=
  decide ('!' ≤ c ∧ c ≤ '/') || decide (':' ≤ c ∧ c ≤ '@') || decide ('[' ≤ c ∧ c ≤ '`') ||
    decide ('{' ≤ c ∧ c ≤ '~')

def spellChar (c : Char) : List Char :=
  if isPunctuation c then ['\\', c] else [c]

def Shorthand.spell (negated : Bool) : Shorthand → List Char
  | digit => ['\\', if negated then 'D' else 'd']
  | word => ['\\', if negated then 'W' else 'w']
  | space => ['\\', if negated then 'S' else 's']

/-- A range, which is written as a character if it holds only that one, or a shorthand. -/
def ClassItem.spell : ClassItem → List Char
  | range lo hi => if lo = hi then spellChar lo else spellChar lo ++ '-' :: spellChar hi
  | shorthand set negated => set.spell negated

def CharClass.spell (cls : CharClass) : List Char :=
  '[' :: ((if cls.negated then ['^'] else []) ++ cls.items.flatMap ClassItem.spell ++ [']'])

def Quantifier.spell (q : Quantifier) : List Char :=
  '{' :: (Nat.toDigits 10 q.min ++ ',' :: ((q.max.elim [] (Nat.toDigits 10)) ++
    '}' :: (if q.greedy then [] else ['?'])))

/-! ## Trees -/

namespace Node

mutual

/-- The text that stands for a tree. -/
def spell : Node → List Char
  | char c => spellChar c
  | any => ['.']
  | oneOf cls => cls.spell
  | sequence parts => spellParts parts
  | choice branches => spellBranches branches
  | repeated body q => spell body ++ q.spell
  | group body => '(' :: '?' :: ':' :: (spell body ++ [')'])
  | capture _ body => '(' :: (spell body ++ [')'])
  | backreference index => '\\' :: Nat.toDigits 10 index
  | atStart => ['^']
  | atEnd => ['$']
  | look positive body => '(' :: '?' :: (if positive then '=' else '!') :: (spell body ++ [')'])

def spellParts : List Node → List Char
  | [] => []
  | part :: parts => spell part ++ spellParts parts

/-- The branches with a bar between each two. -/
def spellBranches : List Node → List Char
  | [] => []
  | [branch] => spell branch
  | branch :: branches => spell branch ++ '|' :: spellBranches branches

end

end Node

/-- The text that stands for a pattern. -/
def Pattern.print (pattern : Pattern) : String := String.ofList pattern.root.spell

end RegexEngine
