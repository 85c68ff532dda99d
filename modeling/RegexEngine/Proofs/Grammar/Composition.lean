import Mathlib
import RegexEngine.Proofs.Grammar.Reading

/-!
# Patterns made of patterns

Two patterns with a bar between them are a pattern, and so is one in parentheses
(`Pattern.parse_compose`). A derivation looks only at the first character of what follows its
phrase, and only whether that is a digit, so that it stays one with more text behind
(`Grammar.Alternation.append`). And it counts groups from any number on: begun at a higher count, it
gives the tree with its groups raised by so much (`Grammar.Alternation.raise`). References are not
raised, as they say which group of the whole pattern they mean.
-/

namespace RegexEngine

namespace Node

/-! ## Trees with other numbers -/

mutual

/-- The tree with the numbers of its capturing groups raised. -/
def raise (k : Nat) : Node → Node
  | sequence parts => sequence (raiseAll k parts)
  | choice branches => choice (raiseAll k branches)
  | repeated body q => repeated (raise k body) q
  | group body => group (raise k body)
  | capture index body => capture (index + k) (raise k body)
  | look positive body => look positive (raise k body)
  | char c => char c
  | any => any
  | oneOf cls => oneOf cls
  | backreference index => backreference index
  | atStart => atStart
  | atEnd => atEnd

def raiseAll (k : Nat) : List Node → List Node
  | [] => []
  | node :: nodes => raise k node :: raiseAll k nodes

end

mutual

@[simp] theorem references_raise (k : Nat) (node : Node) :
    (node.raise k).references = node.references := by
  match node with
  | sequence parts => exact referencesOfAll_raiseAll k parts
  | choice branches => exact referencesOfAll_raiseAll k branches
  | repeated body _ | group body | capture _ body | look _ body => exact references_raise k body
  | char _ | any | oneOf _ | backreference _ | atStart | atEnd => rfl

@[simp] theorem referencesOfAll_raiseAll (k : Nat) (nodes : List Node) :
    referencesOfAll (raiseAll k nodes) = referencesOfAll nodes := by
  match nodes with
  | [] => rfl
  | node :: nodes =>
    rw [raiseAll, referencesOfAll, references_raise k node, referencesOfAll_raiseAll k nodes,
      referencesOfAll]

end

/-- The branches of a choice; anything else is one branch. -/
def branches : Node → List Node
  | choice branches => branches
  | node => [node]

end Node

open Node

namespace Grammar

section

variable {branches : List Node}

theorem raise_ofBranches (k : Nat) (branches : List Node) :
    (ofBranches branches).raise k = ofBranches (raiseAll k branches) := by
  unfold ofBranches
  rcases branches with _ | ⟨branch, _ | _⟩ <;> rfl

theorem references_ofBranches (branches : List Node) :
    (ofBranches branches).references = referencesOfAll branches := by
  unfold ofBranches
  split
  · rw [referencesOfAll, referencesOfAll, List.append_nil]
  · rfl

theorem Alternation.branches_ofBranches {n m : Nat} {s rest : List Char}
    (h : Alternation n s branches m rest) : (ofBranches branches).branches = branches := by
  cases h with
  | last => rfl
  | bar _ others => cases others <;> rfl

end

/-! ## More text behind a phrase -/

section

variable {s mid rest : List Char}

theorem Escaped.append {escape : Escape} (h : Escaped s escape rest) (t : List Char) :
    Escaped (s ++ t) escape (rest ++ t) := by
  cases h with
  | letter meaning => exact .letter meaning
  | hex first second => exact .hex first second
  | backreference digit nonzero => exact .backreference digit nonzero
  | itself other => exact .itself other

theorem Item.append {item : ClassItem} (h : Item s item rest) (t : List Char) :
    Item (s ++ t) item (rest ++ t) := by
  cases h with
  | raw plain => exact .raw plain
  | char escape => exact .char (escape.append t)
  | shorthand escape => exact .shorthand (escape.append t)

theorem Joins.append (h : Joins s) (t : List Char) : Joins (s ++ t) := by
  obtain ⟨c, rest, rfl, inside⟩ := h
  exact ⟨c, rest ++ t, rfl, inside⟩

theorem Member.head?_append {items : List ClassItem} (h : Member s items rest) (t : List Char) :
    (s ++ t).head? = s.head? := by
  cases h with
  | alone one | range one | hyphen one => cases one <;> rfl

theorem Members.ne_nil {others : List ClassItem} (h : Members s others rest) : s ≠ [] := by
  rintro rfl
  cases h with
  | cons _ first => cases first with | alone one | range one | hyphen one => cases one

/-- Says that nothing is left to read, or only a character that waits for the one behind it. -/
def Brink (c : Char) (s : List Char) : Prop := s = [] ∨ s = [c]

/-- More text makes no hyphen join that does not join already, except on the brink. -/
theorem Joins.of_append {t : List Char} (joins : Joins (s ++ t)) (settled : ¬ Brink '-' s) :
    Joins s := by
  obtain ⟨c, further, text, inside⟩ := joins
  rcases s with _ | ⟨d, _ | ⟨e, s⟩⟩
  · exact absurd (.inl rfl) settled
  · cases text
    exact absurd (.inr rfl) settled
  · cases text
    exact ⟨c, s, rfl, inside⟩

/-- Members go as far as a bracket, so a hyphen among them has something behind it already. -/
theorem Members.settled {others : List ClassItem} (h : Members s others rest) :
    ¬ Brink '-' s := by
  rintro (rfl | rfl)
  · exact h.ne_nil rfl
  · cases h with
    | cons _ first others =>
      cases first with
      | alone one => cases one with | raw => exact others.ne_nil rfl
      | range lower | hyphen lower => cases lower

theorem Member.append {items : List ClassItem} (h : Member s items rest)
    (settled : ¬ Brink '-' rest) (t : List Char) : Member (s ++ t) items (rest ++ t) := by
  cases h with
  | alone one apart =>
    exact .alone (one.append t) fun c single joins => apart c single (joins.of_append settled)
  | range lower joins upper ordered =>
    exact .range (lower.append t) (joins.append t) (upper.append t) ordered
  | hyphen lower joins upper => exact .hyphen (lower.append t) (joins.append t) (upper.append t)

theorem Members.append {items : List ClassItem} (h : Members s items rest) (t : List Char) :
    Members (s ++ t) items (rest ++ t) := by
  induction h with
  | close => exact .close
  | cons inside first further ih =>
    exact .cons (first.head?_append t ▸ inside) (first.append further.settled t) ih

theorem Class.append {cls : CharClass} (h : Class s cls rest) (t : List Char) :
    Class (s ++ t) cls (rest ++ t) := by
  cases h with
  | plain unmarked first further =>
    exact .plain (first.head?_append t ▸ unmarked) (first.append further.settled t)
      (further.append t)
  | negated first further => exact .negated (first.append further.settled t) (further.append t)

theorem Rounds.append {min : Nat} {max : Option Nat} (h : Rounds s min max rest) (t : List Char) :
    Rounds (s ++ t) min max (rest ++ t) := by
  cases h with
  | star => exact .star
  | plus => exact .plus
  | question => exact .question
  | exactly bound => simpa using Rounds.exactly bound
  | atLeast bound => simpa using Rounds.atLeast bound
  | between lower upper ordered => simpa using Rounds.between lower upper ordered

theorem Quantified.append {q : Quantifier} (h : Quantified s q rest) (t : List Char) :
    Quantified (s ++ t) q (rest ++ t) := by
  cases h with
  | greedy rounds => exact .greedy (rounds.append t)
  | lazy rounds => exact .lazy (rounds.append t)

/-- Says that a text does not begin with a digit, so that a brace in front of it stays one. -/
def Digitless (t : List Char) : Prop := ∀ d ∈ t.head?, d.isDigit = false

variable {t : List Char}

theorem Literal.append {c : Char} (h : Literal c rest) (digitless : Digitless t) :
    Literal c (rest ++ t) := by
  refine ⟨h.unreserved, ?_⟩
  intro brace d mem
  cases rest with
  | nil => exact digitless d mem
  | cons => exact h.brace brace d mem

end

mutual

theorem Alternation.append {n m : Nat} {branches : List Node} {s rest t : List Char}
    (h : Alternation n s branches m rest) (digitless : Digitless t) :
    Alternation n (s ++ t) branches m (rest ++ t) := by
  match h with
  | .last branch => exact .last (branch.append digitless)
  | .bar branch others => exact .bar (branch.append digitless) (others.append digitless)

theorem Sequence.append {n m : Nat} {parts : List Node} {s rest t : List Char}
    (h : Sequence n s parts m rest) (digitless : Digitless t) :
    Sequence n (s ++ t) parts m (rest ++ t) := by
  match h with
  | .nil => exact .nil
  | .cons first others => exact .cons (first.append digitless) (others.append digitless)

theorem Piece.append {n m : Nat} {part : Node} {s rest t : List Char}
    (h : Piece n s part m rest) (digitless : Digitless t) :
    Piece n (s ++ t) part m (rest ++ t) := by
  match h with
  | .atStart => exact .atStart
  | .atEnd => exact .atEnd
  | .ahead body => exact .ahead (body.append digitless)
  | .notAhead body => exact .notAhead (body.append digitless)
  | .once one => exact .once (one.append digitless)
  | .repeated one quantifier =>
    exact .repeated (one.append digitless) (quantifier.append t)

theorem Atom.append {n m : Nat} {atom : Node} {s rest t : List Char}
    (h : Atom n s atom m rest) (digitless : Digitless t) : Atom n (s ++ t) atom m (rest ++ t) := by
  match h with
  | .any => exact .any
  | .capture body => exact .capture (body.append digitless)
  | .group body => exact .group (body.append digitless)
  | .bracket members => exact .bracket (members.append t)
  | .escape escaped => exact .escape (escaped.append t)
  | .literal plain => exact .literal (plain.append digitless)

end

/-! ## A phrase at a higher count -/

mutual

theorem Alternation.raise {n m : Nat} {branches : List Node} {s rest : List Char}
    (h : Alternation n s branches m rest) (k : Nat) :
    Alternation (n + k) s (raiseAll k branches) (m + k) rest := by
  match h with
  | .last branch => exact .last (branch.raise k)
  | .bar branch others => exact .bar (branch.raise k) (others.raise k)

theorem Sequence.raise {n m : Nat} {parts : List Node} {s rest : List Char}
    (h : Sequence n s parts m rest) (k : Nat) :
    Sequence (n + k) s (raiseAll k parts) (m + k) rest := by
  match h with
  | .nil => exact .nil
  | .cons first others => exact .cons (first.raise k) (others.raise k)

theorem Piece.raise {n m : Nat} {part : Node} {s rest : List Char}
    (h : Piece n s part m rest) (k : Nat) : Piece (n + k) s (part.raise k) (m + k) rest := by
  match h with
  | .atStart => exact .atStart
  | .atEnd => exact .atEnd
  | .ahead body =>
    rw [Node.raise, raise_ofBranches]
    exact .ahead (body.raise k)
  | .notAhead body =>
    rw [Node.raise, raise_ofBranches]
    exact .notAhead (body.raise k)
  | .once one => exact .once (one.raise k)
  | .repeated one quantifier => exact .repeated (one.raise k) quantifier

theorem Atom.raise {n m : Nat} {atom : Node} {s rest : List Char}
    (h : Atom n s atom m rest) (k : Nat) : Atom (n + k) s (atom.raise k) (m + k) rest := by
  match h with
  | .any => exact .any
  | .capture body =>
    rw [Node.raise, raise_ofBranches, Nat.add_right_comm]
    exact .capture (Nat.add_right_comm n 1 k ▸ body.raise k)
  | .group body =>
    rw [Node.raise, raise_ofBranches]
    exact .group (body.raise k)
  | .bracket members => exact .bracket members
  | @Atom.escape _ escape _ _ escaped =>
    have same : (Reader.nodeOfEscape escape).raise k = Reader.nodeOfEscape escape := by
      cases escape <;> rfl
    rw [same]
    exact .escape escaped
  | .literal plain => exact .literal plain

end

/-- What may stand in parentheses. -/
theorem Alternation.closed {n m : Nat} {branches : List Node} {s : List Char}
    (h : Alternation n s branches m []) : Alternation n (s ++ [')']) branches m [')'] :=
  h.append (by simp [Digitless])

/-- The branches of one alternation and those of another one behind a bar. -/
theorem Alternation.joined {n m k : Nat} {branches others : List Node} {s mid rest : List Char}
    (h : Alternation n s branches m ('|' :: mid)) (further : Alternation m mid others k rest) :
    Alternation n s (branches ++ others) k rest := by
  induction branches generalizing n s with
  | nil => cases h
  | cons branch branches ih =>
    cases h with
    | last branch => exact .bar branch further
    | bar branch more => exact .bar branch (ih more)

theorem ofBranches_append {n m k l : Nat} {branches others : List Node}
    {s rest s' rest' : List Char} (h : Alternation n s branches m rest)
    (h' : Alternation k s' others l rest') :
    ofBranches (branches ++ others) = .choice (branches ++ others) := by
  unfold ofBranches
  split
  · rename_i single
    have length := congrArg List.length single
    cases h <;> cases h' <;> simp at length
  · rfl

end Grammar

namespace Pattern

open Grammar

variable {p q : String} {a b : Pattern}

/-- A part that is read from a whole text is a pattern of its own. -/
theorem parse_of_piece {text : String} {part : Node} {groups : Nat}
    (one : Piece 0 text.toList part groups []) (few : groups ≤ maxGroups)
    (known : ∀ i ∈ part.references, i ≤ groups) :
    Pattern.parse text = .ok ⟨.sequence [part], groups⟩ := by
  refine parse_eq_ok_iff_derives.2 ⟨⟨_, rfl, .last (.cons one .nil)⟩, few, ?_⟩
  simpa [Node.references, Node.referencesOfAll] using known

/-- The branches of the second pattern follow those of the first, with its groups numbered on. -/
theorem parse_bar (hp : Pattern.parse p = .ok a) (hq : Pattern.parse q = .ok b)
    (few : a.groups + b.groups ≤ maxGroups) :
    Pattern.parse (p ++ "|" ++ q) =
      .ok ⟨.choice (a.root.branches ++ (b.root.raise a.groups).branches), a.groups + b.groups⟩ := by
  obtain ⟨⟨branches, root, first⟩, -, known⟩ := parse_eq_ok_iff_derives.1 hp
  obtain ⟨⟨others, root', second⟩, -, known'⟩ := parse_eq_ok_iff_derives.1 hq
  have text : (p ++ "|" ++ q).toList = p.toList ++ '|' :: q.toList := by simp
  have longer : Alternation 0 (p.toList ++ '|' :: q.toList) branches a.groups ('|' :: q.toList) :=
    first.append (by simp [Digitless])
  have raised := second.raise a.groups
  rw [Nat.zero_add, Nat.add_comm] at raised
  have named : (choice (branches ++ raiseAll a.groups others)).references =
      a.root.references ++ b.root.references := by
    rw [root, root', references_ofBranches, references_ofBranches, Node.references,
      ← referencesOfAll_raiseAll a.groups others]
    simp only [referencesOfAll_eq_flatMap, List.flatMap_append]
  rw [root, root', raise_ofBranches, first.branches_ofBranches, raised.branches_ofBranches,
    parse_eq_ok_iff_derives]
  refine ⟨⟨_, (ofBranches_append longer raised).symm, text ▸ longer.joined raised⟩, few, ?_⟩
  intro i mem
  rcases List.mem_append.1 (named ▸ mem) with mem | mem
  · exact Nat.le_add_right_of_le (known i mem)
  · exact Nat.le_add_left_of_le (known' i mem)

theorem parse_group (hp : Pattern.parse p = .ok a) :
    Pattern.parse ("(?:" ++ p ++ ")") = .ok ⟨.sequence [.group a.root], a.groups⟩ := by
  obtain ⟨⟨branches, root, body⟩, few, known⟩ := parse_eq_ok_iff_derives.1 hp
  have text : ("(?:" ++ p ++ ")").toList = '(' :: '?' :: ':' :: (p.toList ++ [')']) := by simp
  exact parse_of_piece (text ▸ root ▸ .once (.group body.closed)) few known

theorem parse_ahead (hp : Pattern.parse p = .ok a) :
    Pattern.parse ("(?=" ++ p ++ ")") = .ok ⟨.sequence [.look true a.root], a.groups⟩ := by
  obtain ⟨⟨branches, root, body⟩, few, known⟩ := parse_eq_ok_iff_derives.1 hp
  have text : ("(?=" ++ p ++ ")").toList = '(' :: '?' :: '=' :: (p.toList ++ [')']) := by simp
  exact parse_of_piece (text ▸ root ▸ .ahead body.closed) few known

theorem parse_notAhead (hp : Pattern.parse p = .ok a) :
    Pattern.parse ("(?!" ++ p ++ ")") = .ok ⟨.sequence [.look false a.root], a.groups⟩ := by
  obtain ⟨⟨branches, root, body⟩, few, known⟩ := parse_eq_ok_iff_derives.1 hp
  have text : ("(?!" ++ p ++ ")").toList = '(' :: '?' :: '!' :: (p.toList ++ [')']) := by simp
  exact parse_of_piece (text ▸ root ▸ .notAhead body.closed) few known

theorem parse_capture (hp : Pattern.parse p = .ok a) (few : a.groups + 1 ≤ maxGroups) :
    Pattern.parse ("(" ++ p ++ ")") =
      .ok ⟨.sequence [.capture 1 (a.root.raise 1)], a.groups + 1⟩ := by
  obtain ⟨⟨branches, root, body⟩, -, known⟩ := parse_eq_ok_iff_derives.1 hp
  have text : ("(" ++ p ++ ")").toList = '(' :: (p.toList ++ [')']) := by simp
  refine parse_of_piece (text ▸ ?_) few ?_
  · rw [root, raise_ofBranches]
    exact .once (.capture (body.raise 1).closed)
  · intro i mem
    rw [Node.references, references_raise] at mem
    exact Nat.le_add_right_of_le (known i mem)

/-- Patterns make patterns. Two with a bar between them stand for the choice of all their branches,
if they do not open too many groups together; a pattern in parentheses stands for the group or the
test that the parentheses say. Each part keeps its tree, except that groups are numbered on from
those that have opened before; references are never renumbered. -/
theorem parse_compose (hp : Pattern.parse p = .ok a) (hq : Pattern.parse q = .ok b) :
    (a.groups + b.groups ≤ maxGroups → Pattern.parse (p ++ "|" ++ q) =
      .ok ⟨.choice (a.root.branches ++ (b.root.raise a.groups).branches), a.groups + b.groups⟩) ∧
    Pattern.parse ("(?:" ++ p ++ ")") = .ok ⟨.sequence [.group a.root], a.groups⟩ ∧
    Pattern.parse ("(?=" ++ p ++ ")") = .ok ⟨.sequence [.look true a.root], a.groups⟩ ∧
    Pattern.parse ("(?!" ++ p ++ ")") = .ok ⟨.sequence [.look false a.root], a.groups⟩ ∧
    (a.groups ≤ 8 → Pattern.parse ("(" ++ p ++ ")") =
      .ok ⟨.sequence [.capture 1 (a.root.raise 1)], a.groups + 1⟩) :=
  ⟨parse_bar hp hq, parse_group hp, parse_ahead hp, parse_notAhead hp,
    fun few => parse_capture hp (Nat.succ_le_succ few)⟩

/-- The first pattern ends with a brace, which a digit behind it would turn into a quantifier; in
the second one a reference that meant its own group comes to mean the group of the first. -/
theorem parse_compose_of_brace :
    ∃ a b, Pattern.parse "(x)|\x7b" = .ok a ∧ Pattern.parse "\\1(y)(?=z)" = .ok b ∧
      a.groups + b.groups ≤ maxGroups ∧ a.groups ≤ 8 ∧
      Pattern.parse ("(x)|\x7b" ++ "|" ++ "\\1(y)(?=z)") = .ok ⟨.choice [
        .sequence [.capture 1 (.sequence [.char 'x'])], .sequence [.char '{'],
        .sequence [.backreference 1, .capture 2 (.sequence [.char 'y']),
          .look true (.sequence [.char 'z'])]], 2⟩ ∧
      Pattern.parse ("(?!" ++ "(x)|\x7b" ++ ")") = .ok ⟨.sequence [.look false a.root], 1⟩ ∧
      Pattern.parse ("(" ++ "(x)|\x7b" ++ ")") = .ok ⟨.sequence [.capture 1 (.choice [
        .sequence [.capture 2 (.sequence [.char 'x'])], .sequence [.char '{']])], 2⟩ := by
  have hp : Pattern.parse "(x)|\x7b" = .ok ⟨.choice [.sequence [.capture 1 (.sequence [.char 'x'])],
      .sequence [.char '{']], 1⟩ := by cbv
  have hq : Pattern.parse "\\1(y)(?=z)" = .ok ⟨.sequence [.backreference 1,
      .capture 1 (.sequence [.char 'y']), .look true (.sequence [.char 'z'])], 1⟩ := by cbv
  obtain ⟨bar, -, -, notAhead, capture⟩ := parse_compose hp hq
  exact ⟨_, _, hp, hq, by decide, by decide, bar (by decide), notAhead, capture (by decide)⟩

end Pattern

end RegexEngine
