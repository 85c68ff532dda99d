import RegexEngine.Proofs.Grammar.Normality
import RegexEngine.Proofs.Printing.Spelling

/-!
# Reading back what is written down

The text that a normal tree is written as derives just that tree (`Pattern.derives_print`), so
reading undoes writing. What a phrase is read as depends on what follows it, so each lemma leaves
open a rest of the text and asks of it only what the phrase needs.
-/

namespace RegexEngine

open Grammar Node

/-! ## Characters -/

theorem isAlphanum_of_isPunctuation {c : Char} (h : isPunctuation c = true) :
    c.isAlphanum = false := by
  simp only [isPunctuation, Bool.or_eq_true, decide_eq_true_eq, Char.le_def,
    UInt32.le_iff_toNat_le] at h
  change ((33 ≤ c.toNat ∧ c.toNat ≤ 47 ∨ 58 ≤ c.toNat ∧ c.toNat ≤ 64) ∨
    91 ≤ c.toNat ∧ c.toNat ≤ 96) ∨ 123 ≤ c.toNat ∧ c.toNat ≤ 126 at h
  change (decide (65 ≤ c.toNat ∧ c.toNat ≤ 90) ||
    decide (97 ≤ c.toNat) && decide (c.toNat ≤ 122) ||
    decide (48 ≤ c.toNat) && decide (c.toNat ≤ 57)) = false
  simp only [Bool.or_eq_false_iff, Bool.and_eq_false_iff, decide_eq_false_iff_not]
  omega

/-- A written character is an escape or stands for itself. -/
theorem spellChar_cases (c : Char) :
    (spellChar c = ['\\', c] ∧ ∀ rest, Escaped (c :: rest) (.char c) rest) ∨
      (spellChar c = [c] ∧ isPunctuation c = false) := by
  unfold spellChar
  split
  · rename_i punctuation
    exact .inl ⟨rfl, fun _ => .itself (isAlphanum_of_isPunctuation punctuation)⟩
  · rename_i plain
    exact .inr ⟨rfl, eq_false_of_ne_true plain⟩

theorem atom_spellChar (n : Nat) (c : Char) (rest : List Char) :
    Atom n (spellChar c ++ rest) (.char c) n rest := by
  rcases spellChar_cases c with ⟨eq, escaped⟩ | ⟨eq, plain⟩
  · rw [eq]
    exact .escape (escaped rest)
  · rw [eq]
    refine .literal ⟨?_, ?_⟩
    · have each : reserved.all isPunctuation = true := rfl
      intro mem
      cases plain.symm.trans (List.all_eq_true.1 each c mem)
    · rintro rfl
      cases plain

theorem item_spellChar (c : Char) (rest : List Char) :
    Item (spellChar c ++ rest) (.single c) rest := by
  rcases spellChar_cases c with ⟨eq, escaped⟩ | ⟨eq, plain⟩
  · rw [eq]
    exact .char (escaped rest)
  · rw [eq]
    refine .raw ?_
    rintro rfl
    cases plain

theorem escaped_spell (set : Shorthand) (negated : Bool) (rest : List Char) :
    ∃ c, set.spell negated = ['\\', c] ∧ Escaped (c :: rest) (.shorthand set negated) rest := by
  cases set <;> cases negated <;> exact ⟨_, rfl, .letter (by decide)⟩

/-! ## Classes -/

/-- Says that a text begins with a backslash or with a character that is no punctuation. -/
def Plain (s : List Char) : Prop := ∃ d rest, s = d :: rest ∧ (d = '\\' ∨ isPunctuation d = false)

theorem Plain.not_mem_head? {s : List Char} (h : Plain s) {mark : Char}
    (punctuation : isPunctuation mark = true) (other : mark ≠ '\\') : mark ∉ s.head? := by
  obtain ⟨d, rest, rfl, first⟩ := h
  rintro ⟨⟩
  rcases first with rfl | plain
  · exact other rfl
  · cases plain.symm.trans punctuation

theorem plain_spellChar (c : Char) (rest : List Char) : Plain (spellChar c ++ rest) := by
  rcases spellChar_cases c with ⟨eq, -⟩ | ⟨eq, plain⟩
  · exact ⟨'\\', c :: rest, by rw [eq]; rfl, .inl rfl⟩
  · exact ⟨c, rest, by rw [eq]; rfl, .inr plain⟩

theorem ClassItem.spell_range (lo hi : Char) : (ClassItem.range lo hi).spell =
    if lo = hi then spellChar lo else spellChar lo ++ '-' :: spellChar hi := rfl

theorem plain_spell (item : ClassItem) (rest : List Char) : Plain (item.spell ++ rest) := by
  cases item with
  | shorthand set negated =>
    obtain ⟨c, eq, -⟩ := escaped_spell set negated rest
    exact ⟨'\\', c :: rest, by rw [ClassItem.spell, eq]; rfl, .inl rfl⟩
  | range lo hi =>
    rw [ClassItem.spell_range]
    split
    · exact plain_spellChar lo rest
    · rw [List.append_assoc]
      exact plain_spellChar lo _

/-- An item is read back unless a hyphen follows, as none does in a written class. -/
theorem member_spell {item : ClassItem} (normal : item.normal = true) {rest : List Char}
    (apart : '-' ∉ rest.head?) : Member (item.spell ++ rest) [item] rest := by
  have noJoin : ¬ Joins rest := by
    rintro ⟨c, s, rfl, -⟩
    exact apart rfl
  cases item with
  | shorthand set negated =>
    obtain ⟨c, eq, escaped⟩ := escaped_spell set negated rest
    rw [ClassItem.spell, eq]
    exact .alone (.shorthand escaped) nofun
  | range lo hi =>
    rw [ClassItem.spell_range]
    split
    · rename_i same
      subst same
      exact .alone (item_spellChar lo rest) fun _ _ => noJoin
    · have upper := plain_spellChar hi rest
      have joins : Joins ('-' :: (spellChar hi ++ rest)) := by
        have inside : ']' ∉ (spellChar hi ++ rest).head? := upper.not_mem_head? rfl (by decide)
        obtain ⟨d, s, eq, -⟩ := upper
        rw [eq] at inside ⊢
        exact ⟨d, s, rfl, fun close => inside (congrArg some close)⟩
      rw [List.append_assoc]
      exact .range (item_spellChar lo _) joins (item_spellChar hi rest) (of_decide_eq_true normal)

theorem members_spell {items : List ClassItem} (normal : ∀ item ∈ items, item.normal = true)
    (rest : List Char) :
    Members (items.flatMap ClassItem.spell ++ ']' :: rest) items rest ∧
      '-' ∉ (items.flatMap ClassItem.spell ++ ']' :: rest).head? := by
  induction items with
  | nil => exact ⟨.close, nofun⟩
  | cons item items ih =>
    obtain ⟨here, further⟩ := List.forall_mem_cons.1 normal
    obtain ⟨others, apart⟩ := ih further
    have plain := plain_spell item (items.flatMap ClassItem.spell ++ ']' :: rest)
    rw [List.flatMap_cons, List.append_assoc]
    refine ⟨.cons ?_ (member_spell here apart) others, ?_⟩
    · exact plain.not_mem_head? rfl (by decide)
    · exact plain.not_mem_head? rfl (by decide)

theorem atom_spellClass {cls : CharClass} (normal : cls.normal = true) (n : Nat)
    (rest : List Char) : Atom n (cls.spell ++ rest) (.oneOf cls) n rest := by
  obtain ⟨items, negated⟩ := cls
  cases items with
  | nil => cases normal
  | cons item items =>
    obtain ⟨here, further⟩ : item.normal = true ∧ ∀ item ∈ items, item.normal = true := by
      simpa [CharClass.normal] using normal
    obtain ⟨others, apart⟩ := members_spell further rest
    have first := member_spell here apart
    have plain := plain_spell item (items.flatMap ClassItem.spell ++ ']' :: rest)
    unfold CharClass.spell
    cases negated with
    | false =>
      refine .bracket ?_
      simpa using Class.plain (plain.not_mem_head? rfl (by decide)) first others
    | true =>
      refine .bracket ?_
      simpa using Class.negated first others

/-! ## Bounds -/

theorem valueOf_toDigits (n : Nat) : Quantifier.valueOf (Nat.toDigits 10 n) = n :=
  Nat.ofDigitChars_toDigits (by decide) (by decide)

theorem bound_toDigits {n : Nat} (small : n ≤ Quantifier.maxBound) : Bound (Nat.toDigits 10 n) :=
  ⟨Nat.toDigits_ne_nil, fun _ => Nat.isDigit_of_mem_toDigits (by decide) (by decide),
    by rwa [valueOf_toDigits]⟩

/-- The bounds as they are written. -/
theorem rounds_spell {q : Quantifier} (normal : q.normal = true) (rest : List Char) :
    Rounds ('{' :: (Nat.toDigits 10 q.min ++ ',' ::
      (q.max.elim [] (Nat.toDigits 10) ++ '}' :: rest))) q.min q.max rest := by
  obtain ⟨min, max, greedy⟩ := q
  cases max with
  | none =>
    have small : min ≤ Quantifier.maxBound := by simpa [Quantifier.normal] using normal
    have rounds := @Rounds.atLeast _ rest (bound_toDigits small)
    rwa [valueOf_toDigits] at rounds
  | some max =>
    obtain ⟨-, ordered, small⟩ :
        min ≤ Quantifier.maxBound ∧ min ≤ max ∧ max ≤ Quantifier.maxBound := by
      simpa [Quantifier.normal] using normal
    have rounds := @Rounds.between _ _ rest (bound_toDigits (Nat.le_trans ordered small))
      (bound_toDigits small) (by simpa only [valueOf_toDigits] using ordered)
    rwa [valueOf_toDigits, valueOf_toDigits] at rounds

theorem quantified_spell {q : Quantifier} (normal : q.normal = true) (rest : List Char) :
    Quantified (q.spell ++ rest) q rest := by
  have rounds := rounds_spell normal
  obtain ⟨min, max, greedy⟩ := q
  cases greedy with
  | true =>
    have quantified := Quantified.greedy (rounds rest)
    simpa [Quantifier.spell] using quantified
  | false =>
    have quantified := Quantified.lazy (rounds ('?' :: rest))
    simpa [Quantifier.spell] using quantified

/-! ## Trees -/

/-- Says that the groups of these numbers open one after the other behind `n` others. -/
def Numbered (n : Nat) (captures : List Nat) : Prop :=
  captures = List.range' (n + 1) captures.length

theorem Numbered.append {n : Nat} {xs ys : List Nat} (h : Numbered n (xs ++ ys)) :
    Numbered n xs ∧ Numbered (n + xs.length) ys := by
  unfold Numbered at h
  rw [List.length_append, ← List.range'_append_1] at h
  obtain ⟨front, back⟩ := List.append_inj h (by simp)
  refine ⟨front, ?_⟩
  rw [Numbered, Nat.add_right_comm]
  exact back

theorem Numbered.cons {n i : Nat} {xs : List Nat} (h : Numbered n (i :: xs)) :
    i = n + 1 ∧ Numbered (n + 1) xs := by
  unfold Numbered at h
  rw [List.length_cons, List.range'_succ, List.cons.injEq] at h
  exact h

theorem atom_backreference {i : Nat} (known : 1 ≤ i ∧ i ≤ maxGroups) (n : Nat)
    (rest : List Char) :
    Atom n ('\\' :: Nat.toDigits 10 i ++ rest) (.backreference i) n rest := by
  obtain ⟨positive, small⟩ := known
  have each : ∀ i ≤ maxGroups, 1 ≤ i → i.digitChar.isDigit = true ∧ i.digitChar ≠ '0' ∧
      i.digitChar.toNat - '0'.toNat = i := by decide
  obtain ⟨digit, nonzero, value⟩ := each i small positive
  have escaped := @Escaped.backreference i.digitChar rest digit nonzero
  rw [value] at escaped
  rw [Nat.toDigits_of_lt_base (show i < 10 from Nat.lt_succ_of_le small)]
  exact .escape escaped

/-- Says that these nodes are normal and that their groups are numbered from `n` on. -/
structure Readable (n : Nat) (nodes : List Node) : Prop where
  normal : allNormal nodes = true
  numbered : Numbered n (capturesOfAll nodes)
  known : ∀ i ∈ referencesOfAll nodes, 1 ≤ i ∧ i ≤ maxGroups

namespace Readable

variable {n : Nat} {node body : Node} {nodes : List Node}

theorem cons (h : Readable n (node :: nodes)) :
    Readable n [node] ∧ Readable (n + node.captures.length) nodes := by
  obtain ⟨normal, numbered, known⟩ := h
  rw [allNormal, Bool.and_eq_true] at normal
  rw [capturesOfAll] at numbered
  simp only [referencesOfAll, List.forall_mem_append] at known
  refine ⟨⟨?_, ?_, ?_⟩, normal.2, numbered.append.2, known.2⟩
  · rw [allNormal, normal.1, allNormal, Bool.and_true]
  · simpa [capturesOfAll] using numbered.append.1
  · simpa [referencesOfAll] using known.1

theorem normal_node (h : Readable n [node]) : node.normal = true := by
  simpa [allNormal] using h.normal

theorem known_node (h : Readable n [node]) : ∀ i ∈ node.references, 1 ≤ i ∧ i ≤ maxGroups := by
  simpa [referencesOfAll] using h.known

theorem numbered_node (h : Readable n [node]) : Numbered n node.captures := by
  simpa [capturesOfAll] using h.numbered

/-- What a node is made of is readable with it. -/
theorem of_nodes (h : Readable n [node]) (normal : allNormal nodes = true)
    (captures : node.captures = capturesOfAll nodes)
    (references : node.references = referencesOfAll nodes) : Readable n nodes :=
  ⟨normal, captures ▸ h.numbered_node, references ▸ h.known_node⟩

/-- What a node encloses is readable with it. -/
theorem of_body (h : Readable n [node]) (normal : body.normal = true)
    (captures : node.captures = body.captures) (references : node.references = body.references) :
    Readable n [body] :=
  h.of_nodes (by simp [allNormal, normal]) (by simp [capturesOfAll, captures])
    (by simp [referencesOfAll, references])

theorem of_capture {i : Nat} (h : Readable n [.capture i body]) :
    i = n + 1 ∧ Readable (n + 1) [body] := by
  have normal := h.normal_node
  rw [Node.normal, Bool.and_eq_true] at normal
  obtain ⟨first, others⟩ := h.numbered_node.cons
  refine ⟨first, ?_, ?_, ?_⟩
  · simp [allNormal, normal.2]
  · simpa [capturesOfAll] using others
  · simpa [referencesOfAll, references] using h.known

end Readable

/-- Says that the text of a node is read as that node at every place where it may stand. -/
structure Spelled (node : Node) : Prop where
  atom : node.isAtom = true → node.repeatable = true → ∀ {n : Nat}, Readable n [node] →
    ∀ rest, Atom n (node.spell ++ rest) node (n + node.captures.length) rest
  part : node.isPart = true → ∀ {n : Nat}, Readable n [node] →
    ∀ rest, Piece n (node.spell ++ rest) node (n + node.captures.length) rest
  branch : ∀ parts, node = .sequence parts → ∀ {n : Nat}, Readable n [node] →
    ∀ rest, Sequence n (node.spell ++ rest) parts (n + node.captures.length) rest
  choice : ∀ branches, node = .choice branches → ∀ {n : Nat}, Readable n [node] →
    ∀ rest, Alternation n (node.spell ++ rest) branches (n + node.captures.length) rest

namespace Spelled

variable {node body : Node} {n : Nat}

theorem of_atom (shape : node.isAtom = true)
    (h : ∀ {n : Nat}, Readable n [node] →
      ∀ rest, Atom n (node.spell ++ rest) node (n + node.captures.length) rest) :
    Spelled node where
  atom _ _ := h
  part _ _ readable rest := .once (h readable rest)
  branch parts eq := by cases eq ▸ shape
  choice branches eq := by cases eq ▸ shape

/-- A test is no atom. -/
theorem of_test (shape : node.isAtom = true) (fixed : node.repeatable = false)
    (h : ∀ {n : Nat}, Readable n [node] →
      ∀ rest, Piece n (node.spell ++ rest) node (n + node.captures.length) rest) :
    Spelled node where
  atom _ repeatable := by cases fixed.symm.trans repeatable
  part _ _ := h
  branch parts eq := by cases eq ▸ shape
  choice branches eq := by cases eq ▸ shape

theorem enclosed (h : Spelled body) (shape : body.isBody = true) (readable : Readable n [body])
    (rest : List Char) : ∃ branches, body = ofBranches branches ∧
      Alternation n (body.spell ++ rest) branches (n + body.captures.length) rest := by
  match body with
  | .sequence parts => exact ⟨_, rfl, .last (h.branch parts rfl readable rest)⟩
  | .choice branches =>
    refine ⟨branches, ?_, h.choice branches rfl readable rest⟩
    have normal := readable.normal_node
    simp only [Node.normal, Bool.and_eq_true, decide_eq_true_eq] at normal
    match branches, normal.1.1 with
    | _ :: _ :: _, _ => rfl

theorem sequence {parts : List Node} (h : ∀ part ∈ parts, Spelled part)
    (shapes : parts.all Node.isPart = true) (readable : Readable n parts) (rest : List Char) :
    Sequence n (spellParts parts ++ rest) parts (n + (capturesOfAll parts).length) rest := by
  induction parts generalizing n with
  | nil => exact .nil
  | cons part parts ih =>
    obtain ⟨first, others⟩ := List.forall_mem_cons.1 h
    obtain ⟨here, further⟩ := readable.cons
    rw [List.all_cons, Bool.and_eq_true] at shapes
    rw [spellParts, List.append_assoc, capturesOfAll, List.length_append, ← Nat.add_assoc]
    exact .cons (first.part shapes.1 here _) (ih others shapes.2 further)

theorem alternation {branches : List Node} (h : ∀ branch ∈ branches, Spelled branch)
    (shapes : branches.all Node.isSequence = true) (nonempty : branches ≠ [])
    (readable : Readable n branches) (rest : List Char) :
    Alternation n (spellBranches branches ++ rest) branches
      (n + (capturesOfAll branches).length) rest := by
  induction branches generalizing n with
  | nil => exact absurd rfl nonempty
  | cons branch branches ih =>
    obtain ⟨first, others⟩ := List.forall_mem_cons.1 h
    obtain ⟨here, further⟩ := readable.cons
    rw [List.all_cons, Bool.and_eq_true] at shapes
    obtain ⟨parts, rfl⟩ : ∃ parts, branch = .sequence parts := by
      cases branch with
      | sequence parts => exact ⟨parts, rfl⟩
      | _ => cases shapes.1
    have sequence := first.branch parts rfl here
    cases branches with
    | nil =>
      rw [spellBranches, capturesOfAll, capturesOfAll, List.append_nil]
      exact .last (sequence rest)
    | cons other branches =>
      have further := ih others shapes.2 (List.cons_ne_nil _ _) further
      rw [spellBranches, List.append_assoc, capturesOfAll, List.length_append, ← Nat.add_assoc]
      · exact .bar (sequence _) further
      · exact List.cons_ne_nil _ _

theorem of_sequence {parts : List Node} (h : ∀ part ∈ parts, Spelled part) :
    Spelled (.sequence parts) where
  atom shape := by cases shape
  part shape := by cases shape
  branch _ eq _ readable := by
    cases eq
    have normal := readable.normal_node
    rw [Node.normal, Bool.and_eq_true] at normal
    exact sequence h normal.1 (readable.of_nodes normal.2 rfl rfl)
  choice _ eq := by cases eq

theorem of_choice {branches : List Node} (h : ∀ branch ∈ branches, Spelled branch) :
    Spelled (.choice branches) where
  atom shape := by cases shape
  part shape := by cases shape
  branch _ eq := by cases eq
  choice _ eq _ readable := by
    cases eq
    have normal := readable.normal_node
    simp only [Node.normal, Bool.and_eq_true, decide_eq_true_eq] at normal
    obtain ⟨⟨several, shapes⟩, normal⟩ := normal
    refine alternation h shapes ?_ (readable.of_nodes normal rfl rfl)
    rintro rfl
    cases several

theorem of_repeated {q : Quantifier} (h : Spelled body) : Spelled (.repeated body q) where
  atom shape := by cases shape
  part _ _ readable rest := by
    have normal := readable.normal_node
    simp only [Node.normal, Bool.and_eq_true] at normal
    obtain ⟨⟨⟨shape, repeatable⟩, bounds⟩, normal⟩ := normal
    have atom := h.atom shape repeatable (readable.of_body normal rfl rfl) (q.spell ++ rest)
    rw [Node.spell, List.append_assoc]
    exact .repeated atom (quantified_spell bounds rest)
  branch _ eq := by cases eq
  choice _ eq := by cases eq

theorem of_group (h : Spelled body) : Spelled (.group body) := by
  refine .of_atom rfl fun readable rest => ?_
  have normal := readable.normal_node
  rw [Node.normal, Bool.and_eq_true] at normal
  obtain ⟨branches, eq, alternation⟩ :=
    h.enclosed normal.1 (readable.of_body normal.2 rfl rfl) (')' :: rest)
  simpa [Node.spell, captures, ← eq] using Atom.group alternation

theorem of_capture {i : Nat} (h : Spelled body) : Spelled (.capture i body) := by
  refine .of_atom rfl fun readable rest => ?_
  have normal := readable.normal_node
  rw [Node.normal, Bool.and_eq_true] at normal
  obtain ⟨rfl, within⟩ := readable.of_capture
  obtain ⟨branches, eq, alternation⟩ := h.enclosed normal.1 within (')' :: rest)
  rw [Nat.add_right_comm, Nat.add_assoc] at alternation
  simpa [Node.spell, captures, ← eq] using Atom.capture alternation

theorem of_look {positive : Bool} (h : Spelled body) : Spelled (.look positive body) := by
  refine .of_test rfl rfl fun readable rest => ?_
  have normal := readable.normal_node
  rw [Node.normal, Bool.and_eq_true] at normal
  obtain ⟨branches, eq, alternation⟩ :=
    h.enclosed normal.1 (readable.of_body normal.2 rfl rfl) (')' :: rest)
  cases positive with
  | true => simpa [Node.spell, captures, ← eq] using Piece.ahead alternation
  | false => simpa [Node.spell, captures, ← eq] using Piece.notAhead alternation

end Spelled

mutual

theorem spelled (node : Node) : Spelled node := by
  match node with
  | .char c => exact .of_atom rfl fun _ => atom_spellChar _ c
  | .any => exact .of_atom rfl fun _ _ => .any
  | .oneOf cls => exact .of_atom rfl fun readable => atom_spellClass readable.normal_node _
  | .backreference i =>
    exact .of_atom rfl fun readable =>
      atom_backreference (readable.known_node i (List.mem_singleton_self i)) _
  | .atStart => exact .of_test rfl rfl fun _ _ => .atStart
  | .atEnd => exact .of_test rfl rfl fun _ _ => .atEnd
  | .sequence parts => exact .of_sequence (spelled_all parts)
  | .choice branches => exact .of_choice (spelled_all branches)
  | .repeated body q => exact .of_repeated (spelled body)
  | .group body => exact .of_group (spelled body)
  | .capture i body => exact .of_capture (spelled body)
  | .look positive body => exact .of_look (spelled body)

theorem spelled_all (nodes : List Node) : ∀ node ∈ nodes, Spelled node := by
  match nodes with
  | [] => exact nofun
  | node :: nodes => exact List.forall_mem_cons.2 ⟨spelled node, spelled_all nodes⟩

end

namespace Pattern

variable {pattern : Pattern}

theorem derives_print (h : pattern.Normal) : Derives pattern.print.toList pattern := by
  have readable : Readable 0 [pattern.root] := by
    refine ⟨by simp [allNormal, h.root], ?_, ?_⟩
    · simp [capturesOfAll, Numbered, h.numbered]
    · intro i mem
      obtain ⟨positive, le⟩ := h.known i (by simpa [referencesOfAll] using mem)
      exact ⟨positive, Nat.le_trans le h.few⟩
  obtain ⟨branches, root, alternation⟩ := (spelled pattern.root).enclosed h.body readable []
  refine ⟨⟨branches, root, ?_⟩, h.few, fun i mem => (h.known i mem).2⟩
  simpa [print, h.numbered] using alternation

/-- Reading undoes writing. -/
theorem parse_print (h : pattern.Normal) : Pattern.parse pattern.print = .ok pattern :=
  parse_eq_ok_iff_derives.2 (derives_print h)

theorem parse_print_of_parse {text : String} (h : Pattern.parse text = .ok pattern) :
    Pattern.parse pattern.print = .ok pattern :=
  parse_eq_ok_iff_derives.2 (derives_print (normal_of_parse h))

/-- A brace before a digit, an empty branch, marks inside a class, bounds before a question mark
and a digit behind a reference. -/
def intricate : Pattern :=
  ⟨.sequence [
    .capture 1 (.choice [.sequence [.char '{', .char '1'], .sequence []]),
    .repeated (.oneOf ⟨[.single '^', .range '+' '-', .shorthand .word true], true⟩)
      ⟨2, some 12, false⟩,
    .repeated (.group (.sequence [.char '?', .look false (.sequence [.atEnd])])) ⟨0, none, true⟩,
    .backreference 1,
    .char '0'], 1⟩

theorem parse_print_of_intricate :
    intricate.Normal ∧ Pattern.parse intricate.print = .ok intricate := by
  have normal : intricate.Normal := ⟨rfl, by decide, rfl, by decide, by decide⟩
  exact ⟨normal, parse_print normal⟩

end Pattern

end RegexEngine
