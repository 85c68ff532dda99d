import RegexEngine.Proofs.Grammar.Reading
import RegexEngine.Proofs.Patterns.Normal

/-!
# What is read is in normal form

A derivation builds only trees in normal form, and numbers the groups of each phrase from the count
it begins with to the count it ends with. Hence so does `Pattern.parse` (`Pattern.normal_of_parse`).
-/

namespace RegexEngine

open Node

namespace Grammar

/-! ## Leaves -/

theorem Item.normal {item : ClassItem} {s rest : List Char} (h : Item s item rest) :
    item.normal = true := by
  cases h with
  | raw | char => exact ClassItem.normal_single _
  | shorthand => rfl

theorem Member.normal {items : List ClassItem} {s rest : List Char} (h : Member s items rest) :
    items ≠ [] ∧ ∀ item ∈ items, item.normal = true := by
  refine ⟨by cases h <;> exact List.cons_ne_nil _ _, ?_⟩
  cases h with
  | alone one => simpa using one.normal
  | range _ _ _ ordered => simpa [ClassItem.normal] using ordered
  | hyphen _ _ upper => simpa using upper.normal

theorem Members.normal {items : List ClassItem} {s rest : List Char} (h : Members s items rest) :
    ∀ item ∈ items, item.normal = true := by
  induction h with
  | close => exact nofun
  | cons _ first _ ih =>
    intro item mem
    rcases List.mem_append.1 mem with mem | mem
    · exact first.normal.2 item mem
    · exact ih item mem

theorem Class.normal {cls : CharClass} {s rest : List Char} (h : Class s cls rest) :
    cls.normal = true := by
  have both {items others : List ClassItem} {s mid rest : List Char} {negated : Bool}
      (first : Member s items mid) (further : Members mid others rest) :
      CharClass.normal ⟨items ++ others, negated⟩ = true := by
    simp only [CharClass.normal, Bool.and_eq_true, List.all_append, List.all_eq_true,
      Bool.not_eq_true', List.isEmpty_eq_false_iff]
    exact ⟨List.append_ne_nil_of_left_ne_nil first.normal.1 _, first.normal.2, further.normal⟩
  cases h with
  | plain _ first further => exact both first further
  | negated first further => exact both first further

theorem Rounds.normal {min : Nat} {max : Option Nat} {s rest : List Char}
    (h : Rounds s min max rest) (greedy : Bool) : Quantifier.normal ⟨min, max, greedy⟩ = true := by
  cases h with
  | star | plus | question => rfl
  | exactly bound => simpa [Quantifier.normal] using bound.small
  | atLeast bound => simpa [Quantifier.normal] using bound.small
  | between lower upper ordered =>
    simpa [Quantifier.normal] using ⟨lower.small, ordered, upper.small⟩

theorem Quantified.normal {q : Quantifier} {s rest : List Char} (h : Quantified s q rest) :
    q.normal = true := by
  cases h with
  | greedy rounds => exact rounds.normal true
  | lazy rounds => exact rounds.normal false

/-! ## Shapes -/

theorem Atom.isAtom {n m : Nat} {atom : Node} {s rest : List Char} (h : Atom n s atom m rest) :
    atom.isAtom = true := by
  cases h with
  | @escape _ escape => cases escape <;> rfl
  | any | capture | group | bracket | literal => rfl

theorem Piece.isPart {n m : Nat} {part : Node} {s rest : List Char} (h : Piece n s part m rest) :
    part.isPart = true := by
  cases h with
  | atStart | atEnd | ahead | notAhead => rfl
  | once one =>
    cases one with
    | @escape _ escape => cases escape <;> rfl
    | any | capture | group | bracket | literal => rfl
  | repeated one => simp [Node.isPart, one.isAtom, one.repeatable]

theorem Alternation.isSequence {n m : Nat} {branches : List Node} {s rest : List Char}
    (h : Alternation n s branches m rest) : branches.all Node.isSequence = true := by
  induction branches generalizing n s with
  | nil => rfl
  | cons branch branches ih =>
    cases h with
    | last => rfl
    | bar _ others => simpa [Node.isSequence] using ih others

theorem Sequence.isPart {n m : Nat} {parts : List Node} {s rest : List Char}
    (h : Sequence n s parts m rest) : parts.all Node.isPart = true := by
  induction parts generalizing n s with
  | nil => rfl
  | cons part parts ih =>
    cases h with
    | cons first others => simpa using ⟨first.isPart, by simpa using ih others⟩

theorem isBody_ofBranches {n m : Nat} {branches : List Node} {s rest : List Char}
    (h : Alternation n s branches m rest) : (ofBranches branches).isBody = true := by
  cases h with
  | last => rfl
  | bar _ others => cases others <;> rfl

/-! ## Trees -/

/-- Says that these nodes are normal and that their groups have the numbers above `n` up to `m`. -/
structure Settled (n : Nat) (nodes : List Node) (m : Nat) : Prop where
  le : n ≤ m
  normal : allNormal nodes = true
  numbered : capturesOfAll nodes = List.range' (n + 1) (m - n)
  positive : ∀ i ∈ referencesOfAll nodes, 1 ≤ i

namespace Settled

variable {n m k : Nat} {node body : Node} {nodes : List Node}

theorem nil : Settled n [] n := ⟨Nat.le_refl n, rfl, by simp [capturesOfAll], nofun⟩

theorem cons (first : Settled n [node] m) (others : Settled m nodes k) :
    Settled n (node :: nodes) k := by
  obtain ⟨le, normal, numbered, positive⟩ := first
  obtain ⟨le', normal', numbered', positive'⟩ := others
  simp only [allNormal, capturesOfAll, referencesOfAll, List.append_nil, Bool.and_true]
    at normal numbered positive
  refine ⟨Nat.le_trans le le', ?_, ?_, ?_⟩
  · rw [allNormal, normal, normal', Bool.and_true]
  · have joined := @List.range'_append_1 (n + 1) (m - n) (k - m)
    rw [show n + 1 + (m - n) = m + 1 by omega, show m - n + (k - m) = k - n by omega] at joined
    rw [capturesOfAll, numbered, numbered', joined]
  · intro i mem
    rcases List.mem_append.1 mem with mem | mem
    · exact positive i mem
    · exact positive' i mem

/-- A node that holds a list of others is settled with it. -/
theorem of_nodes (h : Settled n nodes m) (normal : node.normal = true)
    (captures : node.captures = capturesOfAll nodes)
    (references : node.references = referencesOfAll nodes) : Settled n [node] m := by
  refine ⟨h.le, ?_, ?_, ?_⟩
  · rw [allNormal, normal, allNormal, Bool.and_true]
  · rw [capturesOfAll, captures, h.numbered, capturesOfAll, List.append_nil]
  · rw [referencesOfAll, references, referencesOfAll, List.append_nil]
    exact h.positive

theorem normal_node (h : Settled n [node] m) : node.normal = true := by
  simpa [allNormal] using h.normal

/-- A node that holds another one is settled with it. -/
theorem of_body (h : Settled n [body] m) (normal : node.normal = true)
    (captures : node.captures = body.captures) (references : node.references = body.references) :
    Settled n [node] m :=
  h.of_nodes normal (by simp [captures, capturesOfAll]) (by simp [references, referencesOfAll])

theorem capture (h : Settled (n + 1) [body] m) (shape : body.isBody = true) :
    Settled n [.capture (n + 1) body] m := by
  have le := h.le
  refine ⟨by omega, ?_, ?_, ?_⟩
  · simpa [allNormal, Node.normal, shape] using h.normal_node
  · have numbered := h.numbered
    simp only [capturesOfAll, captures, List.append_nil] at numbered ⊢
    rw [numbered, show m - n = m - (n + 1) + 1 by omega, List.range'_succ]
  · simpa [referencesOfAll, references] using h.positive

theorem sequence {s rest : List Char} (h : Settled n nodes m) (branch : Sequence n s nodes m rest) :
    Settled n [.sequence nodes] m :=
  h.of_nodes (by simp [Node.normal, branch.isPart, h.normal]) rfl rfl

theorem ofBranches {s rest : List Char} (h : Settled n nodes m)
    (alternation : Alternation n s nodes m rest) : Settled n [ofBranches nodes] m := by
  cases alternation with
  | last => exact h
  | bar branch others =>
    have normal := h.normal
    have shapes := (Alternation.bar branch others).isSequence
    cases others <;> exact h.of_nodes (by simp_all [Grammar.ofBranches, Node.normal]) rfl rfl

/-- A group or a test is settled with what it encloses. -/
theorem enclosed {s rest : List Char} (h : Settled n nodes m)
    (body : Alternation n s nodes m rest)
    (normal : node.normal =
      ((Grammar.ofBranches nodes).isBody && (Grammar.ofBranches nodes).normal))
    (captures : node.captures = (Grammar.ofBranches nodes).captures)
    (references : node.references = (Grammar.ofBranches nodes).references) :
    Settled n [node] m := by
  have within := h.ofBranches body
  refine within.of_body ?_ captures references
  rw [normal, isBody_ofBranches body, within.normal_node, Bool.and_self]

end Settled

theorem one_le_of_digit {c : Char} (digit : c.isDigit = true) (nonzero : c ≠ '0') :
    1 ≤ c.toNat - '0'.toNat := by
  have low : '0'.toNat ≤ c.toNat := (Char.isDigit_iff_toNat.1 digit).1
  have other : c.toNat ≠ '0'.toNat := fun same => nonzero (Char.toNat_inj.1 same)
  omega

theorem Escaped.settled {n : Nat} {escape : Escape} {s rest : List Char}
    (h : Escaped s escape rest) : Settled n [Reader.nodeOfEscape escape] n := by
  have char (c : Char) : Settled n [.char c] n := Settled.nil.of_nodes rfl rfl rfl
  cases h with
  | letter =>
    cases escape with
    | char c => exact char c
    | shorthand set negated => exact Settled.nil.of_nodes rfl rfl rfl
    | backreference => exact absurd ‹_› (by simp [letters])
  | hex => exact char _
  | itself => exact char _
  | backreference digit nonzero =>
    refine ⟨Nat.le_refl n, rfl, by simp [Reader.nodeOfEscape, capturesOfAll, captures], ?_⟩
    simpa [Reader.nodeOfEscape, referencesOfAll, references] using one_le_of_digit digit nonzero

mutual

theorem Alternation.settled {n m : Nat} {branches : List Node} {s rest : List Char}
    (h : Alternation n s branches m rest) : Settled n branches m := by
  match h with
  | .last branch => exact branch.settled.sequence branch
  | .bar branch others => exact .cons (branch.settled.sequence branch) others.settled

theorem Sequence.settled {n m : Nat} {parts : List Node} {s rest : List Char}
    (h : Sequence n s parts m rest) : Settled n parts m := by
  match h with
  | .nil => exact .nil
  | .cons first others => exact .cons first.settled others.settled

theorem Piece.settled {n m : Nat} {part : Node} {s rest : List Char}
    (h : Piece n s part m rest) : Settled n [part] m := by
  match h with
  | .atStart => exact Settled.nil.of_nodes rfl rfl rfl
  | .atEnd => exact Settled.nil.of_nodes rfl rfl rfl
  | .ahead body | .notAhead body => exact body.settled.enclosed body rfl rfl rfl
  | .once one => exact one.settled
  | .repeated one quantifier =>
    refine one.settled.of_body ?_ rfl rfl
    simp [Node.normal, one.isAtom, one.repeatable, quantifier.normal, one.settled.normal_node]

theorem Atom.settled {n m : Nat} {atom : Node} {s rest : List Char}
    (h : Atom n s atom m rest) : Settled n [atom] m := by
  match h with
  | .any => exact Settled.nil.of_nodes rfl rfl rfl
  | .bracket members => exact Settled.nil.of_nodes members.normal rfl rfl
  | .escape escaped => exact escaped.settled
  | .literal _ => exact Settled.nil.of_nodes rfl rfl rfl
  | .capture body => exact (body.settled.ofBranches body).capture (isBody_ofBranches body)
  | .group body => exact body.settled.enclosed body rfl rfl rfl

end

end Grammar

theorem Pattern.normal_of_parse {text : String} {pattern : Pattern}
    (h : Pattern.parse text = .ok pattern) : pattern.Normal := by
  obtain ⟨⟨branches, root, derivation⟩, few, known⟩ := parse_eq_ok_iff_derives.1 h
  have settled := derivation.settled.ofBranches derivation
  rw [← root] at settled
  refine ⟨root ▸ Grammar.isBody_ofBranches derivation, settled.normal_node, ?_, few, ?_⟩
  · simpa [capturesOfAll] using settled.numbered
  · intro i mem
    exact ⟨settled.positive i (by simpa [referencesOfAll] using mem), known i mem⟩

end RegexEngine
