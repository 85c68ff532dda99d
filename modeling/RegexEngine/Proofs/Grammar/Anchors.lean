import RegexEngine.Proofs.Code.Operands
import RegexEngine.Proofs.Grammar.Reading

/-!
# Patterns that do not ask for the start

Only a `^` asks to be at the start of the text. A tree that is read from a text without that
character asks nowhere (`Pattern.asksStart_of_parse`), and neither does its code
(`Pattern.atStart_not_mem_of_compile`).
-/

namespace RegexEngine

/-! ## Nodes and their code -/

namespace Node

mutual

/-- Whether a node asks somewhere to be at the start of the text. -/
def asksStart : Node → Bool
  | sequence parts => anyAsksStart parts
  | choice branches => anyAsksStart branches
  | repeated body _ | group body | capture _ body | look _ body => asksStart body
  | atStart => true
  | char _ | any | oneOf _ | backreference _ | atEnd => false

def anyAsksStart : List Node → Bool
  | [] => false
  | node :: nodes => asksStart node || anyAsksStart nodes

end

theorem anyAsksStart_eq_any (nodes : List Node) : anyAsksStart nodes = nodes.any asksStart := by
  induction nodes with
  | nil => rfl
  | cons node nodes ih => rw [anyAsksStart, ih, List.any_cons]

theorem asksStart_of_mem_children {node child : Node} (h : node.asksStart = false)
    (below : child ∈ node.children) : child.asksStart = false := by
  cases node with
  | sequence nodes | choice nodes =>
    rw [asksStart, anyAsksStart_eq_any, List.any_eq_false] at h
    simpa using h child below
  | repeated | group | capture | look =>
    obtain rfl := List.mem_singleton.1 below
    exact h
  | _ => cases below

theorem atStart_not_mem_block (base register : Nat) (node : Node) (h : node.asksStart = false) :
    ∀ inst ∈ node.block base register, inst ≠ .atStart := by
  rintro _ mem rfl
  obtain ⟨part, below, writes⟩ := written_block base register node _ mem
  have silent : ∀ part ∈ node.nodes, part.asksStart = false := by
    apply forall_mem_nodes
    · exact fun _ h _ below => asksStart_of_mem_children h below
    · exact h
  cases part with
  | atStart => cases silent _ below
  | _ => simp [Writes] at writes

end Node

namespace Grammar

/-! ## What lies behind a phrase is the end of the text before it -/

theorem Escaped.suffix {escape : Escape} {s rest : List Char} (h : Escaped s escape rest) :
    rest <:+ s := by
  cases h with
  | letter | backreference | itself => exact List.suffix_cons _ _
  | hex =>
    exact ((List.suffix_cons _ _).trans (List.suffix_cons _ _)).trans (List.suffix_cons _ _)

theorem Item.suffix {item : ClassItem} {s rest : List Char} (h : Item s item rest) :
    rest <:+ s := by
  cases h with
  | raw => exact List.suffix_cons _ _
  | char escape | shorthand escape => exact escape.suffix.trans (List.suffix_cons _ _)

theorem Member.suffix {items : List ClassItem} {s rest : List Char} (h : Member s items rest) :
    rest <:+ s := by
  cases h with
  | alone one => exact one.suffix
  | range lower _ upper | hyphen lower _ upper =>
    exact (upper.suffix.trans (List.suffix_cons _ _)).trans lower.suffix

theorem Members.suffix {items : List ClassItem} {s rest : List Char} (h : Members s items rest) :
    rest <:+ s := by
  induction h with
  | close => exact List.suffix_cons _ _
  | cons _ first _ ih => exact ih.trans first.suffix

theorem Class.suffix {cls : CharClass} {s rest : List Char} (h : Class s cls rest) :
    rest <:+ s := by
  cases h with
  | plain _ first further => exact further.suffix.trans first.suffix
  | negated first further =>
    exact (further.suffix.trans first.suffix).trans (List.suffix_cons _ _)

theorem Rounds.suffix {min : Nat} {max : Option Nat} {s rest : List Char}
    (h : Rounds s min max rest) : rest <:+ s := by
  cases h with
  | star | plus | question => exact List.suffix_cons _ _
  | @exactly ds => exact ⟨'{' :: (ds ++ ['}']), by simp⟩
  | @atLeast ds => exact ⟨'{' :: (ds ++ [',', '}']), by simp⟩
  | @between ds es => exact ⟨'{' :: (ds ++ ',' :: (es ++ ['}'])), by simp⟩

theorem Quantified.suffix {q : Quantifier} {s rest : List Char} (h : Quantified s q rest) :
    rest <:+ s := by
  cases h with
  | greedy rounds => exact rounds.suffix
  | lazy rounds => exact (List.suffix_cons _ _).trans rounds.suffix

/-! ## Texts without carets -/

theorem asksStart_ofBranches {branches : List Node} (h : Node.anyAsksStart branches = false) :
    (ofBranches branches).asksStart = false := by
  unfold ofBranches
  split
  · exact (Bool.or_eq_false_iff.1 h).1
  · exact h

/-- Says that a phrase, if no caret stands ahead of it, leaves none ahead, and that what it stands
for does not ask for the start then. -/
def Caretless (s : List Char) (asks : Bool) (rest : List Char) : Prop :=
  '^' ∉ s → asks = false ∧ '^' ∉ rest

section

variable {branches : List Node} {asks : Bool} {s rest : List Char}

theorem caretless_of_suffix (suffix : rest <:+ s) : Caretless s false rest :=
  fun absent => ⟨rfl, fun mem => absent (suffix.subset mem)⟩

theorem Caretless.cons (h : Caretless s asks rest) (c : Char) : Caretless (c :: s) asks rest :=
  fun absent => h fun mem => absent (List.mem_cons_of_mem c mem)

/-- A phrase in parentheses. -/
theorem Caretless.enclosed (h : Caretless s (Node.anyAsksStart branches) (')' :: rest)) :
    Caretless s (ofBranches branches).asksStart rest := by
  intro absent
  obtain ⟨none_asks, behind⟩ := h absent
  exact ⟨asksStart_ofBranches none_asks, fun mem => behind (List.mem_cons_of_mem _ mem)⟩

end

mutual

theorem Alternation.caretless {n m : Nat} {branches : List Node} {s rest : List Char}
    (h : Alternation n s branches m rest) :
    Caretless s (Node.anyAsksStart branches) rest := by
  intro absent
  match h with
  | .last branch =>
    obtain ⟨none_asks, behind⟩ := branch.caretless absent
    exact ⟨Bool.or_eq_false_iff.2 ⟨none_asks, rfl⟩, behind⟩
  | .bar branch others =>
    obtain ⟨none_asks, behind⟩ := branch.caretless absent
    obtain ⟨others_ask, rest⟩ :=
      others.caretless fun mem => behind (List.mem_cons_of_mem _ mem)
    exact ⟨Bool.or_eq_false_iff.2 ⟨none_asks, others_ask⟩, rest⟩

theorem Sequence.caretless {n m : Nat} {parts : List Node} {s rest : List Char}
    (h : Sequence n s parts m rest) : Caretless s (Node.anyAsksStart parts) rest := by
  intro absent
  match h with
  | .nil => exact ⟨rfl, absent⟩
  | .cons first others =>
    obtain ⟨first_asks, behind⟩ := first.caretless absent
    obtain ⟨others_ask, rest⟩ := others.caretless behind
    exact ⟨Bool.or_eq_false_iff.2 ⟨first_asks, others_ask⟩, rest⟩

theorem Piece.caretless {n m : Nat} {part : Node} {s rest : List Char}
    (h : Piece n s part m rest) : Caretless s part.asksStart rest := by
  match h with
  | .atStart => exact fun absent => absurd List.mem_cons_self absent
  | .atEnd => exact caretless_of_suffix (List.suffix_cons _ _)
  | .ahead body | .notAhead body => exact ((body.caretless.enclosed.cons _).cons _).cons _
  | .once one => exact one.caretless
  | .repeated one quantifier =>
    intro absent
    obtain ⟨none_asks, behind⟩ := one.caretless absent
    exact ⟨none_asks, fun mem => behind (quantifier.suffix.subset mem)⟩

theorem Atom.caretless {n m : Nat} {atom : Node} {s rest : List Char}
    (h : Atom n s atom m rest) : Caretless s atom.asksStart rest := by
  match h with
  | .any => exact caretless_of_suffix (List.suffix_cons _ _)
  | .capture body => exact body.caretless.enclosed.cons _
  | .group body => exact ((body.caretless.enclosed.cons _).cons _).cons _
  | .bracket members => exact (caretless_of_suffix members.suffix).cons _
  | @Atom.escape _ escape _ _ escaped =>
    cases escape <;> exact (caretless_of_suffix escaped.suffix).cons _
  | .literal _ => exact caretless_of_suffix (List.suffix_cons _ _)

end

end Grammar

namespace Pattern

variable {text : String} {pattern : Pattern} {ignoreCase : Bool} {program : Program}

theorem asksStart_of_parse (parsed : Pattern.parse text = .ok pattern)
    (absent : '^' ∉ text.toList) : pattern.root.asksStart = false := by
  obtain ⟨⟨branches, root, derivation⟩, -, -⟩ := parse_eq_ok_iff_derives.1 parsed
  rw [root]
  exact Grammar.asksStart_ofBranches (derivation.caretless absent).1

theorem atStart_not_mem_of_compile (asks : pattern.root.asksStart = false)
    (compiled : pattern.compile ignoreCase = .ok program) : .atStart ∉ program.code := by
  rw [← Array.mem_toList_iff, code_of_compile compiled, List.mem_append, not_or]
  refine ⟨?_, by simp⟩
  intro mem
  exact Node.atStart_not_mem_block 0 0 pattern.root asks _ mem rfl

end Pattern

end RegexEngine
