import RegexEngine.Proofs.Code.Origins
import RegexEngine.Proofs.Grammar.Normality
import RegexEngine.Proofs.Patterns.Proper

/-!
# What a tree promises, node by node

Whatever is done with a pattern rests on a few facts about its tree: there is a slot for every group
and every backreference, rounds can be counted, a repeated node is an atom. That a tree is in normal
form says so from the root down; here the facts are read off at every node of the tree
(`Pattern.wellFormed_of_parse`). `Node.nodes` lists a node before those below it and these from left
to right, which is the order in which groups open.
-/

namespace RegexEngine

namespace Node

/-! ## The groups among the nodes -/

/-- The number of a capturing group. -/
def captured? : Node → Option Nat
  | capture index _ => some index
  | _ => none

mutual

theorem filterMap_nodes (node : Node) : node.nodes.filterMap captured? = node.captures := by
  match node with
  | char _ | any | oneOf _ | backreference _ | atStart | atEnd => rfl
  | sequence parts => exact filterMap_nodesOfAll parts
  | choice branches => exact filterMap_nodesOfAll branches
  | repeated body _ | group body | look _ body => exact filterMap_nodes body
  | capture index body => exact congrArg (index :: ·) (filterMap_nodes body)

theorem filterMap_nodesOfAll (given : List Node) :
    (nodesOfAll given).filterMap captured? = capturesOfAll given := by
  match given with
  | [] => rfl
  | node :: others =>
    rw [nodesOfAll, List.filterMap_append, filterMap_nodes node, filterMap_nodesOfAll others,
      capturesOfAll]

end

/-! ## What passes down -/

variable {node child : Node}

theorem allNormal_eq_true_iff {nodes : List Node} :
    allNormal nodes = true ↔ ∀ node ∈ nodes, node.normal = true := by
  induction nodes with
  | nil => exact ⟨fun _ => nofun, fun _ => rfl⟩
  | cons node nodes ih => rw [allNormal, Bool.and_eq_true, ih, List.forall_mem_cons]

theorem normal_of_mem_children (h : node.normal = true) (mem : child ∈ node.children) :
    child.normal = true := by
  cases node with
  | char | any | oneOf | backreference | atStart | atEnd => cases mem
  | sequence parts =>
    rw [normal, Bool.and_eq_true] at h
    exact allNormal_eq_true_iff.1 h.2 child mem
  | choice branches =>
    rw [normal, Bool.and_eq_true] at h
    exact allNormal_eq_true_iff.1 h.2 child mem
  | repeated body | group body | capture _ body | look _ body =>
    rw [normal, Bool.and_eq_true] at h
    exact List.mem_singleton.1 mem ▸ h.2

theorem proper_of_mem_children (proper : node.Proper)
    (mem : child ∈ node.children) : child.Proper := by
  cases node with
  | char | any | oneOf | backreference | atStart | atEnd => cases mem
  | sequence parts => exact allProper_iff.1 proper child mem
  | choice branches => exact allProper_iff.1 proper.2 child mem
  | repeated body q => exact List.mem_singleton.1 mem ▸ proper.2
  | group body | capture _ body | look _ body => exact List.mem_singleton.1 mem ▸ proper

theorem references_subset_of_mem_children (mem : child ∈ node.children) :
    child.references ⊆ node.references := by
  cases node with
  | char | any | oneOf | backreference | atStart | atEnd => cases mem
  | sequence nodes | choice nodes =>
    rw [references, referencesOfAll_eq_flatMap]
    exact fun i named => List.mem_flatMap.2 ⟨child, mem, named⟩
  | repeated body | group body | capture _ body | look _ body =>
    obtain rfl := List.mem_singleton.1 mem
    exact List.Subset.refl _

/-! ## One node -/

/-- What is promised about a node, in a pattern with so many groups. -/
def Fits (groups : Nat) : Node → Prop
  | char _ | any | sequence _ | atStart | atEnd => True
  | oneOf cls => cls.items ≠ [] ∧ ∀ lo hi, .range lo hi ∈ cls.items → lo ≤ hi
  | choice branches => 2 ≤ branches.length ∧ ∀ branch ∈ branches, branch.isSequence = true
  | repeated body q =>
    (body.isAtom = true ∧ body.repeatable = true) ∧ q.min ≤ 1000 ∧
      ∀ max, q.max = some max → q.min ≤ max ∧ max ≤ 1000
  | group body | capture _ body | look _ body => body.isBody = true
  | backreference index => 1 ≤ index ∧ index ≤ groups

theorem fits_of_normal {groups : Nat} (h : node.normal = true)
    (known : ∀ i ∈ node.references, 1 ≤ i ∧ i ≤ groups) : node.Fits groups := by
  cases node with
  | char | any | sequence | atStart | atEnd => trivial
  | oneOf cls =>
    simp only [normal, CharClass.normal, Bool.and_eq_true, Bool.not_eq_true',
      List.isEmpty_eq_false_iff, List.all_eq_true] at h
    refine ⟨h.1, ?_⟩
    intro lo hi mem
    simpa [ClassItem.normal] using h.2 _ mem
  | choice branches =>
    simp only [normal, Bool.and_eq_true, decide_eq_true_iff, List.all_eq_true] at h
    exact h.1
  | repeated body q =>
    simp only [normal, Quantifier.normal, Quantifier.maxBound, Bool.and_eq_true] at h
    obtain ⟨⟨shape, least, most⟩, -⟩ := h
    refine ⟨shape, of_decide_eq_true least, ?_⟩
    intro max bounded
    rw [bounded, Option.all_some, Bool.and_eq_true] at most
    exact ⟨of_decide_eq_true most.1, of_decide_eq_true most.2⟩
  | group body | capture _ body | look _ body =>
    rw [normal, Bool.and_eq_true] at h
    exact h.1
  | backreference index => exact known index (List.mem_singleton_self index)

end Node

/-! ## Whole patterns -/

/-- Says that a pattern has few groups, numbered in the order in which they open, that its root is
a branch or a choice, and that every node keeps its promise. -/
structure Pattern.WellFormed (pattern : Pattern) : Prop where
  few : pattern.groups ≤ 9
  numbered : pattern.root.nodes.filterMap Node.captured? = List.range' 1 pattern.groups
  body : pattern.root.isBody = true
  fits : ∀ node ∈ pattern.root.nodes, node.Fits pattern.groups

theorem Pattern.wellFormed_of_parse {text : String} {pattern : Pattern}
    (parsed : Pattern.parse text = .ok pattern) : pattern.WellFormed := by
  have normal := normal_of_parse parsed
  have everywhere := Node.forall_mem_nodes
    (P := fun node => node.normal = true ∧
      ∀ i ∈ node.references, 1 ≤ i ∧ i ≤ pattern.groups)
    (by
      rintro node ⟨normal, known⟩ child mem
      exact ⟨Node.normal_of_mem_children normal mem, fun i named =>
        known i (Node.references_subset_of_mem_children mem named)⟩)
    pattern.root ⟨normal.root, normal.known⟩
  refine ⟨normal.few, ?_, normal.body, ?_⟩
  · rw [Node.filterMap_nodes]
    exact normal.numbered
  · intro node mem
    obtain ⟨shaped, known⟩ := everywhere node mem
    exact Node.fits_of_normal shaped known

/-- A group within a test, one that is referred to before it opens, and the highest bounds. -/
theorem Pattern.wellFormed_of_parse_of_test :
    ∃ pattern, Pattern.parse "(?!(a|)\\3)(?:(b)|[^a-c\\d]{7,1000}?)*(c)" = .ok pattern ∧
      pattern.groups = 3 ∧ pattern.WellFormed := by
  have groups : (Pattern.parse "(?!(a|)\\3)(?:(b)|[^a-c\\d]{7,1000}?)*(c)").toOption.map
      Pattern.groups = some 3 := by
    decide +kernel
  cases parsed : Pattern.parse "(?!(a|)\\3)(?:(b)|[^a-c\\d]{7,1000}?)*(c)" with
  | error e =>
    rw [parsed] at groups
    cases groups
  | ok pattern =>
    rw [parsed] at groups
    exact ⟨pattern, rfl, Option.some.inj groups, wellFormed_of_parse parsed⟩

end RegexEngine
