import RegexEngine.Pattern.Reader

/-!
# Trees that can be read from a text

A tree can say things that no text says: a choice between no branches, or a repetition whose upper
bound lies below its lower one. `Node.Proper` excludes them, and every pattern that is read is
proper (`Pattern.proper_of_parse`), since each step of the reader keeps the parts of its drafts
proper.
-/

namespace RegexEngine

/-- Says that an upper bound does not lie below the lower one. -/
def Quantifier.Ordered (q : Quantifier) : Prop := ∀ max, q.max = some max → q.min ≤ max

namespace Node

mutual

/-- Says that choices offer a branch and bounds are in order. -/
def Proper : Node → Prop
  | sequence parts => AllProper parts
  | choice branches => branches ≠ [] ∧ AllProper branches
  | repeated body q => q.Ordered ∧ Proper body
  | group body | capture _ body | look _ body => Proper body
  | _ => True

def AllProper : List Node → Prop
  | [] => True
  | node :: nodes => Proper node ∧ AllProper nodes

end

theorem allProper_iff {nodes : List Node} : AllProper nodes ↔ ∀ node ∈ nodes, node.Proper := by
  induction nodes with
  | nil => exact ⟨nofun, fun _ => trivial⟩
  | cons node nodes ih => rw [AllProper, ih, List.forall_mem_cons]

end Node

/-! ## Drafts -/

structure Draft.Proper (draft : Draft) : Prop where
  branches : ∀ node ∈ draft.branches, node.Proper
  parts : ∀ node ∈ draft.parts, node.Proper

namespace Draft.Proper

variable {draft : Draft}

theorem empty : Draft.empty.Proper := ⟨nofun, nofun⟩

theorem push (h : draft.Proper) {part : Node} (hp : part.Proper) : (draft.push part).Proper :=
  ⟨h.branches, List.forall_mem_cons.2 ⟨hp, h.parts⟩⟩

theorem branch (h : draft.Proper) : draft.branch.Proper := by
  unfold Draft.branch
  rw [Node.Proper, Node.allProper_iff]
  intro node mem
  exact h.parts node (List.mem_reverse.1 mem)

theorem bar (h : draft.Proper) : draft.bar.Proper :=
  ⟨List.forall_mem_cons.2 ⟨h.branch, h.branches⟩, nofun⟩

theorem close (h : draft.Proper) : draft.close.Proper := by
  unfold Draft.close
  split
  · exact h.branch
  · rw [Node.Proper, Node.allProper_iff]
    refine ⟨?_, ?_⟩
    · rw [ne_eq, List.reverse_eq_nil_iff]
      exact List.cons_ne_nil _ _
    · intro node mem
      exact List.forall_mem_cons.2 ⟨h.branch, h.branches⟩ node (List.mem_reverse.1 mem)

end Draft.Proper

theorem GroupKind.proper_enclose (kind : GroupKind) {body : Node} (h : body.Proper) :
    (kind.enclose body).Proper := by
  cases kind <;> exact h

/-! ## Quantifiers -/

namespace Quantifier

theorem ordered_of_readBounds {start : Nat} {here after : Cursor} {min : Nat} {max : Option Nat}
    (h : readBounds start here = .ok ((min, max), after)) (greedy : Bool) :
    (⟨min, max, greedy⟩ : Quantifier).Ordered := by
  rcases bind_eq_ok_iff.1 h with ⟨⟨lower, mid⟩, -, h⟩
  intro bound eq
  dsimp only at h eq
  split at h
  · cases h
    cases eq
    exact Nat.le_refl _
  · cases h
    cases eq
  · rcases bind_eq_ok_iff.1 h with ⟨⟨upper, last⟩, -, h⟩
    dsimp only at h
    split at h
    · split at h
      · cases h
      · rename_i le
        cases h
        cases eq
        exact Nat.le_of_not_lt le
    · cases h
  · cases h

theorem ordered_of_readRounds {here after : Cursor} {min : Nat} {max : Option Nat}
    (h : readRounds here = .ok ((min, max), after)) (greedy : Bool) :
    (⟨min, max, greedy⟩ : Quantifier).Ordered := by
  unfold readRounds at h
  split at h
  · cases h
    exact nofun
  · cases h
    exact nofun
  · cases h
    exact fun _ _ => Nat.zero_le _
  · exact ordered_of_readBounds h greedy
  · cases h

theorem proper_of_readBehind {atom node : Node} {start : Nat} {here after : Cursor}
    (ha : atom.Proper) (h : readBehind atom start here = .ok (node, after)) : node.Proper := by
  unfold readBehind at h
  split at h
  · rcases bind_eq_ok_iff.1 h with ⟨⟨⟨min, max⟩, mid⟩, rounds, h⟩
    dsimp only at h
    repeat' split at h
    all_goals cases h
    exact ⟨ordered_of_readRounds rounds _, ha⟩
  · cases h
    exact ha

end Quantifier

/-! ## The reader -/

namespace Reader

/-- The invariant of reading: what has been read is proper at every level. -/
structure Proper (r : Reader) : Prop where
  draft : r.draft.Proper
  opened : ∀ group ∈ r.opened, group.outer.Proper

theorem proper_ofString (text : String) : (ofString text).Proper := ⟨.empty, nofun⟩

theorem proper_of_readAtom {c : Char} {start : Nat} {here after : Cursor} {node : Node}
    (h : readAtom c start here = .ok (node, after)) : node.Proper := by
  unfold readAtom at h
  split at h
  · rcases bind_eq_ok_iff.1 h with ⟨⟨cls, mid⟩, -, h⟩
    cases h
    trivial
  · split at h
    · rcases bind_eq_ok_iff.1 h with ⟨⟨escape, mid⟩, -, h⟩
      cases h
      cases escape <;> trivial
    · repeat' split at h
      all_goals cases h
      all_goals trivial

variable {r s : Reader} {after : Cursor}

theorem Proper.closeGroup (hr : r.Proper) (h : r.closeGroup after = .ok s) : s.Proper := by
  unfold Reader.closeGroup at h
  split at h
  · cases h
  · rename_i group opened eq
    rcases bind_eq_ok_iff.1 h with ⟨⟨part, mid⟩, h₁, h⟩
    cases h
    have outer := hr.opened
    rw [eq, List.forall_mem_cons] at outer
    have inner := group.kind.proper_enclose hr.draft.close
    exact ⟨outer.1.push (Quantifier.proper_of_readBehind inner h₁), outer.2⟩

theorem Proper.openGroup (hr : r.Proper) (h : r.openGroup after = .ok s) : s.Proper := by
  rcases bind_eq_ok_iff.1 h with ⟨⟨kind, count, mid⟩, -, h⟩
  cases h
  exact ⟨.empty, List.forall_mem_cons.2 ⟨hr.draft, hr.opened⟩⟩

theorem Proper.readPart (hr : r.Proper) {c : Char} (h : r.readPart c after = .ok s) :
    s.Proper := by
  rcases bind_eq_ok_iff.1 h with ⟨⟨atom, mid⟩, h₁, h⟩
  rcases bind_eq_ok_iff.1 h with ⟨⟨part, last⟩, h₂, h⟩
  cases h
  have part := Quantifier.proper_of_readBehind (proper_of_readAtom h₁) h₂
  exact ⟨hr.draft.push part, hr.opened⟩

theorem Proper.step (hr : r.Proper) {c : Char} (h : r.step c after = .ok s) : s.Proper := by
  unfold Reader.step at h
  split at h
  · exact hr.closeGroup h
  · split at h
    · cases h
      exact ⟨hr.draft.bar, hr.opened⟩
    · split at h
      · cases h
      · split at h
        · exact hr.openGroup h
        · exact hr.readPart h

theorem Proper.finish (hr : r.Proper) {pattern : Pattern} (h : r.finish = .ok pattern) :
    pattern.root.Proper := by
  unfold Reader.finish at h
  split at h
  · cases h
  · split at h
    · cases h
    · cases h
      exact hr.draft.close

theorem Proper.run (hr : r.Proper) {pattern : Pattern} (h : r.run = .ok pattern) :
    pattern.root.Proper := by
  fun_induction Reader.run r with
  | case1 r hn => exact hr.finish h
  | case2 r c after hn e hs => cases h
  | case3 r c after hn next hs ih => exact ih (hr.step hs) h

end Reader

theorem Pattern.proper_of_parse {text : String} {pattern : Pattern}
    (h : Pattern.parse text = .ok pattern) : pattern.root.Proper :=
  (Reader.proper_ofString text).run h

end RegexEngine
