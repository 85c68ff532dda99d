import RegexEngine.Proofs.Patterns.Groups
import RegexEngine.Proofs.Patterns.Proper
import RegexEngine.Proofs.Readings.Rounds

/-!
# Preference

Quantifiers that prefer few rounds and the order of branches say which of several ways to read a
text comes first, and nothing else: two nodes that differ in these alone (`Node.Rearranged`) have
the same outcomes in another order (`Node.Rearranged.sameOutcomes`).

A positive test is the exception, since it keeps what its first outcome has noted and drops the
others. So where there are such tests, only how far a reading has come is compared and not what its
groups hold, and no backreference may ask for the latter. `Reading.Alike` covers both cases: groups
are compared if they matter.
-/

namespace RegexEngine

/-! ## Nodes that differ in preference -/

namespace Node

mutual

/-- Says that two nodes differ only in the order of branches and in whether many rounds or few are
tried first. -/
inductive Rearranged : Node → Node → Prop where
  | char (c : Char) : Rearranged (char c) (char c)
  | any : Rearranged any any
  | oneOf (cls : CharClass) : Rearranged (oneOf cls) (oneOf cls)
  | backreference (i : Nat) : Rearranged (backreference i) (backreference i)
  | atStart : Rearranged atStart atStart
  | atEnd : Rearranged atEnd atEnd
  | sequence {parts parts' : List Node} (each : RearrangedAll parts parts') :
    Rearranged (sequence parts) (sequence parts')
  | choice {branches others branches' : List Node} (each : RearrangedAll branches others)
    (order : others.Perm branches') : Rearranged (choice branches) (choice branches')
  | repeated {body body' : Node} {q q' : Quantifier} (inner : Rearranged body body')
    (min : q'.min = q.min) (max : q'.max = q.max) : Rearranged (repeated body q) (repeated body' q')
  | group {body body' : Node} (inner : Rearranged body body') :
    Rearranged (group body) (group body')
  | capture {body body' : Node} (i : Nat) (inner : Rearranged body body') :
    Rearranged (capture i body) (capture i body')
  | look {body body' : Node} (positive : Bool) (inner : Rearranged body body') :
    Rearranged (look positive body) (look positive body')

inductive RearrangedAll : List Node → List Node → Prop where
  | nil : RearrangedAll [] []
  | cons {node node' : Node} {nodes nodes' : List Node} (first : Rearranged node node')
    (others : RearrangedAll nodes nodes') : RearrangedAll (node :: nodes) (node' :: nodes')

end

mutual

theorem Rearranged.proper {node node' : Node} (h : Rearranged node node') (proper : node.Proper) :
    node'.Proper := by
  match h with
  | .char _ | .any | .oneOf _ | .backreference _ | .atStart | .atEnd => trivial
  | .sequence each => exact each.proper proper
  | .choice each order =>
    obtain ⟨some_branch, branches⟩ := proper
    have others := allProper_iff.1 (each.proper branches)
    refine ⟨?_, allProper_iff.2 fun node mem => others node (order.mem_iff.2 mem)⟩
    rintro rfl
    cases order.eq_nil
    cases each
    exact some_branch rfl
  | .repeated inner min max =>
    refine ⟨?_, inner.proper proper.2⟩
    intro bound eq
    rw [min]
    exact proper.1 bound (max ▸ eq)
  | .group inner | .capture _ inner | .look _ inner => exact inner.proper proper

theorem RearrangedAll.proper {nodes nodes' : List Node} (h : RearrangedAll nodes nodes')
    (proper : AllProper nodes) : AllProper nodes' := by
  match h with
  | .nil => trivial
  | .cons first others => exact ⟨first.proper proper.1, others.proper proper.2⟩

end

mutual

/-- Whether a node holds a positive test. -/
def testsAhead : Node → Bool
  | sequence parts => anyTestsAhead parts
  | choice branches => anyTestsAhead branches
  | repeated body _ | group body | capture _ body => testsAhead body
  | look positive body => positive || testsAhead body
  | char _ | any | oneOf _ | backreference _ | atStart | atEnd => false

def anyTestsAhead : List Node → Bool
  | [] => false
  | node :: nodes => testsAhead node || anyTestsAhead nodes

end

/-- What groups hold may matter only where no positive test chooses it. -/
theorem noTests_of_mem_references {node : Node}
    (apart : node.references = [] ∨ node.testsAhead = false) :
    ∀ i ∈ node.references, node.testsAhead = false := by
  intro i mem
  rcases apart with none_refers | none_tests
  · rw [none_refers] at mem
    cases mem
  · exact none_tests

end Node

/-! ## Outcomes -/

namespace Reading

/-- Says that two readings have come equally far and, if that matters, that their groups hold the
same. -/
structure Alike (matter : Prop) (r s : Reading) : Prop where
  here : s.here = r.here
  captures : matter → s.captures = r.captures

/-- Says that each outcome of `read` is one of `next` too, from like readings on. -/
def Includes (matter : Prop) (read next : Reading → List Reading) : Prop :=
  ∀ r r', Alike matter r r' → ∀ s ∈ read r, ∃ s' ∈ next r', Alike matter s s'

/-- Says that two ways to read have the same outcomes, in whatever order. -/
structure SameOutcomes (matter : Prop) (read next : Reading → List Reading) : Prop where
  kept : Includes matter read next
  gained : Includes matter next read

variable {matter : Prop} {read read' next next' : Reading → List Reading} {r r' s : Reading}

theorem Alike.refl (r : Reading) : Alike matter r r := ⟨rfl, fun _ => rfl⟩

theorem Alike.symm (h : Alike matter r s) : Alike matter s r :=
  ⟨h.here.symm, fun matters => (h.captures matters).symm⟩

theorem Alike.eq (h : Alike matter r s) (matters : matter) : s = r := by
  have captures := h.captures matters
  obtain ⟨here, captures⟩ := s
  cases h.here
  cases captures
  rfl

theorem Alike.movedFrom {s s' : Reading} (h : Alike matter r r') (h' : Alike matter s s') :
    r'.movedFrom s' = r.movedFrom s := by
  unfold Reading.movedFrom
  rw [h.here, h'.here]

/-! ### One direction -/

theorem includes_stay : Includes matter (fun r => [r]) fun r => [r] := by
  intro r r' alike s mem
  cases List.mem_singleton.1 mem
  exact ⟨r', List.mem_singleton_self _, alike⟩

theorem includes_nothing : Includes matter (fun _ => []) fun _ => [] := nofun

theorem includes_require {condition condition' : Reading → Bool}
    (same : ∀ r r', Alike matter r r' → condition r = true → condition' r' = true) :
    Includes matter (fun r => require (condition r) r) fun r => require (condition' r) r := by
  intro r r' alike s mem
  dsimp only [require] at mem ⊢
  split at mem
  · rename_i holds
    cases List.mem_singleton.1 mem
    rw [if_pos (same r r' alike holds)]
    exact ⟨r', List.mem_singleton_self _, alike⟩
  · cases mem

/-- What one reader accepts has to be accepted by the other one. -/
theorem includes_readChar {accepts accepts' : Char → Bool}
    (wider : ∀ c, accepts c = true → accepts' c = true) :
    Includes matter (readChar accepts) (readChar accepts') := by
  intro r r' alike s mem
  unfold readChar at mem ⊢
  rw [alike.here]
  split at mem
  · cases mem
  · split at mem
    · cases List.mem_singleton.1 mem
      rename_i accepted
      rw [if_pos (wider _ accepted)]
      exact ⟨_, List.mem_singleton_self _, rfl, alike.captures⟩
    · cases mem

/-- A copy that is read with regard to case can be read without it. -/
theorem readCopy_subset {ignoreCase ignoreCase' : Bool}
    (looser : ignoreCase = true → ignoreCase' = true) (text : List Char) (r : Reading) :
    readCopy ignoreCase text r ⊆ readCopy ignoreCase' text r := by
  have compares (ahead : List Char) (same : compared ignoreCase ahead = compared ignoreCase text) :
      compared ignoreCase' ahead = compared ignoreCase' text := by
    cases ignoreCase with
    | true => rwa [looser rfl]
    | false => exact congrArg (compared ignoreCase') same
  intro s mem
  unfold readCopy at mem ⊢
  dsimp only at mem ⊢
  split at mem
  · rename_i same
    rwa [if_pos (compares _ same)]
  · cases mem

/-- A backreference reads what its group holds, which is the same if that matters. -/
theorem includes_copy (matters : matter) {ignoreCase ignoreCase' : Bool}
    (looser : ignoreCase = true → ignoreCase' = true) (i : Nat) :
    Includes matter
      (fun r =>
        match r.captures.text? i with
        | some text => r.readCopy ignoreCase text
        | none => [])
      fun r =>
        match r.captures.text? i with
        | some text => r.readCopy ignoreCase' text
        | none => [] := by
  intro r r' alike s mem
  obtain rfl := alike.eq matters
  dsimp only at mem ⊢
  cases held : r'.captures.text? i with
  | none =>
    rw [held] at mem
    cases mem
  | some text =>
    rw [held] at mem
    exact ⟨s, readCopy_subset looser text r' mem, .refl s⟩

theorem Includes.flatMap (h : Includes matter read read') (h' : Includes matter next next') :
    Includes matter (fun r => (read r).flatMap next) fun r => (read' r).flatMap next' := by
  intro r r' alike s mem
  obtain ⟨t, ht, hs⟩ := List.mem_flatMap.1 mem
  obtain ⟨t', ht', alike'⟩ := h r r' alike t ht
  obtain ⟨s', hs', alike''⟩ := h' t t' alike' s hs
  exact ⟨s', List.mem_flatMap.2 ⟨t', ht', hs'⟩, alike''⟩

theorem Includes.append (h : Includes matter read read') (h' : Includes matter next next') :
    Includes matter (fun r => read r ++ next r) fun r => read' r ++ next' r := by
  intro r r' alike s mem
  rcases List.mem_append.1 mem with first | second
  · obtain ⟨s', mem', alike'⟩ := h r r' alike s first
    exact ⟨s', List.mem_append_left _ mem', alike'⟩
  · obtain ⟨s', mem', alike'⟩ := h' r r' alike s second
    exact ⟨s', List.mem_append_right _ mem', alike'⟩

theorem Includes.prefer (h : Includes matter read read') (greedy greedy' : Bool) :
    Includes matter (fun r => prefer greedy (read r) r) fun r => prefer greedy' (read' r) r := by
  intro r r' alike s mem
  rcases mem_prefer.1 mem with further | rfl
  · obtain ⟨s', mem', alike'⟩ := h r r' alike s further
    exact ⟨s', mem_prefer.2 (.inl mem'), alike'⟩
  · exact ⟨r', mem_prefer.2 (.inr rfl), alike⟩

theorem Includes.inTurn (h : Includes matter read read') (n : Nat) :
    Includes matter (inTurn read n) (inTurn read' n) := by
  induction n with
  | zero => exact includes_stay
  | succ n ih => exact h.flatMap ih

theorem Includes.upTo (h : Includes matter read read') (greedy greedy' : Bool) (n : Nat) :
    Includes matter (upTo read greedy n) (upTo read' greedy' n) := by
  induction n with
  | zero => exact includes_stay
  | succ n ih => exact (h.flatMap ih).prefer greedy greedy'

theorem Includes.loop (h : Includes matter read read') (greedy greedy' : Bool) :
    Includes matter (loop read greedy) (loop read' greedy') := by
  intro r r' alike s mem
  -- a round that goes on leaves less text
  induction len : r.here.rest.length using Nat.strongRecOn generalizing r r' with
  | _ n ih =>
    rw [loop_eq] at mem ⊢
    rcases mem_prefer.1 mem with further | rfl
    · obtain ⟨t, ht, hs⟩ := List.mem_flatMap.1 further
      obtain ⟨ht, moved⟩ := List.mem_filter.1 ht
      obtain ⟨t', ht', alike'⟩ := h r r' alike t ht
      obtain ⟨s', hs', alike''⟩ := ih _ (len ▸ of_decide_eq_true moved) t t' alike' hs rfl
      have moved' : r'.movedFrom t' = true := (alike.movedFrom alike').trans moved
      refine ⟨s', mem_prefer.2 (.inl ?_), alike''⟩
      exact List.mem_flatMap.2 ⟨t', List.mem_filter.2 ⟨ht', moved'⟩, hs'⟩
    · exact ⟨r', mem_prefer.2 (.inr rfl), alike⟩

theorem Includes.rounds (h : Includes matter read read') {q q' : Quantifier}
    (min : q'.min = q.min) (max : q'.max = q.max) :
    Includes matter (rounds read q) (rounds read' q') := by
  unfold Reading.rounds
  rw [min]
  apply (h.inTurn q.min).flatMap
  intro r r' alike s mem
  unfold Reading.beyond at mem ⊢
  rw [max, min]
  split at mem
  · exact h.upTo _ _ _ r r' alike s mem
  · exact h.loop _ _ r r' alike s mem

theorem Includes.capture (h : Includes matter read read') (i : Nat) :
    Includes matter
      (fun r => (read { r with captures := r.captures.enter i r.here }).map fun s =>
        { s with captures := s.captures.leave i s.here })
      fun r => (read' { r with captures := r.captures.enter i r.here }).map fun s =>
        { s with captures := s.captures.leave i s.here } := by
  intro r r' alike s mem
  obtain ⟨t, ht, rfl⟩ := List.mem_map.1 mem
  obtain ⟨t', ht', alike'⟩ := h { r with captures := r.captures.enter i r.here }
    { r' with captures := r'.captures.enter i r'.here }
    ⟨alike.here, fun matters => by rw [alike.captures matters, alike.here]⟩ t ht
  refine ⟨_, List.mem_map_of_mem ht', alike'.here, ?_⟩
  intro matters
  dsimp only
  rw [alike'.captures matters, alike'.here]

/-- A positive test keeps what one outcome has noted and not always the same one, so what it has
noted must not matter. -/
theorem Includes.ahead (h : Includes matter read read') (ignored : ¬ matter) :
    Includes matter
      (fun r => (read r).head?.toList.map fun s => { s with here := r.here })
      fun r => (read' r).head?.toList.map fun s => { s with here := r.here } := by
  intro r r' alike s mem
  obtain ⟨t, ht, rfl⟩ := List.mem_map.1 mem
  obtain ⟨t', ht', -⟩ := h r r' alike t (List.mem_of_mem_head? (Option.mem_toList.1 ht))
  obtain ⟨first, others, eq⟩ := List.exists_cons_of_ne_nil (List.ne_nil_of_mem ht')
  dsimp only
  rw [eq]
  exact ⟨_, List.mem_singleton_self _, alike.here, fun matters => absurd matters ignored⟩

theorem Includes.isEmpty (h : Includes matter read read') (alike : Alike matter r r')
    (empty : (read' r').isEmpty = true) : (read r).isEmpty = true := by
  rw [List.isEmpty_iff] at empty ⊢
  rw [List.eq_nil_iff_forall_not_mem]
  intro s mem
  obtain ⟨s', mem', -⟩ := h r r' alike s mem
  rw [empty] at mem'
  cases mem'

/-! ### Both directions -/

theorem Includes.sameOutcomes (h : Includes matter read read) : SameOutcomes matter read read :=
  ⟨h, h⟩

namespace SameOutcomes

theorem flatMap (h : SameOutcomes matter read read') (h' : SameOutcomes matter next next') :
    SameOutcomes matter (fun r => (read r).flatMap next) fun r => (read' r).flatMap next' :=
  ⟨h.kept.flatMap h'.kept, h.gained.flatMap h'.gained⟩

theorem append (h : SameOutcomes matter read read') (h' : SameOutcomes matter next next') :
    SameOutcomes matter (fun r => read r ++ next r) fun r => read' r ++ next' r :=
  ⟨h.kept.append h'.kept, h.gained.append h'.gained⟩

theorem rounds (h : SameOutcomes matter read read') {q q' : Quantifier} (min : q'.min = q.min)
    (max : q'.max = q.max) : SameOutcomes matter (rounds read q) (rounds read' q') :=
  ⟨h.kept.rounds min max, h.gained.rounds min.symm max.symm⟩

theorem capture (h : SameOutcomes matter read read') (i : Nat) :
    SameOutcomes matter
      (fun r => (read { r with captures := r.captures.enter i r.here }).map fun s =>
        { s with captures := s.captures.leave i s.here })
      fun r => (read' { r with captures := r.captures.enter i r.here }).map fun s =>
        { s with captures := s.captures.leave i s.here } :=
  ⟨h.kept.capture i, h.gained.capture i⟩

theorem ahead (h : SameOutcomes matter read read') (ignored : ¬ matter) :
    SameOutcomes matter
      (fun r => (read r).head?.toList.map fun s => { s with here := r.here })
      fun r => (read' r).head?.toList.map fun s => { s with here := r.here } :=
  ⟨h.kept.ahead ignored, h.gained.ahead ignored⟩

/-- A negative test asks whether there are outcomes, so each direction needs the other one. -/
theorem notAhead (h : SameOutcomes matter read read') :
    SameOutcomes matter (fun r => r.require (read r).isEmpty) fun r =>
      r.require (read' r).isEmpty :=
  ⟨includes_require fun _ _ alike => h.gained.isEmpty alike.symm,
    includes_require fun _ _ alike => h.kept.isEmpty alike.symm⟩

end SameOutcomes

end Reading

/-! ## Nodes -/

namespace Node

open Reading

variable {matter : Prop} {ignoreCase : Bool}

theorem mem_resultsOfEach {nodes : List Node} {r s : Reading} :
    s ∈ resultsOfEach ignoreCase nodes r ↔ ∃ node ∈ nodes, s ∈ node.results ignoreCase r := by
  induction nodes with
  | nil => simp [resultsOfEach]
  | cons node nodes ih => simp [resultsOfEach, ih]

theorem sameOutcomes_of_perm {nodes nodes' : List Node} {read : Reading → List Reading}
    (h : SameOutcomes matter read (resultsOfEach ignoreCase nodes)) (order : nodes.Perm nodes') :
    SameOutcomes matter read (resultsOfEach ignoreCase nodes') := by
  have same (r s : Reading) :
      s ∈ resultsOfEach ignoreCase nodes' r ↔ s ∈ resultsOfEach ignoreCase nodes r := by
    simp only [mem_resultsOfEach, order.mem_iff]
  constructor
  · intro r r' alike s mem
    obtain ⟨s', mem', alike'⟩ := h.kept r r' alike s mem
    exact ⟨s', (same r' s').2 mem', alike'⟩
  · intro r r' alike s mem
    exact h.gained r r' alike s ((same r s).1 mem)

mutual

/-- Rearranging a node changes none of its outcomes. If it refers to groups, what groups hold has to
matter, and then it must hold no positive test. -/
theorem Rearranged.sameOutcomes {node node' : Node} (h : Rearranged node node')
    (references : ∀ i ∈ node.references, matter) (ahead : node.testsAhead = true → ¬ matter) :
    SameOutcomes matter (fun r => node.results ignoreCase r) fun r =>
      node'.results ignoreCase r := by
  match h with
  | .char _ | .any | .oneOf _ =>
    simp only [results]
    exact (includes_readChar fun _ accepted => accepted).sameOutcomes
  | .atStart =>
    simp only [results]
    exact (includes_require fun r r' alike begins => by rwa [alike.here]).sameOutcomes
  | .atEnd =>
    simp only [results]
    exact (includes_require fun r r' alike ends => by rwa [alike.here]).sameOutcomes
  | .backreference i =>
    simp only [results]
    exact (includes_copy (references i (List.mem_singleton_self i)) id i).sameOutcomes
  | .sequence each =>
    simp only [results]
    exact (each.sameOutcomes references ahead).1
  | .choice each order =>
    simp only [results]
    exact sameOutcomes_of_perm (each.sameOutcomes references ahead).2 order
  | .repeated inner min max =>
    simp only [results]
    exact (inner.sameOutcomes references ahead).rounds min max
  | .group inner =>
    simp only [results]
    exact inner.sameOutcomes references ahead
  | .capture i inner =>
    simp only [results]
    exact (inner.sameOutcomes references ahead).capture i
  | .look true inner =>
    simp only [results]
    exact (inner.sameOutcomes references fun _ => ahead rfl).ahead (ahead rfl)
  | .look false inner =>
    simp only [results]
    exact (inner.sameOutcomes references ahead).notAhead

theorem RearrangedAll.sameOutcomes {nodes nodes' : List Node} (h : RearrangedAll nodes nodes')
    (references : ∀ i ∈ referencesOfAll nodes, matter)
    (ahead : anyTestsAhead nodes = true → ¬ matter) :
    SameOutcomes matter (fun r => resultsInTurn ignoreCase nodes r)
        (fun r => resultsInTurn ignoreCase nodes' r) ∧
      SameOutcomes matter (fun r => resultsOfEach ignoreCase nodes r) fun r =>
        resultsOfEach ignoreCase nodes' r := by
  match h with
  | .nil =>
    simp only [resultsInTurn, resultsOfEach]
    exact ⟨includes_stay.sameOutcomes, includes_nothing.sameOutcomes⟩
  | .cons first others =>
    rw [referencesOfAll, List.forall_mem_append] at references
    rw [anyTestsAhead, Bool.or_eq_true, or_imp] at ahead
    have here := first.sameOutcomes references.1 ahead.1
    obtain ⟨inTurn, ofEach⟩ := others.sameOutcomes references.2 ahead.2
    simp only [resultsInTurn, resultsOfEach]
    exact ⟨here.flatMap inTurn, here.append ofEach⟩

end

end Node

end RegexEngine
