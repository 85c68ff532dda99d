import Mathlib
import RegexEngine.Proofs.Code.Attempts
import RegexEngine.Proofs.Patterns.Groups

/-!
# Patterns without their groups

`Node.uncaptured` makes every capturing group of a tree one that only holds its parts together. What
groups hold is asked for by backreferences alone. In a tree without these, a reading that notes
groups and one that does not go through the same positions in the same order
(`Node.samePlaces_results`), so the two patterns match the same stretches (`Pattern.whole_eq`).
-/

namespace RegexEngine

namespace Node

mutual

/-- The node with all its capturing groups made groups that capture nothing. -/
def uncaptured : Node → Node
  | sequence parts => sequence (uncapturedOfAll parts)
  | choice branches => choice (uncapturedOfAll branches)
  | repeated body q => repeated (uncaptured body) q
  | group body | capture _ body => group (uncaptured body)
  | look positive body => look positive (uncaptured body)
  | node => node

def uncapturedOfAll : List Node → List Node
  | [] => []
  | node :: nodes => uncaptured node :: uncapturedOfAll nodes

end

theorem uncapturedOfAll_ne_nil {nodes : List Node} (nonempty : nodes ≠ []) :
    uncapturedOfAll nodes ≠ [] := by
  cases nodes with
  | nil => exact absurd rfl nonempty
  | cons node nodes => exact List.cons_ne_nil _ _

mutual

theorem proper_uncaptured (node : Node) (proper : node.Proper) : node.uncaptured.Proper := by
  match node with
  | char _ | any | oneOf _ | backreference _ | atStart | atEnd => trivial
  | sequence parts => exact allProper_uncaptured parts proper
  | choice branches =>
    exact ⟨uncapturedOfAll_ne_nil proper.1, allProper_uncaptured branches proper.2⟩
  | repeated body q => exact ⟨proper.1, proper_uncaptured body proper.2⟩
  | group body | capture _ body | look _ body => exact proper_uncaptured body proper

theorem allProper_uncaptured (nodes : List Node) (proper : AllProper nodes) :
    AllProper (uncapturedOfAll nodes) := by
  match nodes with
  | [] => trivial
  | node :: nodes =>
    exact ⟨proper_uncaptured node proper.1, allProper_uncaptured nodes proper.2⟩

end

mutual

theorem nullable_uncaptured (node : Node) : node.uncaptured.nullable = node.nullable := by
  match node with
  | char _ | any | oneOf _ | backreference _ | atStart | atEnd | look _ _ => rfl
  | sequence parts => exact (nullables_uncaptured parts).1
  | choice branches => exact (nullables_uncaptured branches).2
  | repeated body q => exact congrArg (q.min == 0 || ·) (nullable_uncaptured body)
  | group body | capture _ body => exact nullable_uncaptured body

theorem nullables_uncaptured (nodes : List Node) :
    allNullable (uncapturedOfAll nodes) = allNullable nodes ∧
      anyNullable (uncapturedOfAll nodes) = anyNullable nodes := by
  match nodes with
  | [] => exact ⟨rfl, rfl⟩
  | node :: nodes =>
    obtain ⟨all, any⟩ := nullables_uncaptured nodes
    rw [uncapturedOfAll, allNullable, allNullable, anyNullable, anyNullable,
      nullable_uncaptured node, all, any]
    exact ⟨rfl, rfl⟩

end

mutual

/-- A node without code is left without code. The other way round this does not hold: the group may
have been all that was written. -/
theorem emitsNothing_uncaptured (node : Node) (nothing : node.emitsNothing = true) :
    node.uncaptured.emitsNothing = true := by
  match node with
  | char _ | any | oneOf _ | backreference _ | atStart | atEnd | choice _ | capture _ _
  | look _ _ => cases nothing
  | sequence parts => exact allEmitNothing_uncaptured parts nothing
  | group body => exact emitsNothing_uncaptured body nothing
  | repeated body q =>
    rw [emitsNothing, Bool.or_eq_true] at nothing
    rw [uncaptured, emitsNothing, Bool.or_eq_true]
    exact nothing.imp_right (emitsNothing_uncaptured body)

theorem allEmitNothing_uncaptured (nodes : List Node) (nothing : allEmitNothing nodes = true) :
    allEmitNothing (uncapturedOfAll nodes) = true := by
  match nodes with
  | [] => rfl
  | node :: nodes =>
    rw [allEmitNothing, Bool.and_eq_true] at nothing
    rw [uncapturedOfAll, allEmitNothing, Bool.and_eq_true]
    exact ⟨emitsNothing_uncaptured node nothing.1, allEmitNothing_uncaptured nodes nothing.2⟩

end

end Node

/-! ## The same positions in the same order -/

namespace Reading

/-- Says that two readings have come to the same position, whatever groups hold. -/
def Level (r r' : Reading) : Prop := r.here = r'.here

/-- Says that two ways to read on from one position come to the same positions in the same order. -/
def SamePlaces (read read' : Reading → List Reading) : Prop :=
  ∀ r r', Level r r' → List.Forall₂ Level (read r) (read' r')

theorem samePlaces_stay : SamePlaces (fun r => [r]) fun r => [r] :=
  fun _ _ level => .cons level .nil

theorem samePlaces_nothing : SamePlaces (fun _ => []) fun _ => [] :=
  fun _ _ _ => .nil

theorem samePlaces_readChar (accepts : Char → Bool) :
    SamePlaces (fun r => r.readChar accepts) fun r => r.readChar accepts := by
  rintro ⟨here, captures⟩ ⟨_, captures'⟩ rfl
  simp only [readChar]
  split
  · exact .nil
  · split
    · exact .cons rfl .nil
    · exact .nil

theorem samePlaces_require {holds holds' : Reading → Bool}
    (same : ∀ r r', Level r r' → holds r = holds' r') :
    SamePlaces (fun r => r.require (holds r)) fun r => r.require (holds' r) := by
  intro r r' level
  simp only [require]
  rw [same r r' level]
  split
  · exact .cons level .nil
  · exact .nil

theorem forall₂_prefer {greedy : Bool} {further further' : List Reading} {r r' : Reading}
    (h : List.Forall₂ Level further further') (level : Level r r') :
    List.Forall₂ Level (prefer greedy further r) (prefer greedy further' r') := by
  cases greedy with
  | true => exact List.rel_append h (.cons level .nil)
  | false => exact .cons level h

namespace SamePlaces

variable {read read' next next' round round' : Reading → List Reading}

theorem flatMap (h : SamePlaces read read') (h' : SamePlaces next next') :
    SamePlaces (fun r => (read r).flatMap next) fun r => (read' r).flatMap next' :=
  fun r r' level => List.rel_flatMap (h r r' level) fun s s' => h' s s'

theorem append (h : SamePlaces read read') (h' : SamePlaces next next') :
    SamePlaces (fun r => read r ++ next r) fun r => read' r ++ next' r :=
  fun r r' level => List.rel_append (h r r' level) (h' r r' level)

/-! ### Rounds -/

theorem inTurn (h : SamePlaces round round') (n : Nat) :
    SamePlaces (Reading.inTurn round n) (Reading.inTurn round' n) := by
  induction n with
  | zero => exact samePlaces_stay
  | succ n ih => exact h.flatMap ih

theorem upTo (h : SamePlaces round round') (greedy : Bool) (n : Nat) :
    SamePlaces (Reading.upTo round greedy n) (Reading.upTo round' greedy n) := by
  induction n with
  | zero => exact samePlaces_stay
  | succ n ih => exact fun r r' level => forall₂_prefer (h.flatMap ih r r' level) level

/-- By the length of the text that is left: a round that leads on has read something. -/
theorem loop (h : SamePlaces round round') (greedy : Bool) :
    SamePlaces (Reading.loop round greedy) (Reading.loop round' greedy) := by
  intro r r' level
  induction left : r.here.rest.length using Nat.strongRecOn generalizing r r' with
  | _ n ih =>
    rw [loop_eq, loop_eq]
    apply forall₂_prefer _ level
    have moved_iff (s s' : Reading) (level' : Level s s') :
        r.movedFrom s = true ↔ r'.movedFrom s' = true := by
      rw [movedFrom, movedFrom, show r.here = r'.here from level, show s.here = s'.here from level']
    have rounds : List.Forall₂ (fun s s' => r.movedFrom s = true ∧ Level s s')
        ((round r).filter r.movedFrom) ((round' r').filter r'.movedFrom) :=
      (List.forall₂_and_left _ _).2 ⟨fun s mem => (List.mem_filter.1 mem).2,
        List.rel_filter (fun s s' => moved_iff s s') (h r r' level)⟩
    refine List.rel_flatMap rounds ?_
    rintro s s' ⟨moved, level'⟩
    exact ih _ (left ▸ of_decide_eq_true moved) s s' level' rfl

theorem rounds (h : SamePlaces round round') (q : Quantifier) :
    SamePlaces (fun r => r.rounds round q) fun r => r.rounds round' q := by
  refine (h.inTurn q.min).flatMap ?_
  intro r r' level
  unfold beyond
  cases q.max with
  | some max => exact h.upTo q.greedy (max - q.min) r r' level
  | none => exact h.loop q.greedy r r' level

/-! ### Groups and tests -/

/-- What a group notes in front of its body and behind it takes no part. -/
theorem capture (h : SamePlaces read read') (i : Nat) :
    SamePlaces
      (fun r => (read { r with captures := r.captures.enter i r.here }).map fun s =>
        { s with captures := s.captures.leave i s.here }) read' := by
  intro r r' level
  have inner := h { r with captures := r.captures.enter i r.here } r' level
  exact List.forall₂_map_left_iff.2 inner

theorem ahead (h : SamePlaces read read') :
    SamePlaces (fun r => (read r).head?.toList.map fun s => { s with here := r.here })
      fun r => (read' r).head?.toList.map fun s => { s with here := r.here } := by
  intro r r' level
  have inner := h r r' level
  dsimp only
  generalize read r = outcomes at inner ⊢
  generalize read' r' = outcomes' at inner ⊢
  cases inner with
  | nil => exact .nil
  | cons _ _ => exact .cons level .nil

theorem isEmpty_eq (h : SamePlaces read read') {r r' : Reading} (level : Level r r') :
    (read r).isEmpty = (read' r').isEmpty := by
  have inner := h r r' level
  generalize read r = outcomes at inner ⊢
  generalize read' r' = outcomes' at inner ⊢
  cases inner <;> rfl

end SamePlaces

end Reading

namespace Node

open Reading

mutual

theorem samePlaces_results (ignoreCase : Bool) (node : Node) (free : node.references = []) :
    SamePlaces (node.results ignoreCase) (node.uncaptured.results ignoreCase) := by
  match node with
  | char _ | any | oneOf _ => exact samePlaces_readChar _
  | atStart => exact samePlaces_require fun r r' level => congrArg (·.offset == 0) level
  | atEnd => exact samePlaces_require fun r r' level => congrArg (·.rest.isEmpty) level
  | backreference i => cases free
  | sequence parts => exact (samePlaces_resultsOfAll ignoreCase parts free).1
  | choice branches => exact (samePlaces_resultsOfAll ignoreCase branches free).2
  | repeated body q => exact (samePlaces_results ignoreCase body free).rounds q
  | group body => exact samePlaces_results ignoreCase body free
  | capture i body => exact (samePlaces_results ignoreCase body free).capture i
  | look true body => exact (samePlaces_results ignoreCase body free).ahead
  | look false body =>
    have inner := samePlaces_results ignoreCase body free
    exact samePlaces_require fun r r' level => inner.isEmpty_eq level

theorem samePlaces_resultsOfAll (ignoreCase : Bool) (nodes : List Node)
    (free : referencesOfAll nodes = []) :
    SamePlaces (resultsInTurn ignoreCase nodes) (resultsInTurn ignoreCase (uncapturedOfAll nodes)) ∧
      SamePlaces (resultsOfEach ignoreCase nodes)
        (resultsOfEach ignoreCase (uncapturedOfAll nodes)) := by
  match nodes with
  | [] => exact ⟨samePlaces_stay, samePlaces_nothing⟩
  | node :: nodes =>
    rw [referencesOfAll, List.append_eq_nil_iff] at free
    have here := samePlaces_results ignoreCase node free.1
    obtain ⟨inTurn, ofEach⟩ := samePlaces_resultsOfAll ignoreCase nodes free.2
    exact ⟨here.flatMap inTurn, here.append ofEach⟩

end

end Node

/-! ## Whole patterns -/

namespace Pattern

/-- The pattern with all its capturing groups made groups that capture nothing. -/
def uncaptured (pattern : Pattern) : Pattern := ⟨pattern.root.uncaptured, 0⟩

variable {pattern : Pattern} {ignoreCase : Bool}

theorem map_whole_firstMatch? (free : pattern.root.references = []) (start : Cursor) :
    (pattern.firstMatch? ignoreCase start).map (·.whole) =
      (pattern.uncaptured.firstMatch? ignoreCase start).map (·.whole) := by
  have same := pattern.root.samePlaces_results ignoreCase free (.initial start) (.initial start) rfl
  unfold firstMatch? uncaptured
  generalize pattern.root.results ignoreCase (.initial start) = readings at same ⊢
  generalize pattern.root.uncaptured.results ignoreCase (.initial start) = readings' at same ⊢
  cases same with
  | nil => rfl
  | cons level _ => exact congrArg (fun stop => some (⟨start, stop⟩ : Span)) level

/-- Attempts that have an answer agree on the stretch that is matched. -/
theorem whole_eq {program plain : Program} (proper : pattern.root.Proper)
    (free : pattern.root.references = []) (compiled : pattern.compile ignoreCase = .ok program)
    (erased : pattern.uncaptured.compile ignoreCase = .ok plain) {limits limits' : Limits}
    {start : Cursor} {answer answer' : Option Match}
    (answered : program.matchAt limits start = .ok answer)
    (answered' : plain.matchAt limits' start = .ok answer') :
    answer.map (·.whole) = answer'.map (·.whole) := by
  have proper' : pattern.uncaptured.root.Proper := pattern.root.proper_uncaptured proper
  rw [answer_eq_firstMatch?_of_proper proper compiled answered,
    answer_eq_firstMatch?_of_proper proper' erased answered']
  exact map_whole_firstMatch? free start

end Pattern

end RegexEngine
