import RegexEngine.Program.Size
import RegexEngine.Proofs.Patterns.Proper
import RegexEngine.Proofs.Readings.Results

/-!
# What results have in common

Three facts about `Node.results` that the compiled code relies on. Reading goes forward
(`Node.forward_results`). A node that is not nullable reads something (`Node.consuming_results`): so
the rounds of a loop over it need no guard. A node without code reads nothing and notes nothing,
though it may say so more than once (`Node.idle_results`): so it may be repeated or left out.
-/

namespace RegexEngine

theorem Cursor.Reaches.length_rest_lt_iff {a b : Cursor} (h : a.Reaches b) :
    b.rest.length < a.rest.length ↔ b.offset ≠ a.offset := by
  obtain ⟨between, rest, offset⟩ := h
  rw [rest, offset, List.length_append]
  have := length_le_byteLength between
  cases between with
  | nil => simp
  | cons c cs =>
    have := c.utf8Size_pos
    simp only [List.length_cons, byteLength_cons] at *
    omega

namespace Reading

/-- Says that results lie at or behind the position that reading began at. -/
def Forward (read : Reading → List Reading) : Prop := ∀ r, ∀ s ∈ read r, r.here.Reaches s.here

/-- Says that results have less text left. -/
def Consuming (read : Reading → List Reading) : Prop :=
  ∀ r, ∀ s ∈ read r, s.here.rest.length < r.here.rest.length

/-- Says that there is only one result, given once or more often: to have read nothing. -/
def Idle (read : Reading → List Reading) : Prop := ∀ r, ∃ n, read r = List.replicate (n + 1) r

theorem movedFrom_iff {r s : Reading} (h : r.here.Reaches s.here) :
    r.movedFrom s = true ↔ s.here.offset ≠ r.here.offset := by
  unfold movedFrom
  rw [decide_eq_true_iff]
  exact h.length_rest_lt_iff

theorem mem_prefer {greedy : Bool} {further : List Reading} {stop s : Reading} :
    s ∈ prefer greedy further stop ↔ s ∈ further ∨ s = stop := by
  unfold prefer
  split
  · rw [List.mem_append, List.mem_singleton]
  · rw [List.mem_cons, or_comm]

/-! ## Forward -/

theorem forward_stay : Forward fun r => [r] := by
  intro r s mem
  cases List.mem_singleton.1 mem
  exact .refl _

theorem forward_require (condition : Bool) : Forward (require condition) := by
  intro r s mem
  unfold require at mem
  split at mem
  · cases List.mem_singleton.1 mem
    exact .refl _
  · cases mem

theorem forward_readChar (accepts : Char → Bool) : Forward (readChar accepts) := by
  intro r s mem
  unfold readChar at mem
  split at mem
  · cases mem
  · rename_i rest eq
    split at mem
    · cases List.mem_singleton.1 mem
      exact Cursor.reaches_advance eq
    · cases mem

theorem forward_readCopy (ignoreCase : Bool) (text : List Char) :
    Forward (readCopy ignoreCase text) := by
  intro r s mem
  unfold readCopy at mem
  dsimp only at mem
  split at mem
  · cases List.mem_singleton.1 mem
    exact ⟨r.here.rest.take text.length, (List.take_append_drop _ _).symm, rfl⟩
  · cases mem

section

variable {read next : Reading → List Reading}

theorem Forward.flatMap (h : Forward read) (h' : Forward next) :
    Forward fun r => (read r).flatMap next := by
  intro r s mem
  obtain ⟨t, ht, hs⟩ := List.mem_flatMap.1 mem
  exact (h r t ht).trans (h' t s hs)

theorem Forward.inTurn (h : Forward read) (n : Nat) : Forward (inTurn read n) := by
  induction n with
  | zero => exact forward_stay
  | succ n ih => exact h.flatMap ih

theorem Forward.upTo (h : Forward read) (greedy : Bool) (n : Nat) :
    Forward (upTo read greedy n) := by
  induction n with
  | zero => exact forward_stay
  | succ n ih =>
    intro r s mem
    rcases mem_prefer.1 mem with further | rfl
    · exact h.flatMap ih r s further
    · exact .refl _

theorem Forward.loop (h : Forward read) (greedy : Bool) : Forward (loop read greedy) := by
  intro r s mem
  -- a round that goes on leaves less text
  induction len : r.here.rest.length using Nat.strongRecOn generalizing r with
  | _ n ih =>
    rw [loop_eq] at mem
    rcases mem_prefer.1 mem with further | rfl
    · obtain ⟨t, ht, hs⟩ := List.mem_flatMap.1 further
      obtain ⟨ht, moved⟩ := List.mem_filter.1 ht
      exact (h r t ht).trans (ih _ (len ▸ of_decide_eq_true moved) t hs rfl)
    · exact .refl _

theorem Forward.beyond (h : Forward read) (q : Quantifier) : Forward (beyond read q) := by
  intro r s mem
  unfold Reading.beyond at mem
  split at mem
  · exact h.upTo _ _ r s mem
  · exact h.loop _ r s mem

theorem Forward.rounds (h : Forward read) (q : Quantifier) : Forward (rounds read q) :=
  (h.inTurn q.min).flatMap (h.beyond q)

/-! ## Consuming -/

theorem Consuming.flatMap (h : Consuming read) (h' : Forward next) :
    Consuming fun r => (read r).flatMap next := by
  intro r s mem
  obtain ⟨t, ht, hs⟩ := List.mem_flatMap.1 mem
  exact Nat.lt_of_le_of_lt (h' t s hs).length_rest_le (h r t ht)

theorem Forward.flatMap_consuming (h : Forward read) (h' : Consuming next) :
    Consuming fun r => (read r).flatMap next := by
  intro r s mem
  obtain ⟨t, ht, hs⟩ := List.mem_flatMap.1 mem
  exact Nat.lt_of_lt_of_le (h' t s hs) (h r t ht).length_rest_le

theorem consuming_readChar (accepts : Char → Bool) : Consuming (readChar accepts) := by
  intro r s mem
  unfold readChar at mem
  split at mem
  · cases mem
  · rename_i rest eq
    split at mem
    · cases List.mem_singleton.1 mem
      rw [eq]
      exact Nat.lt_succ_self _
    · cases mem

/-- One round that is asked for is enough. -/
theorem Consuming.rounds (h : Consuming read) (forward : Forward read) {q : Quantifier}
    (pos : 0 < q.min) : Consuming (rounds read q) := by
  intro r s mem
  unfold Reading.rounds at mem
  obtain ⟨n, eq⟩ := Nat.exists_eq_succ_of_ne_zero (Nat.ne_of_gt pos)
  rw [eq, Reading.inTurn, List.flatMap_assoc] at mem
  exact h.flatMap ((forward.inTurn n).flatMap (forward.beyond q)) r s mem

/-- Where every round reads something, none is cut off. -/
theorem Consuming.filter_movedFrom (h : Consuming read) (r : Reading) :
    (read r).filter r.movedFrom = read r := by
  rw [List.filter_eq_self]
  intro s mem
  exact decide_eq_true (h r s mem)

/-! ## Idle -/

theorem idle_stay : Idle fun r => [r] := fun _ => ⟨0, rfl⟩

theorem Idle.flatMap (h : Idle read) (h' : Idle next) : Idle fun r => (read r).flatMap next := by
  intro r
  obtain ⟨m, hm⟩ := h r
  obtain ⟨n, hn⟩ := h' r
  refine ⟨m * (n + 1) + n, ?_⟩
  dsimp only
  rw [hm, List.flatMap_replicate, hn, List.flatten_replicate_replicate]
  congr 1
  rw [Nat.succ_mul, Nat.add_assoc]

theorem Idle.prefer (h : Idle read) (greedy : Bool) : Idle fun r => prefer greedy (read r) r := by
  intro r
  obtain ⟨n, hn⟩ := h r
  refine ⟨n + 1, ?_⟩
  dsimp only
  rw [hn]
  unfold Reading.prefer
  split
  · exact List.replicate_succ'.symm
  · rfl

theorem Idle.inTurn (h : Idle read) (n : Nat) : Idle (inTurn read n) := by
  induction n with
  | zero => exact idle_stay
  | succ n ih => exact h.flatMap ih

theorem Idle.upTo (h : Idle read) (greedy : Bool) (n : Nat) : Idle (upTo read greedy n) := by
  induction n with
  | zero => exact idle_stay
  | succ n ih => exact (h.flatMap ih).prefer greedy

theorem Idle.loop (h : Idle read) (greedy : Bool) : Idle (loop read greedy) := by
  intro r
  obtain ⟨n, hn⟩ := h r
  have still : r.movedFrom r = false := decide_eq_false (Nat.lt_irrefl _)
  have stops : (read r).filter r.movedFrom = [] := by
    rw [hn, List.filter_replicate_of_neg]
    rw [still]
    exact Bool.false_ne_true
  refine ⟨0, ?_⟩
  rw [loop_eq, stops]
  unfold Reading.prefer
  split <;> rfl

theorem Idle.rounds (h : Idle read) (q : Quantifier) : Idle (rounds read q) := by
  apply (h.inTurn q.min).flatMap
  intro r
  unfold Reading.beyond
  split
  · exact h.upTo _ _ r
  · exact h.loop _ r

/-- No round at all is asked for and none is allowed. -/
theorem idle_rounds_of_max {q : Quantifier} (ordered : q.Ordered) (none : q.max = some 0) :
    Idle (rounds read q) := by
  intro r
  refine ⟨0, ?_⟩
  unfold Reading.rounds Reading.beyond
  rw [none, Nat.le_zero.1 (ordered 0 none)]
  rfl

end

end Reading

/-! ## Nodes -/

namespace Node

open Reading

variable (ignoreCase : Bool)

mutual

theorem forward_results (node : Node) : Forward (node.results ignoreCase) := by
  intro r s mem
  match node with
  | char _ | any | oneOf _ =>
    rw [results] at mem
    exact forward_readChar _ r s mem
  | atStart | atEnd =>
    rw [results] at mem
    exact forward_require _ r s mem
  | sequence parts =>
    rw [results] at mem
    exact forward_resultsInTurn parts r s mem
  | choice branches =>
    rw [results] at mem
    exact forward_resultsOfEach branches r s mem
  | group body =>
    rw [results] at mem
    exact forward_results body r s mem
  | capture i body =>
    rw [results] at mem
    obtain ⟨t, ht, rfl⟩ := List.mem_map.1 mem
    have inner := forward_results body _ t ht
    exact inner
  | backreference i =>
    rw [results] at mem
    split at mem
    · exact forward_readCopy _ _ r s mem
    · cases mem
  | look true body =>
    rw [results] at mem
    obtain ⟨t, -, rfl⟩ := List.mem_map.1 mem
    exact .refl _
  | look false body =>
    rw [results] at mem
    exact forward_require _ r s mem
  | repeated body q =>
    rw [results] at mem
    exact (forward_results body).rounds q r s mem

theorem forward_resultsInTurn (nodes : List Node) :
    Forward (resultsInTurn ignoreCase nodes) := by
  intro r s mem
  match nodes with
  | [] =>
    rw [resultsInTurn] at mem
    exact forward_stay r s mem
  | node :: nodes =>
    rw [resultsInTurn] at mem
    exact (forward_results node).flatMap (forward_resultsInTurn nodes) r s mem

theorem forward_resultsOfEach (nodes : List Node) :
    Forward (resultsOfEach ignoreCase nodes) := by
  intro r s mem
  match nodes with
  | [] =>
    rw [resultsOfEach] at mem
    cases mem
  | node :: nodes =>
    rw [resultsOfEach] at mem
    rcases List.mem_append.1 mem with first | others
    · exact forward_results node r s first
    · exact forward_resultsOfEach nodes r s others

end

mutual

theorem consuming_results (node : Node) (h : node.nullable = false) :
    Consuming (node.results ignoreCase) := by
  intro r s mem
  match node with
  | char _ | any | oneOf _ =>
    rw [results] at mem
    exact consuming_readChar _ r s mem
  | sequence parts =>
    rw [results] at mem
    exact consuming_resultsInTurn parts h r s mem
  | choice branches =>
    rw [results] at mem
    exact consuming_resultsOfEach branches h r s mem
  | group body =>
    rw [results] at mem
    exact consuming_results body h r s mem
  | capture i body =>
    rw [results] at mem
    obtain ⟨t, ht, rfl⟩ := List.mem_map.1 mem
    have inner := consuming_results body h _ t ht
    exact inner
  | repeated body q =>
    rw [results] at mem
    rw [nullable, Bool.or_eq_false_iff, beq_eq_false_iff_ne] at h
    have pos := Nat.pos_of_ne_zero h.1
    exact (consuming_results body h.2).rounds (forward_results ignoreCase body) pos r s mem
  | backreference _ | atStart | atEnd | look _ _ => cases h

theorem consuming_resultsInTurn (nodes : List Node) (h : allNullable nodes = false) :
    Consuming (resultsInTurn ignoreCase nodes) := by
  intro r s mem
  match nodes with
  | [] => cases h
  | node :: nodes =>
    rw [resultsInTurn] at mem
    rw [allNullable, Bool.and_eq_false_iff] at h
    rcases h with first | others
    · exact (consuming_results node first).flatMap
        (forward_resultsInTurn ignoreCase nodes) r s mem
    · exact (forward_results ignoreCase node).flatMap_consuming
        (consuming_resultsInTurn nodes others) r s mem

theorem consuming_resultsOfEach (nodes : List Node) (h : anyNullable nodes = false) :
    Consuming (resultsOfEach ignoreCase nodes) := by
  intro r s mem
  match nodes with
  | [] =>
    rw [resultsOfEach] at mem
    cases mem
  | node :: nodes =>
    rw [resultsOfEach] at mem
    rw [anyNullable, Bool.or_eq_false_iff] at h
    rcases List.mem_append.1 mem with first | others
    · exact consuming_results node h.1 r s first
    · exact consuming_resultsOfEach nodes h.2 r s others

end

mutual

theorem idle_results (node : Node) (proper : node.Proper) (h : node.emitsNothing = true) :
    Idle (node.results ignoreCase) := by
  match node with
  | sequence parts =>
    intro r
    rw [results]
    exact idle_resultsInTurn parts proper h r
  | group body =>
    intro r
    rw [results]
    exact idle_results body proper h r
  | repeated body q =>
    intro r
    rw [results]
    rw [emitsNothing, Bool.or_eq_true, beq_iff_eq] at h
    rcases h with none | inner
    · exact idle_rounds_of_max proper.1 none r
    · exact (idle_results body proper.2 inner).rounds q r
  | char _ | any | oneOf _ | choice _ | capture _ _ | backreference _ | atStart | atEnd
  | look _ _ => cases h

theorem idle_resultsInTurn (nodes : List Node) (proper : AllProper nodes)
    (h : allEmitNothing nodes = true) : Idle (resultsInTurn ignoreCase nodes) := by
  match nodes with
  | [] => exact idle_stay
  | node :: nodes =>
    rw [allEmitNothing, Bool.and_eq_true] at h
    have first := idle_results node proper.1 h.1
    exact first.flatMap (idle_resultsInTurn nodes proper.2 h.2)

end

end Node

end RegexEngine
