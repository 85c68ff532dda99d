import RegexEngine.Proofs.Readings.Rounds

/-!
# Readings that come again

A listing of readings may name one that it has named before. What follows a part of a pattern has
failed from there already, so the repeat is never heard of: listings that differ in repeats alone
(`SameFirsts`) have the same first reading (`SameFirsts.head?_eq`), and so has everything that is
made of them in the same way (`Reading.Agrees`).

A loop whose rounds are loops over the same body walks through many more readings than the inner
loop does, but all of the others are repeats (`Reading.agrees_loop_loop`).
-/

namespace RegexEngine

/-- Says that two lists name the same things in the same order, if what has been named before does
not count. -/
inductive SameFirsts {α : Type} : List α → List α → Prop where
  | refl (xs : List α) : SameFirsts xs xs
  | symm {xs ys : List α} (h : SameFirsts xs ys) : SameFirsts ys xs
  | trans {xs ys zs : List α} (h : SameFirsts xs ys) (h' : SameFirsts ys zs) : SameFirsts xs zs
  | skip {xs : List α} {a : α} (named : a ∈ xs) (ys : List α) :
    SameFirsts (xs ++ a :: ys) (xs ++ ys)

namespace SameFirsts

variable {α β : Type} {xs ys zs : List α}

/-- Repeats may be left out together. -/
theorem skipAll (named : zs ⊆ xs) (ys : List α) : SameFirsts (xs ++ (zs ++ ys)) (xs ++ ys) := by
  induction zs with
  | nil => exact .refl _
  | cons a zs ih =>
    rw [List.cons_subset] at named
    exact .trans (.skip named.1 (zs ++ ys)) (ih named.2)

theorem append_left (h : SameFirsts xs ys) (zs : List α) : SameFirsts (zs ++ xs) (zs ++ ys) := by
  induction h with
  | refl => exact .refl _
  | symm _ ih => exact .symm ih
  | trans _ _ ih ih' => exact .trans ih ih'
  | @skip xs a named ys =>
    rw [← List.append_assoc, ← List.append_assoc]
    exact .skip (List.mem_append_right zs named) ys

theorem append_right (h : SameFirsts xs ys) (zs : List α) :
    SameFirsts (xs ++ zs) (ys ++ zs) := by
  induction h with
  | refl => exact .refl _
  | symm _ ih => exact .symm ih
  | trans _ _ ih ih' => exact .trans ih ih'
  | @skip xs a named ys =>
    rw [List.append_assoc, List.cons_append, List.append_assoc]
    exact .skip named (ys ++ zs)

theorem append {xs' ys' : List α} (h : SameFirsts xs ys) (h' : SameFirsts xs' ys') :
    SameFirsts (xs ++ xs') (ys ++ ys') :=
  .trans (h.append_right xs') (h'.append_left ys)

theorem filter (h : SameFirsts xs ys) (p : α → Bool) :
    SameFirsts (xs.filter p) (ys.filter p) := by
  induction h with
  | refl => exact .refl _
  | symm _ ih => exact .symm ih
  | trans _ _ ih ih' => exact .trans ih ih'
  | @skip xs a named ys =>
    rw [List.filter_append, List.filter_append, List.filter_cons]
    split
    · rename_i kept
      exact .skip (List.mem_filter.2 ⟨named, kept⟩) (ys.filter p)
    · exact .refl _

theorem flatMap_right (h : SameFirsts xs ys) (f : α → List β) :
    SameFirsts (xs.flatMap f) (ys.flatMap f) := by
  induction h with
  | refl => exact .refl _
  | symm _ ih => exact .symm ih
  | trans _ _ ih ih' => exact .trans ih ih'
  | @skip xs a named ys =>
    rw [List.flatMap_append, List.flatMap_append, List.flatMap_cons]
    exact skipAll (fun b mem => List.mem_flatMap.2 ⟨a, named, mem⟩) (ys.flatMap f)

theorem flatMap_left {f g : α → List β} (h : ∀ a ∈ xs, SameFirsts (f a) (g a)) :
    SameFirsts (xs.flatMap f) (xs.flatMap g) := by
  induction xs with
  | nil => exact .refl _
  | cons a xs ih =>
    rw [List.forall_mem_cons] at h
    rw [List.flatMap_cons, List.flatMap_cons]
    exact h.1.append (ih h.2)

theorem flatMap {f g : α → List β} (h : SameFirsts xs ys)
    (h' : ∀ a ∈ ys, SameFirsts (f a) (g a)) : SameFirsts (xs.flatMap f) (ys.flatMap g) :=
  .trans (h.flatMap_right f) (flatMap_left h')

theorem map (h : SameFirsts xs ys) (f : α → β) : SameFirsts (xs.map f) (ys.map f) := by
  rw [List.map_eq_flatMap, List.map_eq_flatMap]
  exact h.flatMap_right _

/-- Nothing comes before what is named first. -/
theorem head?_eq (h : SameFirsts xs ys) : xs.head? = ys.head? := by
  induction h with
  | refl => rfl
  | symm _ ih => exact ih.symm
  | trans _ _ ih ih' => exact ih.trans ih'
  | skip named ys =>
    obtain ⟨b, xs, rfl⟩ := List.exists_cons_of_ne_nil (List.ne_nil_of_mem named)
    rfl

theorem isEmpty_eq (h : SameFirsts xs ys) : xs.isEmpty = ys.isEmpty := by
  rw [Bool.eq_iff_iff, List.isEmpty_iff, List.isEmpty_iff, ← List.head?_eq_none_iff,
    ← List.head?_eq_none_iff, h.head?_eq]

end SameFirsts

namespace Reading

/-! ## The same readings in the same order -/

/-- Says that two ways to read differ in repeats alone. -/
def Agrees (read read' : Reading → List Reading) : Prop := ∀ r, SameFirsts (read r) (read' r)

theorem sameFirsts_prefer {xs ys : List Reading} (h : SameFirsts xs ys) (greedy : Bool)
    (r : Reading) : SameFirsts (prefer greedy xs r) (prefer greedy ys r) := by
  unfold prefer
  split
  · exact h.append_right [r]
  · exact h.append_left [r]

namespace Agrees

variable {read read' next next' : Reading → List Reading}

theorem refl (read : Reading → List Reading) : Agrees read read := fun r => .refl (read r)

theorem flatMap (h : Agrees read read') (h' : Agrees next next') :
    Agrees (fun r => (read r).flatMap next) fun r => (read' r).flatMap next' :=
  fun r => (h r).flatMap fun s _ => h' s

theorem append (h : Agrees read read') (h' : Agrees next next') :
    Agrees (fun r => read r ++ next r) fun r => read' r ++ next' r :=
  fun r => (h r).append (h' r)

theorem inTurn (h : Agrees read read') (n : Nat) : Agrees (inTurn read n) (inTurn read' n) := by
  induction n with
  | zero => exact .refl _
  | succ n ih => exact h.flatMap ih

theorem upTo (h : Agrees read read') (greedy : Bool) (n : Nat) :
    Agrees (upTo read greedy n) (upTo read' greedy n) := by
  induction n with
  | zero => exact .refl _
  | succ n ih => exact fun r => sameFirsts_prefer (h.flatMap ih r) greedy r

theorem loop (h : Agrees read read') (greedy : Bool) :
    Agrees (loop read greedy) (loop read' greedy) := by
  intro r
  -- a round that goes on leaves less text
  induction len : r.here.rest.length using Nat.strongRecOn generalizing r with
  | _ n ih =>
    rw [loop_eq, loop_eq]
    refine sameFirsts_prefer (((h r).filter r.movedFrom).flatMap ?_) greedy r
    intro s mem
    have moved := (List.mem_filter.1 mem).2
    exact ih _ (len ▸ of_decide_eq_true moved) s rfl

theorem rounds (h : Agrees read read') (q : Quantifier) :
    Agrees (rounds read q) (rounds read' q) := by
  apply (h.inTurn q.min).flatMap
  intro r
  unfold Reading.beyond
  split
  · exact h.upTo _ _ r
  · exact h.loop _ r

theorem capture (h : Agrees read read') (i : Nat) :
    Agrees
      (fun r => (read { r with captures := r.captures.enter i r.here }).map fun s =>
        { s with captures := s.captures.leave i s.here })
      fun r => (read' { r with captures := r.captures.enter i r.here }).map fun s =>
        { s with captures := s.captures.leave i s.here } :=
  fun _ => (h _).map _

/-- A positive test takes the first outcome, which is the same. -/
theorem ahead (h : Agrees read read') :
    Agrees (fun r => (read r).head?.toList.map fun s => { s with here := r.here })
      fun r => (read' r).head?.toList.map fun s => { s with here := r.here } := by
  intro r
  dsimp only
  rw [(h r).head?_eq]
  exact .refl _

theorem notAhead (h : Agrees read read') :
    Agrees (fun r => r.require (read r).isEmpty) fun r => r.require (read' r).isEmpty := by
  intro r
  dsimp only
  rw [(h r).isEmpty_eq]
  exact .refl _

end Agrees

/-! ## Loops over loops -/

section

variable {round : Reading → List Reading} {greedy : Bool}

/-- The readings of a loop that has done at least one round. -/
def goingOn (round : Reading → List Reading) (greedy : Bool) (r : Reading) : List Reading :=
  ((round r).filter r.movedFrom).flatMap (loop round greedy)

theorem loop_eq_prefer (r : Reading) :
    loop round greedy r = prefer greedy (goingOn round greedy r) r := loop_eq round greedy r

theorem length_rest_le_of_mem_loop {r s : Reading} (mem : s ∈ loop round greedy r) :
    s.here.rest.length ≤ r.here.rest.length := by
  induction len : r.here.rest.length using Nat.strongRecOn generalizing r with
  | _ n ih =>
    subst len
    rw [loop_eq] at mem
    rcases mem_prefer.1 mem with further | rfl
    · obtain ⟨t, ht, hs⟩ := List.mem_flatMap.1 further
      have shorter := of_decide_eq_true (List.mem_filter.1 ht).2
      exact Nat.le_trans (ih _ shorter hs rfl) (Nat.le_of_lt shorter)
    · exact Nat.le_refl _

theorem movedFrom_of_mem_goingOn {r s : Reading} (mem : s ∈ goingOn round greedy r) :
    r.movedFrom s = true := by
  obtain ⟨t, ht, hs⟩ := List.mem_flatMap.1 mem
  have shorter := of_decide_eq_true (List.mem_filter.1 ht).2
  exact decide_eq_true (Nat.lt_of_le_of_lt (length_rest_le_of_mem_loop hs) shorter)

/-- Of the readings of a loop only the one without a round has not moved. -/
theorem filter_movedFrom_loop (r : Reading) :
    (loop round greedy r).filter r.movedFrom = goingOn round greedy r := by
  have moved : (goingOn round greedy r).filter r.movedFrom = goingOn round greedy r :=
    List.filter_eq_self.2 fun s => movedFrom_of_mem_goingOn
  have stays : [r].filter r.movedFrom = [] :=
    List.filter_eq_nil_iff.2 fun s mem => by
      rw [List.mem_singleton.1 mem, movedFrom, decide_eq_true_iff]
      exact Nat.lt_irrefl _
  rw [loop_eq_prefer, prefer]
  split
  · rw [List.filter_append, moved, stays, List.append_nil]
  · rw [← List.singleton_append, List.filter_append, moved, stays, List.nil_append]

/-- Looping on behind a round adds nothing but repeats, if it adds nothing else where less text is
left. -/
theorem sameFirsts_goingOn_flatMap {r : Reading}
    (h : ∀ s, s.here.rest.length < r.here.rest.length →
      SameFirsts ((loop round greedy s).flatMap (loop round greedy)) (loop round greedy s)) :
    SameFirsts ((goingOn round greedy r).flatMap (loop round greedy)) (goingOn round greedy r) := by
  unfold goingOn
  rw [List.flatMap_assoc]
  apply SameFirsts.flatMap_left
  intro s mem
  exact h s (of_decide_eq_true (List.mem_filter.1 mem).2)

/-- Looping on from where a loop may end adds nothing but repeats. -/
theorem sameFirsts_loop_flatMap (r : Reading) :
    SameFirsts ((loop round greedy r).flatMap (loop round greedy)) (loop round greedy r) := by
  induction len : r.here.rest.length using Nat.strongRecOn generalizing r with
  | _ n ih =>
    subst len
    have onward := sameFirsts_goingOn_flatMap fun s shorter => ih _ shorter s rfl
    rw [loop_eq_prefer]
    unfold prefer
    split
    · -- the last reading brings back all that came before it
      rw [List.flatMap_append, List.flatMap_singleton, loop_eq_prefer, prefer, if_pos ‹_›]
      exact .trans (onward.append_right _) (.skipAll (List.Subset.refl _) [r])
    · -- the first reading brings all that is to come
      rw [List.flatMap_cons, loop_eq_prefer, prefer, if_neg ‹_›]
      refine .trans (onward.append_left _) ?_
      have named : goingOn round greedy r ⊆ r :: goingOn round greedy r := List.subset_cons_self r _
      have repeats := SameFirsts.skipAll named []
      rwa [List.append_nil, List.append_nil] at repeats

/-- A loop over a loop reads as the inner loop does. -/
theorem agrees_loop_loop (round : Reading → List Reading) (greedy : Bool) :
    Agrees (loop (loop round greedy) greedy) (loop round greedy) := by
  intro r
  induction len : r.here.rest.length using Nat.strongRecOn generalizing r with
  | _ n ih =>
    subst len
    rw [loop_eq, filter_movedFrom_loop, loop_eq_prefer]
    apply sameFirsts_prefer
    have inner : SameFirsts ((goingOn round greedy r).flatMap (loop (loop round greedy) greedy))
        ((goingOn round greedy r).flatMap (loop round greedy)) := by
      apply SameFirsts.flatMap_left
      intro s mem
      exact ih _ (of_decide_eq_true (movedFrom_of_mem_goingOn mem)) s rfl
    exact inner.trans (sameFirsts_goingOn_flatMap fun s _ => sameFirsts_loop_flatMap s)

end

end Reading

end RegexEngine
