/-!
# Stacks

A list with its top first that knows its height, so that a place in it can be named by the height it
was pushed at: such a name stays good while anything above is pushed and popped.
-/

namespace RegexEngine

/-- A stack with its top first. -/
structure Stack (α : Type) where
  items : List α
  height : Nat
  height_eq : height = items.length

namespace Stack

variable {α : Type}

def empty : Stack α := ⟨[], 0, rfl⟩

def push (s : Stack α) (a : α) : Stack α :=
  ⟨a :: s.items, s.height + 1, by simp [s.height_eq]⟩

def pop? : Stack α → Option (α × Stack α)
  | ⟨[], _, _⟩ => none
  | ⟨a :: items, height, h⟩ => some (a, ⟨items, height - 1, by simp [h]⟩)

/-- The item that was pushed at height `n`. -/
def at? (s : Stack α) (n : Nat) : Option α :=
  if n < s.height then s.items[s.height - 1 - n]? else none

/-- The items at height `n` and above, the top first. -/
def above (s : Stack α) (n : Nat) : List α := s.items.take (s.height - n)

/-- The stack without the items at height `n` and above. -/
def truncate (s : Stack α) (n : Nat) : Stack α :=
  ⟨s.items.drop (s.height - n), min n s.height, by simp [s.height_eq]; omega⟩

/-! ## What the operations do to the items -/

@[ext] theorem ext {s t : Stack α} (h : s.items = t.items) : s = t := by
  obtain ⟨items, height, hs⟩ := s
  obtain ⟨items', height', ht⟩ := t
  cases h
  cases hs
  cases ht
  rfl

@[simp] theorem items_empty : (empty : Stack α).items = [] := rfl

@[simp] theorem height_empty : (empty : Stack α).height = 0 := rfl

@[simp] theorem items_push (s : Stack α) (a : α) : (s.push a).items = a :: s.items := rfl

@[simp] theorem height_push (s : Stack α) (a : α) : (s.push a).height = s.height + 1 := rfl

@[simp] theorem items_truncate (s : Stack α) (n : Nat) :
    (s.truncate n).items = s.items.drop (s.height - n) := rfl

@[simp] theorem height_truncate (s : Stack α) (n : Nat) :
    (s.truncate n).height = min n s.height := rfl

@[simp] theorem pop?_push (s : Stack α) (a : α) : (s.push a).pop? = some (a, s) := rfl

theorem pop?_eq_some_iff {s t : Stack α} {a : α} : s.pop? = some (a, t) ↔ s = t.push a := by
  obtain ⟨items, height, hs⟩ := s
  cases hs
  cases items with
  | nil =>
    constructor
    · intro h
      cases h
    · intro h
      simpa using congrArg items h
  | cons b items =>
    simp only [pop?, Option.some.injEq, Prod.mk.injEq, Stack.ext_iff, items_push, List.cons.injEq]

theorem pop?_eq_none_iff {s : Stack α} : s.pop? = none ↔ s = empty := by
  obtain ⟨items, height, hs⟩ := s
  cases hs
  cases items <;> simp [pop?, Stack.ext_iff]

theorem mem_items_of_at? {s : Stack α} {n : Nat} {a : α} (h : s.at? n = some a) : a ∈ s.items := by
  unfold at? at h
  split at h
  · exact List.mem_of_getElem? h
  · cases h

end Stack

end RegexEngine
