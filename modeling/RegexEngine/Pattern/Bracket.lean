import RegexEngine.Pattern.Escape

/-!
# Bracketed classes

What stands between `[` and its `]`. A `^` directly behind the bracket negates the class. The first
member may be a `]`, and a hyphen makes a range only between two characters: at the end of the class
and next to a shorthand it stands for itself.
-/

namespace RegexEngine.CharClass

/-- Read one character or escape of the class that opens at `opened`. -/
def readItem (opened : Nat) (here : Cursor) : Except PatternError (ClassItem × Cursor) :=
  match here.next? with
  | none => .error ⟨.unclosedClass, opened⟩
  | some (c, after) =>
    if c = '\\' then
      match Escape.read here.offset after with
      | .error e => .error e
      | .ok (.char c, after) => .ok (.single c, after)
      | .ok (.shorthand set negated, after) => .ok (.shorthand set negated, after)
      | .ok (.backreference index, _) =>
        .error ⟨.unknownEscape (Nat.digitChar index), here.offset⟩
    else
      .ok (.single c, after)

/-- The position behind a hyphen that can make a range: one that the class does not end with. -/
def behindHyphen? (here : Cursor) : Option Cursor :=
  match here.rest with
  | '-' :: c :: rest => if c = ']' then none else some (here.advance '-' (c :: rest))
  | _ => none

/-- Read one member of the class: an item, or two items joined by a hyphen. -/
def readMember (opened : Nat) (here : Cursor) :
    Except PatternError (List ClassItem × Cursor) := do
  let (lower, after) ← readItem opened here
  match lower, behindHyphen? after with
  | .range lo _, some behind =>
    let (upper, after) ← readItem opened behind
    match upper with
    | .range hi _ =>
      if hi < lo then .error ⟨.reversedRange lo hi, here.offset⟩
      else .ok ([.range lo hi], after)
    | .shorthand set negated =>
      .ok ([lower, .single '-', .shorthand set negated], after)
  | _, _ => .ok ([lower], after)

/-! ## Reading goes forward -/

theorem length_rest_readItem {opened : Nat} {here after : Cursor} {item : ClassItem}
    (h : readItem opened here = .ok (item, after)) : after.rest.length < here.rest.length := by
  unfold readItem at h
  split at h
  · cases h
  · rename_i c next hn
    have lt := Cursor.length_rest_next hn
    split at h
    · split at h
      · cases h
      · rename_i he
        have := Escape.length_rest_read he
        cases h
        omega
      · rename_i he
        have := Escape.length_rest_read he
        cases h
        omega
      · cases h
    · cases h
      exact lt

theorem length_rest_behindHyphen {here behind : Cursor} (h : behindHyphen? here = some behind) :
    behind.rest.length < here.rest.length := by
  unfold behindHyphen? at h
  split at h
  · rename_i c rest hr
    split at h
    · cases h
    · cases h
      simp [hr, Cursor.advance]
  · cases h

theorem length_rest_readMember {opened : Nat} {here after : Cursor} {items : List ClassItem}
    (h : readMember opened here = .ok (items, after)) : after.rest.length < here.rest.length := by
  obtain ⟨⟨lower, mid⟩, h₁, h⟩ := bind_eq_ok_iff.1 h
  have lt := length_rest_readItem h₁
  dsimp only at h
  split at h
  · rename_i hb
    obtain ⟨⟨upper, last⟩, h₂, h⟩ := bind_eq_ok_iff.1 h
    have := length_rest_behindHyphen hb
    have := length_rest_readItem h₂
    dsimp only at h
    repeat' split at h
    all_goals cases h
    all_goals omega
  · cases h
    exact lt

/-! ## The whole class -/

/-- Read members up to the bracket that closes the class. -/
def readMembers (opened : Nat) (here : Cursor) : Except PatternError (List ClassItem × Cursor) :=
  match here.next? with
  | none => .error ⟨.unclosedClass, opened⟩
  | some (c, after) =>
    if c = ']' then
      .ok ([], after)
    else
      match _h : readMember opened here with
      | .error e => .error e
      | .ok (items, next) => do
        let (others, after) ← readMembers opened next
        return (items ++ others, after)
termination_by here.rest.length
decreasing_by exact length_rest_readMember _h

/-- Whether the class is negated, which a `^` in front of its members says. -/
def readNegation (here : Cursor) : Bool × Cursor :=
  match here.rest with
  | '^' :: rest => (true, here.advance '^' rest)
  | _ => (false, here)

/-- Read the class whose bracket is at `opened`; the reader stands behind that bracket. -/
def read (opened : Nat) (here : Cursor) : Except PatternError (CharClass × Cursor) := do
  let (negated, here) := readNegation here
  let (items, here) ← readMember opened here
  let (others, here) ← readMembers opened here
  return (⟨items ++ others, negated⟩, here)

theorem length_rest_readMembers {opened : Nat} {here after : Cursor} {items : List ClassItem}
    (h : readMembers opened here = .ok (items, after)) :
    after.rest.length < here.rest.length := by
  fun_induction readMembers opened here generalizing items with
  | case1 => cases h
  | case2 here next hn =>
    cases h
    exact Cursor.length_rest_next hn
  | case3 => cases h
  | case4 here c next hn hc members mid hm ih =>
    obtain ⟨⟨others, last⟩, h₁, h⟩ := bind_eq_ok_iff.1 h
    cases h
    have := ih h₁
    have := length_rest_readMember hm
    omega

theorem length_rest_readNegation (here : Cursor) :
    (readNegation here).2.rest.length ≤ here.rest.length := by
  unfold readNegation
  split
  · rename_i hr
    simp [hr, Cursor.advance]
  · simp

theorem length_rest_read {opened : Nat} {here after : Cursor} {cls : CharClass}
    (h : read opened here = .ok (cls, after)) : after.rest.length < here.rest.length := by
  have := length_rest_readNegation here
  unfold read at h
  generalize readNegation here = start at h this
  obtain ⟨⟨items, mid⟩, h₁, h⟩ := bind_eq_ok_iff.1 h
  obtain ⟨⟨others, last⟩, h₂, h⟩ := bind_eq_ok_iff.1 h
  cases h
  have := length_rest_readMember h₁
  have := length_rest_readMembers h₂
  omega

end RegexEngine.CharClass
