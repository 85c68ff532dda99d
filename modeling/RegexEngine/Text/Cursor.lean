/-!
# Positions in a text

A cursor knows how many bytes lie before it and which characters lie behind it, so that reading on
never needs the text itself. Offsets count bytes of the UTF-8 form.

`Cursor.Reaches` says that one cursor lies at or behind another in one text. It is a preorder
(`Reaches.refl`, `Reaches.trans`) along which reading moves (`reaches_advance`), a later cursor has
less text left (`Reaches.length_rest_lt`), and `rest_eq_textTo_append` recovers the text between.
-/

namespace RegexEngine

/-- How many bytes characters take in UTF-8. -/
def byteLength : List Char → Nat
  | [] => 0
  | c :: cs => c.utf8Size + byteLength cs

@[simp] theorem byteLength_nil : byteLength [] = 0 := rfl

@[simp] theorem byteLength_cons (c : Char) (cs : List Char) :
    byteLength (c :: cs) = c.utf8Size + byteLength cs := rfl

@[simp] theorem byteLength_append (cs ds : List Char) :
    byteLength (cs ++ ds) = byteLength cs + byteLength ds := by
  induction cs with
  | nil => simp
  | cons c cs ih => simp [ih, Nat.add_assoc]

theorem length_le_byteLength (cs : List Char) : cs.length ≤ byteLength cs := by
  induction cs with
  | nil => simp
  | cons c cs ih =>
    have := c.utf8Size_pos
    rw [List.length_cons, byteLength_cons]
    omega

/-- The longest run of leading characters that fits into `n` bytes. -/
def takeBytes (n : Nat) : List Char → List Char
  | [] => []
  | c :: cs => if c.utf8Size ≤ n then c :: takeBytes (n - c.utf8Size) cs else []

theorem takeBytes_append (cs ds : List Char) : takeBytes (byteLength cs) (cs ++ ds) = cs := by
  induction cs with
  | nil =>
    cases ds with
    | nil => rfl
    | cons d ds => exact if_neg (Nat.not_le_of_gt d.utf8Size_pos)
  | cons c cs ih => simp [takeBytes, ih]

/-- A position between two characters of a text. -/
structure Cursor where
  /-- How many bytes lie before the position. -/
  offset : Nat
  rest : List Char
deriving Repr, DecidableEq

namespace Cursor

def ofString (text : String) : Cursor := ⟨0, text.toList⟩

/-- The position behind `c`, where `c` stands here and `rest` follows it. -/
def advance (here : Cursor) (c : Char) (rest : List Char) : Cursor :=
  ⟨here.offset + c.utf8Size, rest⟩

/-- The character that stands here and the position behind it. -/
@[inline] def next? (here : Cursor) : Option (Char × Cursor) :=
  match here.rest with
  | [] => none
  | c :: rest => some (c, here.advance c rest)

theorem rest_of_next {here after : Cursor} {c : Char} (h : here.next? = some (c, after)) :
    here.rest = c :: after.rest := by
  unfold next? at h
  split at h
  · cases h
  · rename_i rest hr
    cases h
    exact hr

theorem next_of_rest {here : Cursor} {c : Char} {rest : List Char} (h : here.rest = c :: rest) :
    here.next? = some (c, here.advance c rest) := by
  unfold next?
  rw [h]

theorem next_eq_none_iff {here : Cursor} : here.next? = none ↔ here.rest = [] := by
  unfold next?
  cases here.rest <;> simp

theorem length_rest_next {here after : Cursor} {c : Char} (h : here.next? = some (c, after)) :
    after.rest.length < here.rest.length := by
  unfold next? at h
  split at h
  · cases h
  · rename_i rest hr
    cases h
    simp [hr, advance]

/-- The first position at or behind byte `n`, looking from `offset` on; a byte inside a character
stands for the position behind that character. -/
def seek (n offset : Nat) : List Char → Option Cursor
  | [] => if n ≤ offset then some ⟨offset, []⟩ else none
  | c :: rest => if n ≤ offset then some ⟨offset, c :: rest⟩ else seek n (offset + c.utf8Size) rest

/-- The first position of a text at or behind byte `n`; none if the text is shorter. -/
def atByte? (text : String) (n : Nat) : Option Cursor := seek n 0 text.toList

/-- The characters between two positions of one text. -/
def textTo (start stop : Cursor) : List Char := takeBytes (stop.offset - start.offset) start.rest

/-! ## One position behind another -/

/-- Says that `b` lies at or behind `a` in one text: some characters lead from `a` to `b`. -/
def Reaches (a b : Cursor) : Prop :=
  ∃ between, a.rest = between ++ b.rest ∧ b.offset = a.offset + byteLength between

theorem Reaches.refl (a : Cursor) : a.Reaches a := ⟨[], rfl, rfl⟩

theorem Reaches.trans {a b c : Cursor} (hab : a.Reaches b) (hbc : b.Reaches c) : a.Reaches c := by
  obtain ⟨cs, hr, ho⟩ := hab
  obtain ⟨ds, hr', ho'⟩ := hbc
  exact ⟨cs ++ ds, by simp [hr, hr'], by simp [ho, ho', Nat.add_assoc]⟩

theorem reaches_advance {here : Cursor} {c : Char} {rest : List Char} (h : here.rest = c :: rest) :
    here.Reaches (here.advance c rest) :=
  ⟨[c], by simp [h, advance], by simp [advance]⟩

theorem reaches_next {here after : Cursor} {c : Char} (h : here.next? = some (c, after)) :
    here.Reaches after := by
  unfold next? at h
  split at h
  · cases h
  · rename_i rest hr
    cases h
    exact reaches_advance hr

theorem Reaches.offset_le {a b : Cursor} (h : a.Reaches b) : a.offset ≤ b.offset := by
  obtain ⟨cs, -, ho⟩ := h
  omega

theorem offset_lt_of_next {here after : Cursor} {c : Char} (h : here.next? = some (c, after)) :
    here.offset < after.offset := by
  unfold next? at h
  split at h
  · cases h
  · cases h
    exact Nat.lt_add_of_pos_right c.utf8Size_pos

theorem eq_of_reaches_of_rest_eq_nil {a b : Cursor} (h : a.Reaches b) (ends : a.rest = []) :
    b = a := by
  obtain ⟨offset, rest⟩ := a
  obtain ⟨offset', rest'⟩ := b
  obtain ⟨between, hr, ho⟩ := h
  dsimp only at ends hr ho
  subst ends
  obtain ⟨rfl, rfl⟩ := List.append_eq_nil_iff.1 hr.symm
  rw [ho, byteLength_nil, Nat.add_zero]

/-- A position ahead is this one or lies ahead of the next one. -/
theorem Reaches.eq_or_advance {offset : Nat} {c : Char} {rest : List Char} {b : Cursor}
    (h : (⟨offset, c :: rest⟩ : Cursor).Reaches b) :
    b = ⟨offset, c :: rest⟩ ∨ (⟨offset + c.utf8Size, rest⟩ : Cursor).Reaches b := by
  obtain ⟨between, hr, ho⟩ := h
  dsimp only at hr ho
  cases between with
  | nil =>
    left
    obtain ⟨offset', rest'⟩ := b
    dsimp only at hr ho
    rw [hr, ho, byteLength_nil, Nat.add_zero, List.nil_append]
  | cons d between =>
    right
    rw [List.cons_append, List.cons.injEq] at hr
    obtain ⟨rfl, hr⟩ := hr
    exact ⟨between, hr, by rw [ho, byteLength_cons, Nat.add_assoc]⟩

/-- A later position has fewer characters behind it. -/
theorem Reaches.length_rest_lt {a b : Cursor} (h : a.Reaches b) (lt : a.offset < b.offset) :
    b.rest.length < a.rest.length := by
  obtain ⟨cs, hr, ho⟩ := h
  cases cs with
  | nil => exact absurd (ho ▸ lt) (Nat.lt_irrefl _)
  | cons c cs =>
    rw [hr, List.length_append, List.length_cons]
    omega

theorem Reaches.length_rest_le {a b : Cursor} (h : a.Reaches b) :
    b.rest.length ≤ a.rest.length := by
  obtain ⟨cs, hr, -⟩ := h
  simp [hr]

/-- The characters between two positions lead from the first to the second. -/
theorem rest_eq_textTo_append {a b : Cursor} (h : a.Reaches b) :
    a.rest = a.textTo b ++ b.rest := by
  obtain ⟨cs, hr, ho⟩ := h
  simp [textTo, hr, ho, takeBytes_append]

end Cursor

/-! ## Stretches of a text -/

/-- A stretch of a text, from one position to another. -/
structure Span where
  start : Cursor
  stop : Cursor
deriving Repr, DecidableEq

namespace Span

def chars (span : Span) : List Char := span.start.textTo span.stop

def text (span : Span) : String := String.ofList span.chars

def length (span : Span) : Nat := span.stop.offset - span.start.offset

def isEmpty (span : Span) : Bool := span.length == 0

end Span

end RegexEngine
