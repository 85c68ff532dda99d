import RegexEngine.Fallible
import RegexEngine.Pattern.CharClass
import RegexEngine.Pattern.Error
import RegexEngine.Text.Cursor

/-!
# Escapes

What may follow a backslash. The reader stands behind the backslash; every fault is reported at the
backslash itself.
-/

namespace RegexEngine

inductive Escape where
  | char (c : Char)
  | shorthand (set : Shorthand) (negated : Bool)
  | backreference (index : Nat)
deriving Repr, DecidableEq

namespace Escape

/-- The letters that stand for a set of characters or for a control. -/
def ofLetter? : Char → Option Escape
  | 'd' => some (.shorthand .digit false)
  | 'D' => some (.shorthand .digit true)
  | 'w' => some (.shorthand .word false)
  | 'W' => some (.shorthand .word true)
  | 's' => some (.shorthand .space false)
  | 'S' => some (.shorthand .space true)
  | 'n' => some (.char '\n')
  | 'r' => some (.char '\r')
  | 't' => some (.char '\t')
  | 'f' => some (.char '\x0c')
  | 'v' => some (.char '\x0b')
  | _ => none

def hexValue? (c : Char) : Option Nat :=
  if c.isDigit then some (c.toNat - '0'.toNat)
  else if 'a' ≤ c ∧ c ≤ 'f' then some (c.toNat - 'a'.toNat + 10)
  else if 'A' ≤ c ∧ c ≤ 'F' then some (c.toNat - 'A'.toNat + 10)
  else none

/-- Read one hexadecimal digit of an escape whose backslash is at `start`. -/
def readHexDigit (start : Nat) (here : Cursor) : Except PatternError (Nat × Cursor) :=
  match here.next? with
  | none => .error ⟨.incompleteEscape, start⟩
  | some (c, after) =>
    match hexValue? c with
    | none => .error ⟨.unknownEscape 'x', start⟩
    | some value => .ok (value, after)

/-- Read the two hexadecimal digits that number a character. -/
def readHex (start : Nat) (here : Cursor) : Except PatternError (Escape × Cursor) := do
  let (high, here) ← readHexDigit start here
  let (low, here) ← readHexDigit start here
  return (.char (Char.ofNat (16 * high + low)), here)

/-- Read an escape whose backslash is at `start`. Letters and digits without a meaning of their own
are refused; every other character stands for itself. -/
def read (start : Nat) (here : Cursor) : Except PatternError (Escape × Cursor) :=
  match here.next? with
  | none => .error ⟨.incompleteEscape, start⟩
  | some (c, after) =>
    if c = 'x' then
      readHex start after
    else
      match ofLetter? c with
      | some escape => .ok (escape, after)
      | none =>
        if c = '0' then .error ⟨.unknownBackreference 0, start⟩
        else if c.isDigit then .ok (.backreference (c.toNat - '0'.toNat), after)
        else if c.isAlphanum then .error ⟨.unknownEscape c, start⟩
        else .ok (.char c, after)

/-! ## Reading goes forward -/

theorem length_rest_readHexDigit {start : Nat} {here after : Cursor} {value : Nat}
    (h : readHexDigit start here = .ok (value, after)) : after.rest.length < here.rest.length := by
  unfold readHexDigit at h
  split at h
  · cases h
  · rename_i c next hn
    split at h
    · cases h
    · cases h
      exact Cursor.length_rest_next hn

theorem length_rest_read {start : Nat} {here after : Cursor} {escape : Escape}
    (h : read start here = .ok (escape, after)) : after.rest.length < here.rest.length := by
  unfold read at h
  split at h
  · cases h
  · rename_i c next hn
    have lt := Cursor.length_rest_next hn
    split at h
    · obtain ⟨⟨high, mid⟩, h₁, h⟩ := bind_eq_ok_iff.1 h
      obtain ⟨⟨low, last⟩, h₂, h⟩ := bind_eq_ok_iff.1 h
      cases h
      have := length_rest_readHexDigit h₁
      have := length_rest_readHexDigit h₂
      omega
    · repeat' split at h
      all_goals cases h
      all_goals exact lt

end Escape

end RegexEngine
