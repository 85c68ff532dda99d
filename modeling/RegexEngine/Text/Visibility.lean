import RegexEngine.Text.Visibility.Table

/-!
# Characters that show by themselves

What a message can print as it is: neither a control, a format character, a blank other than the
space, a mark that would join its neighbour nor a filler that leaves its place empty.
-/

namespace RegexEngine.Visibility

/-- Whether a character has a shape of its own. -/
def isVisible (c : Char) : Bool :=
  let n := c.toNat
  if 0x20 ≤ n ∧ n < 0x7f then true
  else if n < 0x1000 then !Range.covers low n
  else if n < 0x10000 then !Range.covers middle n
  else !Range.covers high n

/-- Every printable ASCII character shows. -/
theorem isVisible_of_ascii {c : Char} (h : 0x20 ≤ c.toNat ∧ c.toNat < 0x7f) :
    isVisible c = true := by
  simp [isVisible, h]

end RegexEngine.Visibility
