import RegexEngine.Text.CaseMapping.Table

/-!
# Letter case

Simple case mapping, one character to one character: the form a search compares when it ignores
case. A character whose mapped form takes several characters stands for itself.
-/

namespace RegexEngine.CaseMapping

/-- The character numbered `n` in `runs`' image, or `c` itself where no run speaks of it. -/
def mapped (runs : List Run) (c : Char) : Char :=
  match Run.find? runs c.toNat with
  | some n => Char.ofNat n
  | none => c

def lower (c : Char) : Char :=
  if c.toNat < 0x80 then c.toLower else mapped lowerRuns c

def upper (c : Char) : Char :=
  if c.toNat < 0x80 then c.toUpper else mapped upperRuns c

/-- Two characters that differ in case alone. -/
def sameLetter (a b : Char) : Bool :=
  lower a == lower b

theorem sameLetter_self (c : Char) : sameLetter c c = true := by
  simp [sameLetter]

end RegexEngine.CaseMapping
