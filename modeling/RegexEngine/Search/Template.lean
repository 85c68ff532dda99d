import RegexEngine.Regex

/-!
# Substitutes computed from groups

What takes the place of a match is often put together from fixed texts and from what the groups of
the match hold. A template lists such parts. Asking a match for a group may fail, so the first
failure is kept while matches are exchanged, and comes to light if the search itself does not fail.
-/

namespace RegexEngine

/-- A part of a substitute. -/
inductive TemplatePart where
  | text (s : String)
  | group (index : Nat)
deriving Repr, DecidableEq

namespace TemplatePart

/-- What a part stands for in a match. A group that took no part leaves a mark. -/
def expand (m : Match) : TemplatePart → Except Error String
  | .text s => .ok s
  | .group index => do return (← m.groupText index).getD "<none>"

/-- What the parts stand for in a match, one behind the other. -/
def expandAll (template : List TemplatePart) (m : Match) : Except Error String := do
  return String.join (← template.mapM (·.expand m))

/-- The substitute for a match, with the first failure so far kept aside. -/
def substitute (template : List TemplatePart) (m : Match) : StateM (Option Error) String :=
  match expandAll template m with
  | .ok s => return s
  | .error e => do
    modify fun failed => failed.or (some e)
    return ""

end TemplatePart

namespace Regex

/-- The text with every match exchanged for what the template stands for in it. -/
def replaceTemplate (re : Regex) (text : String) (template : List TemplatePart) :
    Except Error String := do
  let (replaced, failed) := (re.replaceWithM text (TemplatePart.substitute template)).run none
  let replaced ← replaced.mapError .limit
  failed.elim (.ok replaced) .error

end Regex

end RegexEngine
