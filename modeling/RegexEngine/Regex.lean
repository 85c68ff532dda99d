import RegexEngine.Error
import RegexEngine.Pattern.Reader
import RegexEngine.Program.Emitter
import RegexEngine.Search.Replacement

/-!
# Regular expressions

A pattern that has been compiled, with the options it was compiled under, and what can be done with
it: find matches, look at their groups and replace them.
-/

namespace RegexEngine

def version : String := "0.1.0"

/-- How a pattern is compiled and how far an attempt to match may go. -/
structure Options where
  ignoreCase : Bool := false
  limits : Limits := {}
deriving Repr, DecidableEq

structure Regex where
  pattern : String
  program : Program
  options : Options

namespace Regex

def compile (pattern : String) (options : Options) : Except PatternError Regex := do
  let program ← (← Pattern.parse pattern).compile options.ignoreCase
  return ⟨pattern, program, options⟩

def ofString (pattern : String) : Except PatternError Regex := compile pattern {}

/-- What is compiled has been read, and its program is that of the pattern that it was read as. -/
theorem exists_pattern_of_compile {source : String} {options : Options} {re : Regex}
    (compiled : compile source options = .ok re) :
    ∃ pattern, Pattern.parse source = .ok pattern ∧
      pattern.compile options.ignoreCase = .ok re.program := by
  obtain ⟨pattern, parsed, compiled⟩ := bind_eq_ok_iff.1 compiled
  obtain ⟨program, written, eq⟩ := bind_eq_ok_iff.1 compiled
  cases eq
  exact ⟨pattern, parsed, written⟩

/-- How many groups there are, the whole match included. -/
def groupCount (re : Regex) : Nat := re.program.groups + 1

/-- The leftmost match at or behind byte `n` of a text. -/
def findAt? (re : Regex) (text : String) (n : Nat) : Except LimitError (Option Match) :=
  re.program.findAt? re.options.limits text n

def find? (re : Regex) (text : String) : Except LimitError (Option Match) := re.findAt? text 0

def isMatch (re : Regex) (text : String) : Except LimitError Bool := do
  return (← re.find? text).isSome

/-- All matches in a text, to be taken one after the other. -/
def allMatches (re : Regex) (text : String) : Matches :=
  .ofString re.program re.options.limits text

def findAll (re : Regex) (text : String) : List (Except LimitError Match) :=
  (re.allMatches text).toList

/-- The text with every match exchanged for what `substitute` gives for it, which may have
effects. -/
def replaceWithM {μ : Type → Type} [Monad μ] (re : Regex) (text : String)
    (substitute : Match → μ String) : μ (Except LimitError String) :=
  re.program.replaceWithM re.options.limits text substitute

/-- The text with every match exchanged for what `substitute` gives for it. -/
def replaceWith (re : Regex) (text : String) (substitute : Match → String) :
    Except LimitError String :=
  re.program.replaceWith re.options.limits text substitute

/-- The text with every match exchanged for the same text, taken as it is. -/
def replace (re : Regex) (text substitute : String) : Except LimitError String :=
  re.program.replace re.options.limits text substitute

end Regex

/-- Whether a text is a pattern that can be compiled. -/
def Pattern.isValid (pattern : String) : Bool := (Regex.ofString pattern).isOk

/-- Whether a pattern, compiled under the usual options, matches somewhere in a text. -/
def isMatch (text pattern : String) : Except Error Bool := do
  let re ← (Regex.ofString pattern).mapError .pattern
  (re.isMatch text).mapError .limit

/-! ## Groups of a match -/

namespace Match

/-- The stretch that a group holds. Every number up to the highest that a pattern may use can be
asked for, whether the pattern has such a group or not. -/
def groupSpan (m : Match) (index : Nat) : Except Error (Option Span) :=
  if index ≤ maxGroups then .ok (m.group? index) else .error (.invalidGroup index)

def groupText (m : Match) (index : Nat) : Except Error (Option String) := do
  return (← m.groupSpan index).map Span.text

end Match

end RegexEngine
