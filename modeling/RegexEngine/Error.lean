import RegexEngine.Machine.Run
import RegexEngine.Pattern.Error

/-!
# Errors

Everything that can go wrong when patterns are compiled, texts searched and matches looked at, in
words and as a short table of numbered codes.
-/

namespace RegexEngine

def LimitError.message : LimitError → String
  | .steps limit => "step limit of " ++ toString limit ++ " exceeded"
  | .depth limit => "backtracking depth limit of " ++ toString limit ++ " exceeded"

inductive Error where
  | pattern (e : PatternError)
  | limit (e : LimitError)
  /-- A group is asked for that no pattern can have. -/
  | invalidGroup (index : Nat)
  | outOfMemory
deriving Repr, DecidableEq

inductive ErrorCode where
  | noError
  | malformed
  | outOfMemory
  | depthLimit
  | stepLimit
  | invalidGroup
  | unmatchedParenthesis
  | invalidRange
  | unknown
deriving Repr, DecidableEq

namespace ErrorCode

/-- All codes in the order of their numbers. -/
def all : List ErrorCode :=
  [.noError, .malformed, .outOfMemory, .depthLimit, .stepLimit, .invalidGroup,
   .unmatchedParenthesis, .invalidRange, .unknown]

/-- The place of a code in the table. -/
def number (code : ErrorCode) : Nat := all.idxOf code

def message : ErrorCode → String
  | .noError => "no error"
  | .malformed => "syntax error in pattern"
  | .outOfMemory => "memory allocation failed"
  | .depthLimit => "recursion depth limit exceeded"
  | .stepLimit => "execution step limit exceeded"
  | .invalidGroup => "invalid group number"
  | .unmatchedParenthesis => "unmatched parenthesis"
  | .invalidRange => "invalid character range"
  | .unknown => "unknown error"

end ErrorCode

def PatternError.Cause.code : PatternError.Cause → ErrorCode
  | .unclosedGroup | .strayClose => .unmatchedParenthesis
  | .reversedRange _ _ => .invalidRange
  | .tooManyGroups | .unknownBackreference _ => .invalidGroup
  | .danglingQuantifier | .unknownEscape _ | .incompleteEscape | .unclosedClass | .badRepetition
  | .unknownGroup | .tooLarge => .malformed

namespace Error

def message : Error → String
  | .pattern e => e.message
  | .limit e => e.message
  | .invalidGroup index => "invalid group index " ++ toString index ++ " (expected 0-9)"
  | .outOfMemory => "out of memory"

def code : Error → ErrorCode
  | .pattern e => e.cause.code
  | .limit (.steps _) => .stepLimit
  | .limit (.depth _) => .depthLimit
  | .invalidGroup _ => .invalidGroup
  | .outOfMemory => .outOfMemory

def isPatternError : Error → Bool
  | .pattern _ => true
  | _ => false

end Error

end RegexEngine
