import RegexEngine.Pattern.Literal
import RegexEngine.Regex

/-!
# The command line

Searches the lines of a text. A line is printed if it matches; instead, only its matches may be
printed, or every line with its matches replaced. The result is 0 if some line has a match, 1 if
none has and 2 after an error, which ends the search.
-/

namespace RegexEngine.CommandLine

def programName : String := "regvm"

structure Request where
  pattern : String
  options : Options := {}
  /-- Print the parts of a line that match. -/
  onlyMatching : Bool := false
  /-- Print every line with its matches replaced by this text. -/
  replacement : Option String := none
  /-- Print the pattern with its metacharacters escaped, and nothing else. -/
  escapeOnly : Bool := false
  checkOnly : Bool := false

/-- What the program leaves behind. -/
structure Report where
  exit : Nat
  stdout : String
  stderr : String
deriving Repr, DecidableEq

inductive Mode where
  | matching
  /-- Its matches are printed, each on a line; empty ones count but are not shown. -/
  | onlyMatches
  | replacing (text : String)

structure Answer where
  output : String
  matched : Bool
  error : Option LimitError

namespace Answer

def failed (e : LimitError) : Answer := ⟨"", false, some e⟩

/-- Add what comes of one more match of the line. -/
def addMatch (answer : Answer) : Except LimitError Match → Answer
  | .error e => { answer with error := some e }
  | .ok m =>
    { answer with
      matched := true
      output := if m.whole.isEmpty then answer.output else answer.output ++ m.whole.text ++ "\n" }

end Answer

/-- The line with every match replaced by the text, and whether there has been one: that is noted
whenever the text is asked for. -/
def replaceLine (re : Regex) (line text : String) : Except LimitError (String × Bool) :=
  let note (_ : Match) : StateM Bool String := do
    set true
    return text
  let (replaced, hit) := (re.replaceWithM line note).run false
  replaced.map fun replaced => (replaced, hit)

def Mode.answer (re : Regex) (line : String) : Mode → Answer
  | .matching =>
    match re.isMatch line with
    | .error e => .failed e
    | .ok matched => ⟨if matched then line ++ "\n" else "", matched, none⟩
  | .onlyMatches => (re.findAll line).foldl Answer.addMatch ⟨"", false, none⟩
  | .replacing text =>
    match replaceLine re line text with
    | .error e => .failed e
    | .ok (replaced, hit) => ⟨replaced ++ "\n", hit, none⟩

/-! ## Lines -/

/-- The lines of a text, `current` being the bytes read of the first line, the latest first. A line
ends with a line feed, before which one carriage return is dropped; what follows the last line feed
is a line of its own unless it is empty. -/
def linesFrom (current : List UInt8) : List UInt8 → List (List UInt8)
  | [] => if current.isEmpty then [] else [current.reverse]
  | byte :: bytes =>
    if byte = 10 then
      (match current with
        | 13 :: line => line.reverse
        | line => line.reverse) :: linesFrom [] bytes
    else
      linesFrom (byte :: current) bytes

def lines (bytes : List UInt8) : List (List UInt8) := linesFrom [] bytes

/-- The text that bytes stand for, if they are UTF-8. -/
def decode? (bytes : List UInt8) : Option String := String.fromUTF8? ⟨bytes.toArray⟩

/-- An error that ends the program. -/
def abort (stdout message : String) : Report :=
  ⟨2, stdout, programName ++ ": " ++ message ++ "\n"⟩

/-- Search lines, the first of which has the given number, after some have been searched. -/
def searchLines (re : Regex) (mode : Mode) (number : Nat) (matched : Bool) (printed : String) :
    List (List UInt8) → Report
  | [] => ⟨if matched then 0 else 1, printed, ""⟩
  | bytes :: others =>
    match decode? bytes with
    | none => abort printed "failed to read stdin: stream did not contain valid UTF-8"
    | some line =>
      let answer := mode.answer re line
      match answer.error with
      | some e =>
        abort (printed ++ answer.output) ("line " ++ toString number ++ ": " ++ e.message)
      | none =>
        searchLines re mode (number + 1) (matched || answer.matched) (printed ++ answer.output)
          others

/-! ## Requests -/

/-- What is said about a request for two things that exclude each other. -/
def conflictMessage : String :=
  "error: the argument '--only-matching' cannot be used with '--replace <TEXT>'\n\n" ++
  "Usage: " ++ programName ++ " --regexp <PATTERN> --only-matching\n\n" ++
  "For more information, try '--help'.\n"

namespace Request

def mode (request : Request) : Mode :=
  match request.replacement with
  | some text => .replacing text
  | none => if request.onlyMatching then .onlyMatches else .matching

def check (request : Request) : Report :=
  match Regex.compile request.pattern request.options with
  | .ok _ => ⟨0, "", ""⟩
  | .error e => ⟨1, "", e.cause.code.message ++ ": " ++ e.message ++ "\n"⟩

def search (request : Request) (stdin : List UInt8) : Report :=
  match Regex.compile request.pattern request.options with
  | .error e =>
    abort "" ("invalid pattern " ++ Quoted.text request.pattern ++ ": " ++ e.message)
  | .ok re => searchLines re request.mode 1 false "" (lines stdin)

def run (request : Request) (stdin : List UInt8) : Report :=
  if request.onlyMatching && request.replacement.isSome then ⟨2, "", conflictMessage⟩
  else if request.escapeOnly then ⟨0, Pattern.escape request.pattern ++ "\n", ""⟩
  else if request.checkOnly then request.check
  else request.search stdin

end Request

end RegexEngine.CommandLine
