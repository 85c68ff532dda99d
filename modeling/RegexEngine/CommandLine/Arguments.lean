import RegexEngine.CommandLine

/-!
# Arguments of the command line

Flags and settings in any order, each at most once. A long name stands behind two hyphens, and its
value in the next argument or behind an equals sign. Short names may stand together behind one
hyphen; a value takes all that follows its name there, with or without an equals sign, or else the
next argument. An argument that begins with a hyphen is not taken for a value. The pattern has to be
given.

This is a simplified reader. It decides which arguments are taken, but it knows nothing of asking for
help or for the version, and what it says about arguments that it refuses is only a summary.
-/

namespace RegexEngine.CommandLine

/-- What the arguments read so far ask for. -/
structure Reading where
  request : Request
  /-- The long names that have been given. -/
  given : List String

namespace Reading

def start : Reading where
  request := { pattern := "" }
  given := []

/-- The long name that a short one stands for. -/
def longName? : Char → Option String
  | 'E' => some "regexp"
  | 'i' => some "ignore-case"
  | 'o' => some "only-matching"
  | _ => none

def takesValue (name : String) : Bool :=
  ["regexp", "replace", "max-steps", "max-depth"].contains name

def unexpected (argument : String) : String := "unexpected argument '" ++ argument ++ "' found"

/-- Note that a name is given, which it may be once. -/
def note (reading : Reading) (name : String) : Except String Reading :=
  if reading.given.contains name then
    .error ("the argument '--" ++ name ++ "' cannot be used multiple times")
  else .ok { reading with given := name :: reading.given }

/-- The effect of a name that takes no value. -/
def flag (reading : Reading) (name : String) : Except String Reading := do
  let reading ← reading.note name
  match name with
  | "ignore-case" => return { reading with request.options.ignoreCase := true }
  | "only-matching" => return { reading with request.onlyMatching := true }
  | "escape" => return { reading with request.escapeOnly := true }
  | "check" => return { reading with request.checkOnly := true }
  | _ => .error (unexpected ("--" ++ name))

/-- A limit: a number below `bound` in decimal digits, with or without a sign in front. -/
def limit (bound : Nat) (value : String) : Except String Nat :=
  let digits :=
    match value.toList with
    | '+' :: digits => digits
    | digits => digits
  if digits.isEmpty || !digits.all Char.isDigit then .error ("invalid digit found in string")
  else
    let n := Nat.ofDigitChars 10 digits 0
    if n < bound then .ok n else .error ("number too large to fit in target type")

/-- The effect of a name and its value. -/
def setting (reading : Reading) (name value : String) : Except String Reading := do
  let reading ← reading.note name
  match name with
  | "regexp" => return { reading with request.pattern := value }
  | "replace" => return { reading with request.replacement := some value }
  | "max-steps" =>
    return { reading with request.options.limits.steps := ← limit UInt64.size value }
  | "max-depth" =>
    return { reading with request.options.limits.depth := ← limit UInt32.size value }
  | _ => .error (unexpected ("--" ++ name))

/-- The effect of what stands behind two hyphens; with the name, if its value is to come in the next
argument. -/
def readLong (reading : Reading) (cs : List Char) : Except String (Reading × Option String) :=
  let name := String.ofList (cs.takeWhile (· != '='))
  match cs.dropWhile (· != '=') with
  | [] =>
    if takesValue name then .ok (reading, some name)
    else do return (← reading.flag name, none)
  | _ :: value =>
    if takesValue name then do return (← reading.setting name (String.ofList value), none)
    else .error (unexpected ("--" ++ String.ofList cs))

/-- The effect of what stands behind one hyphen; with the name, if its value is to come in the next
argument. -/
def readShort (reading : Reading) : List Char → Except String (Reading × Option String)
  | [] => .ok (reading, none)
  | c :: cs =>
    match longName? c with
    | none => .error (unexpected ("-" ++ c.toString))
    | some name =>
      if takesValue name then
        match cs with
        | [] => .ok (reading, some name)
        | '=' :: value => do return (← reading.setting name (String.ofList value), none)
        | value => do return (← reading.setting name (String.ofList value), none)
      else do readShort (← reading.flag name) cs

/-- The effect of an argument that is not a value. -/
def read (reading : Reading) (argument : String) : Except String (Reading × Option String) :=
  match argument.toList with
  | '-' :: '-' :: cs => reading.readLong cs
  | '-' :: c :: cs => reading.readShort (c :: cs)
  | _ => .error (unexpected argument)

def readAll (reading : Reading) : List String → Except String Reading
  | [] => .ok reading
  | argument :: others =>
    -- two hyphens alone announce arguments that are not names, and there are none to be had
    if argument = "--" then
      match others with
      | [] => .ok reading
      | other :: _ => .error (unexpected other)
    else do
      match ← reading.read argument with
      | (reading, none) => readAll reading others
      | (reading, some name) =>
        match others with
        | value :: others =>
          if value.startsWith "-" && value != "-" then
            .error ("a value is required for '--" ++ name ++ "' but none was supplied")
          else do readAll (← reading.setting name value) others
        | [] => .error ("a value is required for '--" ++ name ++ "' but none was supplied")

end Reading

/-- What the arguments ask for, or what is wrong with them. -/
def Request.ofArguments (arguments : List String) : Except String Request := do
  let reading ← Reading.start.readAll arguments
  if reading.given.contains "regexp" then return reading.request
  else .error "the argument '--regexp <PATTERN>' is required"

/-- What the program leaves behind for its arguments and its standard input. -/
def respond (arguments : List String) (stdin : List UInt8) : Report :=
  match Request.ofArguments arguments with
  | .ok request => request.run stdin
  | .error message => ⟨2, "", "error: " ++ message ++ "\n"⟩

end RegexEngine.CommandLine
