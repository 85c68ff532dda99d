import Mathlib
import RegexEngine.CommandLine.Arguments

/-!
# Arguments for a request

Every request can be asked for. All that it asks for is a list of choices, each of which can be
spelled as one argument. The reader takes such arguments as long as none comes twice
(`Reading.readAll_arguments`), and their order makes no difference (`Request.ofArguments_of_perm`).
-/

namespace RegexEngine.CommandLine

/-- One thing that arguments may ask for. -/
inductive Choice where
  | pattern (text : String)
  | replacement (text : String)
  | steps (n : Nat)
  | depth (n : Nat)
  | ignoreCase
  | onlyMatching
  | escapeOnly
  | checkOnly

namespace Choice

def name : Choice → String
  | pattern _ => "regexp"
  | replacement _ => "replace"
  | steps _ => "max-steps"
  | depth _ => "max-depth"
  | ignoreCase => "ignore-case"
  | onlyMatching => "only-matching"
  | escapeOnly => "escape"
  | checkOnly => "check"

/-- What the name stands with. -/
def value? : Choice → Option String
  | pattern text | replacement text => some text
  | steps n | depth n => some (toString n)
  | ignoreCase | onlyMatching | escapeOnly | checkOnly => none

/-- The argument that makes a choice all by itself. -/
def argument (choice : Choice) : String :=
  match choice.value? with
  | none => "--" ++ choice.name
  | some value => "--" ++ choice.name ++ "=" ++ value

/-- Says that a limit is not too large to be read. -/
def Fits : Choice → Prop
  | steps n => n < UInt64.size
  | depth n => n < UInt32.size
  | _ => True

theorem takesValue_name (choice : Choice) :
    Reading.takesValue choice.name = choice.value?.isSome := by
  cases choice <;> rfl

theorem name_ne_equals (choice : Choice) : ∀ c ∈ choice.name.toList, (c != '=') = true := by
  cases choice <;> simp [name]

end Choice

/-! ## Requests by choices -/

namespace Request

/-- The request with one more thing asked for. -/
def choose (request : Request) : Choice → Request
  | .pattern text => { request with pattern := text }
  | .replacement text => { request with replacement := some text }
  | .steps n => { request with options.limits.steps := n }
  | .depth n => { request with options.limits.depth := n }
  | .ignoreCase => { request with options.ignoreCase := true }
  | .onlyMatching => { request with onlyMatching := true }
  | .escapeOnly => { request with escapeOnly := true }
  | .checkOnly => { request with checkOnly := true }

/-- Choices of different things do not get into each other's way. -/
theorem choose_right_comm {a b : Choice} (apart : a.name ≠ b.name) (request : Request) :
    (request.choose a).choose b = (request.choose b).choose a := by
  cases a <;> cases b <;> first | rfl | exact absurd rfl apart

/-- All that a request asks for. -/
def choices (request : Request) : List Choice :=
  [Choice.pattern request.pattern, Choice.steps request.options.limits.steps,
    Choice.depth request.options.limits.depth] ++
  request.replacement.toList.map Choice.replacement ++
  (if request.options.ignoreCase then [Choice.ignoreCase] else []) ++
  (if request.onlyMatching then [Choice.onlyMatching] else []) ++
  (if request.escapeOnly then [Choice.escapeOnly] else []) ++
  (if request.checkOnly then [Choice.checkOnly] else [])

theorem foldl_choose_choices (request : Request) :
    request.choices.foldl choose Reading.start.request = request := by
  obtain ⟨pattern, ⟨ignoreCase, steps, depth⟩, onlyMatching, replacement, escapeOnly, checkOnly⟩ :=
    request
  cases ignoreCase <;> cases onlyMatching <;> cases replacement <;> cases escapeOnly <;>
    cases checkOnly <;> rfl

/-- No request asks for the same thing twice. -/
theorem nodup_choices (request : Request) : (request.choices.map Choice.name).Nodup := by
  obtain ⟨pattern, ⟨ignoreCase, steps, depth⟩, onlyMatching, replacement, escapeOnly, checkOnly⟩ :=
    request
  cases ignoreCase <;> cases onlyMatching <;> cases replacement <;> cases escapeOnly <;>
    cases checkOnly <;> simp [choices, Choice.name]

theorem fits_of_mem_choices {request : Request} {choice : Choice}
    (steps : request.options.limits.steps < UInt64.size)
    (depth : request.options.limits.depth < UInt32.size) (mem : choice ∈ request.choices) :
    choice.Fits := by
  simp only [choices, List.mem_append, List.mem_cons, List.mem_map] at mem
  cases choice <;> simp_all [Choice.Fits]

end Request

/-! ## Reading what spells a choice -/

namespace Reading

variable {reading : Reading} {name value : String}

theorem note_of_not_mem (fresh : name ∉ reading.given) :
    reading.note name = .ok { reading with given := name :: reading.given } := by
  rw [note, if_neg (by rwa [List.contains_iff_mem])]

/-- A number is read back from its digits. -/
theorem limit_toString {n bound : Nat} (small : n < bound) : limit bound (toString n) = .ok n := by
  have digits : (toString n).toList = Nat.toDigits 10 n := Nat.toList_repr
  have all : (Nat.toDigits 10 n).all Char.isDigit = true :=
    List.all_eq_true.2 fun _ => Nat.isDigit_of_mem_toDigits (by decide) (by decide)
  have unsigned : ∀ ds, Nat.toDigits 10 n ≠ '+' :: ds := by
    intro ds eq
    rw [eq] at all
    exact absurd all (by simp)
  unfold limit
  rw [digits]
  split
  · next ds eq => exact absurd eq (unsigned ds)
  · simp [all, Nat.toDigits_ne_nil, Nat.ofDigitChars_toDigits, small]

/-- The effect of the name of a choice that stands alone. -/
theorem flag_name {choice : Choice} (alone : choice.value? = none)
    (fresh : choice.name ∉ reading.given) :
    reading.flag choice.name =
      .ok ⟨reading.request.choose choice, choice.name :: reading.given⟩ := by
  rw [flag, note_of_not_mem fresh]
  cases choice <;> first | rfl | cases alone

/-- The effect of the name of a choice and the value that it stands with. -/
theorem setting_name {choice : Choice} (valued : choice.value? = some value) (fits : choice.Fits)
    (fresh : choice.name ∉ reading.given) :
    reading.setting choice.name value =
      .ok ⟨reading.request.choose choice, choice.name :: reading.given⟩ := by
  rw [setting, note_of_not_mem fresh]
  cases choice with
  | pattern text | replacement text =>
    cases valued
    rfl
  | steps n | depth n =>
    cases valued
    simp only [Choice.name]
    rw [limit_toString fits]
    rfl
  | _ => cases valued

/-- The argument that spells a choice makes it, if nothing of its name has been given. -/
theorem read_argument {choice : Choice} (fits : choice.Fits) (fresh : choice.name ∉ reading.given) :
    reading.read choice.argument =
      .ok (⟨reading.request.choose choice, choice.name :: reading.given⟩, none) := by
  have takes := choice.takesValue_name
  cases written : choice.value? with
  | none =>
    have spelled : choice.argument.toList = '-' :: '-' :: choice.name.toList := by
      simp [Choice.argument, written]
    rw [read, spelled]
    change reading.readLong choice.name.toList = _
    rw [readLong, List.takeWhile_eq_self_iff.2 choice.name_ne_equals,
      List.dropWhile_eq_nil_iff.2 choice.name_ne_equals, String.ofList_toList, takes, written,
      flag_name written fresh]
    rfl
  | some value =>
    have spelled : choice.argument.toList =
        '-' :: '-' :: (choice.name.toList ++ '=' :: value.toList) := by
      simp [Choice.argument, written]
    rw [read, spelled]
    change reading.readLong (choice.name.toList ++ '=' :: value.toList) = _
    rw [readLong, List.takeWhile_append_of_pos choice.name_ne_equals,
      List.dropWhile_append_of_pos choice.name_ne_equals]
    simp [takes, written, setting_name written fits fresh]

theorem argument_ne_hyphens (choice : Choice) : choice.argument ≠ "--" := by
  intro eq
  have spelled := congrArg String.toList eq
  cases choice <;> simp [Choice.argument, Choice.value?, Choice.name] at spelled

/-- Arguments that spell choices make them one after the other, if none comes twice. -/
theorem readAll_arguments {choices : List Choice} (fits : ∀ choice ∈ choices, choice.Fits)
    (apart : (choices.map Choice.name).Nodup)
    (fresh : ∀ choice ∈ choices, choice.name ∉ reading.given) :
    reading.readAll (choices.map Choice.argument) =
      .ok ⟨choices.foldl Request.choose reading.request,
        (choices.map Choice.name).reverse ++ reading.given⟩ := by
  induction choices generalizing reading with
  | nil => rfl
  | cons choice others ih =>
    rw [List.map_cons, List.nodup_cons] at apart
    have others_fresh : ∀ other ∈ others, other.name ∉ choice.name :: reading.given := by
      intro other mem
      rw [List.mem_cons]
      rintro (same | given)
      · exact apart.1 (same ▸ List.mem_map_of_mem mem)
      · exact fresh other (List.mem_cons_of_mem _ mem) given
    rw [List.map_cons, readAll.eq_def]
    dsimp only
    rw [if_neg (argument_ne_hyphens choice),
      read_argument (fits choice List.mem_cons_self) (fresh choice List.mem_cons_self)]
    refine (ih (fun other mem => fits other (List.mem_cons_of_mem _ mem)) apart.2
      others_fresh).trans ?_
    rw [List.map_cons, List.reverse_cons, List.append_assoc]
    rfl

end Reading

/-- Every request whose limits are not too large can be asked for, in any order. -/
theorem Request.ofArguments_of_perm {request : Request} {choices : List Choice}
    (steps : request.options.limits.steps < UInt64.size)
    (depth : request.options.limits.depth < UInt32.size)
    (perm : choices.Perm request.choices) :
    Request.ofArguments (choices.map Choice.argument) = .ok request := by
  have apart : (choices.map Choice.name).Nodup :=
    (perm.map Choice.name).nodup_iff.2 request.nodup_choices
  have fits : ∀ choice ∈ choices, choice.Fits := by
    intro choice mem
    exact fits_of_mem_choices steps depth (perm.mem_iff.1 mem)
  have same : choices.foldl choose Reading.start.request = request := by
    rw [perm.foldl_eq', foldl_choose_choices]
    intro a a_mem b b_mem request
    by_cases eq : a = b
    · rw [eq]
    · exact choose_right_comm
        (fun names => eq (List.inj_on_of_nodup_map apart a_mem b_mem names)) request
  have given : "regexp" ∈ choices.map Choice.name :=
    List.mem_map.2 ⟨.pattern request.pattern, perm.mem_iff.2 (by simp [Request.choices]), rfl⟩
  rw [ofArguments, Reading.readAll_arguments fits apart (fun _ _ => List.not_mem_nil), same]
  change (if ((choices.map Choice.name).reverse ++ []).contains "regexp" then _ else _) = _
  rw [if_pos (by simpa using given)]
  rfl

end RegexEngine.CommandLine
