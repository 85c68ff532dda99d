import Mathlib
import RegexEngine.Pattern.Reader
import RegexEngine.Proofs.Code.Origins

/-!
# Ceilings of the compiler

Writing a node takes as many instructions as its size says, and visits as many nodes as
`Node.visits` counts: the node and those below it, with every copy that a repetition makes. Both are
known before anything is written, so it does not matter where in the pass a ceiling is hit: a
pattern is compiled exactly if neither is too low for the whole of it
(`Pattern.compile_within_ceilings`). What branches take is given in closed form by
`Node.choiceSize_eq`.

What the two meters show after a part of the pass, or that one of them has hit its ceiling, is
`Emitter.Charged`; charges of parts add up (`Emitter.Charged.bind`).
-/

namespace RegexEngine

/-- How many times the body of a repetition is written: the required copies, and the optional ones
or the one inside of the loop. -/
def Quantifier.writings (q : Quantifier) : Nat :=
  q.min +
    match q.max with
    | none => 1
    | some max => max - q.min

namespace Node

mutual

/-- How many nodes are visited when a node is written. -/
def visits : Node → Nat
  | sequence parts => 1 + visitsOfAll parts
  | choice branches => 1 + visitsOfAll branches
  | repeated body q => 1 + if body.emitsNothing then 0 else q.writings * visits body
  | group body | capture _ body | look _ body => 1 + visits body
  | char _ | any | oneOf _ | backreference _ | atStart | atEnd => 1

def visitsOfAll : List Node → Nat
  | [] => 0
  | node :: nodes => visits node + visitsOfAll nodes

end

/-- Branches take what each of them takes, and a split and a jump for each but one. -/
theorem choiceSize_eq (branches : List Node) :
    choiceSize branches = (branches.map size).sum + 2 * (branches.length - 1) := by
  induction branches with
  | nil => rfl
  | cons node branches ih =>
    cases branches with
    | nil => simp [choiceSize]
    | cons other branches =>
      rw [choiceSize, ih]
      simp
      omega

end Node

/-! ## Charges -/

namespace Emitter

/-- Says that neither meter is above its ceiling. -/
structure Within (e : Emitter) : Prop where
  length : e.code.size ≤ maxProgramLength
  visits : e.visits ≤ maxCompileVisits

/-- Says what comes of a part of the pass that begins at `e`, takes `length` instructions and visits
`visits` nodes: it comes to its end if both fit below the ceilings, and is given up if not. -/
inductive Charged (e : Emitter) (length visits : Nat) : Except PatternError Emitter → Prop where
  | written {e' : Emitter} (within : e'.Within) (length_eq : e'.code.size = e.code.size + length)
    (visits_eq : e'.visits = e.visits + visits) : Charged e length visits (.ok e')
  | tooLarge (above : maxProgramLength < e.code.size + length ∨
      maxCompileVisits < e.visits + visits) : Charged e length visits (.error ⟨.tooLarge, 0⟩)

variable {e : Emitter} {length length' visits visits' : Nat} {result : Except PatternError Emitter}

theorem charged_ok (h : e.Within) : Charged e 0 0 (.ok e) := .written h rfl rfl

theorem charged_push (h : e.Within) (inst : Inst) : Charged e 1 0 (e.push inst) := by
  unfold push
  split
  · rename_i room
    have size : (e.code.push inst).size = e.code.size + 1 := Array.size_push ..
    exact .written ⟨by dsimp only; omega, h.visits⟩ size rfl
  · exact .tooLarge (.inl (by omega))

theorem charged_visit (h : e.Within) : Charged e 0 1 e.visit := by
  unfold visit
  split
  · rename_i room
    exact .written ⟨h.length, room⟩ rfl rfl
  · exact .tooLarge (.inr (by omega))

/-- Handing out a register is not charged. -/
theorem Charged.of_allocate (h : Charged e.allocate length visits result) :
    Charged e length visits result := by
  cases h with
  | written within length_eq visits_eq => exact .written within length_eq visits_eq
  | tooLarge above => exact .tooLarge above

theorem Charged.congr (h : Charged e length visits result) (length_eq : length = length')
    (visits_eq : visits = visits') : Charged e length' visits' result :=
  length_eq ▸ visits_eq ▸ h

/-- What parts are charged adds up. -/
theorem Charged.bind {next : Emitter → Except PatternError Emitter}
    (h : Charged e length visits result)
    (rest : ∀ e', e'.Within → Charged e' length' visits' (next e')) :
    Charged e (length + length') (visits + visits') (result >>= next) := by
  cases h with
  | tooLarge above => exact .tooLarge (by omega)
  | @written e' within length_eq visits_eq =>
    have behind := rest e' within
    change Charged e _ _ (next e')
    generalize next e' = last at behind ⊢
    cases behind with
    | written within' length_eq' visits_eq' => exact .written within' (by omega) (by omega)
    | tooLarge above => exact .tooLarge (by omega)

theorem charged_times {write : Emitter → Except PatternError Emitter}
    (once : ∀ e, e.Within → Charged e length visits (write e)) (n : Nat) (h : e.Within) :
    Charged e (n * length) (n * visits) (times write n e) := by
  induction n generalizing e with
  | zero =>
    rw [Nat.zero_mul, Nat.zero_mul]
    exact charged_ok h
  | succ n ih =>
    rw [Nat.succ_mul, Nat.succ_mul, Nat.add_comm _ length, Nat.add_comm _ visits]
    exact (once e h).bind fun _ => ih

end Emitter

namespace Node

open Emitter

variable {e : Emitter}

theorem charged_leaf (h : e.Within) (inst : Inst) :
    Charged e 1 1 (do (← e.visit).push inst) :=
  (charged_visit h).bind fun _ within => charged_push within inst

/-- A body between an instruction that opens it and one that closes it. -/
theorem charged_enclosed {body : Node}
    (once : ∀ e, e.Within → Charged e body.size body.visits (body.emit e))
    (opening closing : Inst) (h : e.Within) :
    Charged e (body.size + 2) body.visits (do
      let e ← e.push opening
      (← body.emit e).push closing) := by
  have whole := (charged_push h opening).bind fun e₁ h₁ =>
    (once e₁ h₁).bind fun e₂ h₂ => charged_push h₂ closing
  exact whole.congr (by omega) (by omega)

/-- A loop is its split, the guards of its rounds and its jump around one copy of the body. -/
theorem charged_loop {body : Node}
    (once : ∀ e, e.Within → Charged e body.size body.visits (body.emit e))
    (greedy : Bool) (start exit : Nat) (h : e.Within) :
    Charged e (body.size + guardSize body.nullable + 2) body.visits (do
      let e ← e.push (.choose greedy (start + 1) exit)
      if body.nullable then
        let register := e.registers
        let e ← e.allocate.push (.mark register)
        let e ← (← body.emit e).push (.check register)
        e.push (.jump start)
      else
        (← body.emit e).push (.jump start)) := by
  cases body.nullable with
  | true =>
    have whole := (charged_push h (.choose greedy (start + 1) exit)).bind fun e₁ h₁ =>
      (charged_push (e := e₁.allocate) ⟨h₁.length, h₁.visits⟩ (.mark e₁.registers)).of_allocate.bind
        fun e₂ h₂ => (once e₂ h₂).bind
          fun e₃ h₃ => (charged_push h₃ (.check e₁.registers)).bind
            fun e₄ h₄ => charged_push h₄ (.jump start)
    simp only [if_true]
    exact whole.congr (by rw [guardSize, if_pos rfl]; omega) (by omega)
  | false =>
    simp only [Bool.false_eq_true, if_false]
    exact charged_enclosed once (.choose greedy (start + 1) exit) (.jump start) h

mutual

/-- Writing a node is charged its size and its visits. -/
theorem charged_emit (node : Node) (e : Emitter) (h : e.Within) :
    Charged e node.size node.visits (node.emit e) := by
  match node with
  | char _ | any | oneOf _ | backreference _ | atStart | atEnd => exact charged_leaf h _
  | sequence parts =>
    have whole := (charged_visit h).bind (charged_emitSequence parts)
    exact whole.congr (by rw [size]; omega) (by rw [visits])
  | choice branches =>
    have whole := (charged_visit h).bind fun e₁ =>
      charged_emitChoice (e₁.pc + (choiceShape branches).size) branches e₁
    exact whole.congr (by rw [size]; omega) (by rw [visits])
  | group body =>
    have whole := (charged_visit h).bind (charged_emit body)
    exact whole.congr (by rw [size]; omega) (by rw [visits])
  | capture index body =>
    have whole := (charged_visit h).bind fun e₁ h₁ =>
      charged_enclosed (charged_emit body) (.save (2 * index)) (.save (2 * index + 1)) h₁
    exact whole.congr (by rw [size]; omega) (by rw [visits])
  | look positive body =>
    have whole := (charged_visit h).bind fun e₁ h₁ => charged_enclosed (charged_emit body)
      (.enter positive (e₁.pc + body.shape.size + 2)) .leave h₁
    exact whole.congr (by rw [size]; omega) (by rw [visits])
  | repeated body q =>
    have once := charged_emit body
    have required (e₁ : Emitter) (h₁ : e₁.Within) :
        Charged e₁ (q.min * body.size) (q.min * body.visits) (times body.emit q.min e₁) :=
      charged_times once q.min h₁
    simp only [emit, shape_eq, size, visits, Quantifier.codeSize, Quantifier.writings]
    cases body.emitsNothing with
    | true =>
      simp only [if_true]
      exact ((charged_visit h).bind fun e₁ h₁ => charged_ok h₁)
    | false =>
      simp only [Bool.false_eq_true, if_false]
      cases q.max with
      | some max =>
        dsimp only
        have optional (exit : Nat) (e₁ : Emitter) (h₁ : e₁.Within) :
            Charged e₁ (1 + body.size) (0 + body.visits)
              (do body.emit (← e₁.push (.choose q.greedy (e₁.pc + 1) exit))) :=
          (charged_push h₁ _).bind once
        have whole := (charged_visit h).bind fun e₁ h₁ => (required e₁ h₁).bind fun e₂ h₂ =>
          charged_times (optional (e₂.pc + (max - q.min) * (body.size + 1))) (max - q.min) h₂
        exact whole.congr (by rw [Nat.add_comm 1]; omega)
          (by rw [Nat.add_mul, Nat.zero_add body.visits])
      | none =>
        dsimp only
        have whole := (charged_visit h).bind fun e₁ h₁ => (required e₁ h₁).bind fun e₂ h₂ =>
          charged_loop once q.greedy e₂.pc (e₂.pc + body.size + guardSize body.nullable + 2) h₂
        exact whole.congr (Nat.zero_add _) (by rw [Nat.add_mul, Nat.one_mul])

theorem charged_emitSequence (nodes : List Node) (e : Emitter) (h : e.Within) :
    Charged e (sequenceSize nodes) (visitsOfAll nodes) (emitSequence nodes e) := by
  match nodes with
  | [] => exact charged_ok h
  | node :: nodes => exact (charged_emit node e h).bind (charged_emitSequence nodes)

theorem charged_emitChoice (exit : Nat) (nodes : List Node) (e : Emitter) (h : e.Within) :
    Charged e (choiceSize nodes) (visitsOfAll nodes) (emitChoice exit nodes e) := by
  match nodes with
  | [] => exact charged_ok h
  | [node] => exact charged_emit node e h
  | node :: other :: nodes =>
    have whole := (charged_push h (.split (e.pc + 1) (e.pc + node.shape.size + 2))).bind
      fun e₁ h₁ => (charged_emit node e₁ h₁).bind
        fun e₂ h₂ => (charged_push h₂ (.jump exit)).bind (charged_emitChoice exit (other :: nodes))
    exact whole.congr (by rw [choiceSize]; omega) (by simp only [visitsOfAll]; omega)

end

end Node

/-! ## Whole programs -/

namespace Pattern

/-- A pattern is compiled or it is too large, depending on its size and its visits only. -/
theorem compile_cases (pattern : Pattern) (ignoreCase : Bool) :
    ((∃ program, pattern.compile ignoreCase = .ok program) ∧
        pattern.root.size + 1 ≤ maxProgramLength ∧ pattern.root.visits ≤ maxCompileVisits) ∨
      (pattern.compile ignoreCase = .error ⟨.tooLarge, 0⟩ ∧
        (maxProgramLength < pattern.root.size + 1 ∨ maxCompileVisits < pattern.root.visits)) := by
  have whole := (Node.charged_emit pattern.root .empty ⟨Nat.zero_le _, Nat.zero_le _⟩).bind
    fun e h => Emitter.charged_push h .accept
  unfold compile
  rw [← bind_assoc]
  have unwritten : Emitter.empty.code.size = 0 := rfl
  have unvisited : Emitter.empty.visits = 0 := rfl
  generalize (pattern.root.emit .empty >>= fun e => e.push .accept) = result at whole ⊢
  cases whole with
  | @written e within length_eq visits_eq =>
    have length := within.length
    have visits := within.visits
    exact .inl ⟨⟨_, rfl⟩, by omega, by omega⟩
  | tooLarge above => exact .inr ⟨rfl, by omega⟩

/-- The ceilings are exact: a pattern is compiled if its code and the instruction behind it that
accepts fit into a program and its nodes can all be visited, and it is too large otherwise. -/
theorem compile_within_ceilings (pattern : Pattern) (ignoreCase : Bool) :
    ((∃ program, pattern.compile ignoreCase = .ok program ∧
        program.code.size = pattern.root.size + 1 ∧
        ∀ pc, program.code[pc]? = some .accept ↔ pc = pattern.root.size) ↔
      pattern.root.size + 1 ≤ maxProgramLength ∧ pattern.root.visits ≤ maxCompileVisits) ∧
    (pattern.compile ignoreCase = .error ⟨.tooLarge, 0⟩ ↔
      ¬ (pattern.root.size + 1 ≤ maxProgramLength ∧ pattern.root.visits ≤ maxCompileVisits)) := by
  rcases compile_cases pattern ignoreCase with ⟨⟨program, compiled⟩, fits⟩ | ⟨failed, above⟩
  · have made := size_of_compile compiled
    have accepts (pc : Nat) : program.code[pc]? = some .accept ↔ pc = pattern.root.size :=
      accept_of_compile_iff compiled
    refine ⟨iff_of_true ⟨program, compiled, made, accepts⟩ fits, iff_of_false ?_ (not_not.2 fits)⟩
    rw [compiled]
    exact nofun
  · have large : ¬ (pattern.root.size + 1 ≤ maxProgramLength ∧
        pattern.root.visits ≤ maxCompileVisits) := by omega
    refine ⟨iff_of_false ?_ large, iff_of_true failed large⟩
    rintro ⟨program, compiled, -⟩
    rw [failed] at compiled
    cases compiled

/-- One more copy of a character is one too many. -/
theorem compile_within_ceilings_at_the_most :
    ∃ full large, Pattern.parse "(?:a{1000}){199}a{999}" = .ok full ∧
      Pattern.parse "(?:a{1000}){199}a{1000}" = .ok large ∧
      (∃ program, full.compile false = .ok program ∧ program.code.size = maxProgramLength) ∧
      large.compile false = .error ⟨.tooLarge, 0⟩ := by
  let times (n : Nat) (node : Node) : Node := .repeated node ⟨n, some n, true⟩
  let first : Node := times 199 (.group (.sequence [times 1000 (.char 'a')]))
  let full : Pattern := ⟨.sequence [first, times 999 (.char 'a')], 0⟩
  let large : Pattern := ⟨.sequence [first, times 1000 (.char 'a')], 0⟩
  refine ⟨full, large, by cbv, by cbv, ?_, ?_⟩
  · obtain ⟨program, compiled, size, -⟩ :=
      (compile_within_ceilings full false).1.2 ⟨by decide, by decide⟩
    exact ⟨program, compiled, size⟩
  · exact (compile_within_ceilings large false).2.2 (by decide)

end Pattern

end RegexEngine
