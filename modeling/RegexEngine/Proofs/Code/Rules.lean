import RegexEngine.Program.Layout
import RegexEngine.Proofs.Code.Exploration
import RegexEngine.Proofs.Readings.Rounds

/-!
# Code and what it reads

`Realises` says that code, entered anywhere and with anything on the stack, explores exactly what a
function from readings to results lists. There is one rule for each way in which code is put
together and none of them looks at the whole program: instructions that read, sequences, splits,
jumps, the brackets of groups and tests, guarded rounds and loops.
-/

namespace RegexEngine.Machine.Snapshot

/-- Says that the code from `entry` to `exit` reads as `read` does and leaves alone the registers
below `low`. -/
def Realises (program : Program) (entry exit low : Nat) (read : Reading → List Reading) : Prop :=
  ∀ s : State, s.pc = entry → s.memory.registers.size = program.registers →
    Explores program exit s.stack s.looks low s.memory (read s.reading) (.running s)

variable {program : Program} {entry mid exit low high : Nat} {read next : Reading → List Reading}

theorem step_eq {s : State} {inst : Inst} (code : program.code[entry]? = some inst)
    (pc : s.pc = entry) : s.step program = s.execute program.ignoreCase inst := by
  unfold State.step
  rw [pc, code]

/-! ## Single steps -/

theorem explores_one {p : Progress} {s t : State} (leads : Leads program p (.running t))
    (pc : t.pc = exit) (stack : t.stack = s.stack) (looks : t.looks = s.looks)
    (keeps : s.memory.Keeps low t.memory) :
    Explores program exit s.stack s.looks low s.memory [t.reading] p := by
  have nothing_above : t.stack = [] ++ s.stack := stack
  refine .found leads pc nothing_above looks keeps (.exhausted ?_)
  rw [stack]
  exact .refl _

theorem explores_none {s : State} (step : s.step program = s.backtrack) :
    Explores program exit s.stack s.looks low s.memory [] (.running s) := by
  refine .exhausted (leads_step ?_)
  rw [step]
  exact s.backtrack_eq_fallBack

theorem realises_stay : Realises program entry entry low fun r => [r] := by
  intro s pc _
  exact explores_one (.refl _) pc rfl rfl (.refl _ _)

theorem realises_require {inst : Inst} {condition : Reading → Bool}
    (code : program.code[entry]? = some inst)
    (execute : ∀ s : State,
      s.execute program.ignoreCase inst = s.require (condition s.reading)) :
    Realises program entry (entry + 1) low fun r => r.require (condition r) := by
  intro s pc _
  have step := step_eq code pc
  rw [execute, State.require] at step
  unfold Reading.require
  dsimp only
  by_cases holds : condition s.reading = true
  · rw [if_pos holds] at step ⊢
    have one := explores_one (s := s) (leads_step step) (congrArg (· + 1) pc) rfl rfl (.refl low _)
    exact one
  · rw [if_neg holds] at step ⊢
    exact explores_none step

theorem realises_readChar {inst : Inst} {accepts : Char → Bool}
    (code : program.code[entry]? = some inst)
    (execute : ∀ s : State, s.execute program.ignoreCase inst = s.readChar accepts) :
    Realises program entry (entry + 1) low (Reading.readChar accepts) := by
  intro s pc _
  have step := step_eq code pc
  have here : s.reading.here = s.here := rfl
  rw [execute, State.readChar, Cursor.next?] at step
  unfold Reading.readChar
  rw [here]
  cases rest : s.here.rest with
  | nil =>
    rw [rest] at step
    exact explores_none step
  | cons c cs =>
    rw [rest] at step
    dsimp only at step ⊢
    by_cases accepted : accepts c = true
    · rw [if_pos accepted] at step ⊢
      exact explores_one (leads_step step) (congrArg (· + 1) pc) rfl rfl (.refl _ _)
    · rw [if_neg accepted] at step ⊢
      exact explores_none step

theorem readText_eq (ignoreCase : Bool) (text : List Char) (here : Cursor) :
    readText ignoreCase text here =
      let ahead := here.rest.take text.length
      if Reading.compared ignoreCase ahead = Reading.compared ignoreCase text then
        some ⟨here.offset + byteLength ahead, here.rest.drop text.length⟩
      else none := by
  induction text generalizing here with
  | nil => simp [readText]
  | cons c text ih =>
    obtain ⟨offset, rest⟩ := here
    rw [readText, Cursor.next?]
    cases rest with
    | nil => cases ignoreCase <;> simp [Reading.compared]
    | cons d rest =>
      dsimp only [Cursor.advance]
      rw [ih]
      cases ignoreCase with
      | false =>
        by_cases same : d = c
        · simp [Reading.compared, sameChar, same, Nat.add_assoc]
        · simp [Reading.compared, sameChar, same]
      | true =>
        by_cases same : CaseMapping.lower d = CaseMapping.lower c
        · simp [Reading.compared, sameChar, CaseMapping.sameLetter, same, Nat.add_assoc]
        · have differ : d ≠ c := fun eq => same (congrArg _ eq)
          simp [Reading.compared, sameChar, CaseMapping.sameLetter, same, differ]

theorem State.readGroup_eq (s : State) (ignoreCase : Bool) (i : Nat) :
    s.readGroup ignoreCase i =
      (s.memory.captures.text? i).bind fun text => readText ignoreCase text s.here := by
  unfold State.readGroup Captures.text?
  rw [Memory.span?_captures]
  cases s.memory.group? i with
  | none => rfl
  | some span =>
    dsimp only [Option.bind_eq_bind, Option.bind_some]
    split <;> rfl

theorem realises_backreference {i : Nat} (code : program.code[entry]? = some (.backreference i)) :
    Realises program entry (entry + 1) low fun r =>
      match r.captures.text? i with
      | some text => r.readCopy program.ignoreCase text
      | none => [] := by
  intro s pc _
  have step := step_eq code pc
  have captures : s.reading.captures = s.memory.captures := rfl
  dsimp only [State.execute] at step ⊢
  rw [State.readGroup_eq] at step
  rw [captures]
  cases held : s.memory.captures.text? i with
  | none =>
    rw [held] at step
    exact explores_none step
  | some text =>
    rw [held, Option.bind_some, readText_eq] at step
    unfold Reading.readCopy
    have here : s.reading.here = s.here := rfl
    dsimp only at step ⊢
    rw [here]
    split
    · rename_i same
      rw [if_pos same] at step
      exact explores_one (leads_step step) (congrArg (· + 1) pc) rfl rfl (.refl _ _)
    · rename_i differ
      rw [if_neg differ] at step
      exact explores_none step

theorem realises_saveStart {i : Nat} (code : program.code[entry]? = some (.save (2 * i))) :
    Realises program entry (entry + 1) low fun r =>
      [{ r with captures := r.captures.enter i r.here }] := by
  intro s pc _
  have step := step_eq code pc
  simp only [State.execute, State.save] at step
  rw [if_pos (Nat.mul_mod_right 2 i)] at step
  have one := explores_one (s := s) (leads_step step) (congrArg (· + 1) pc) rfl rfl
    ((Memory.keeps_setSlot low _ _ _).trans (Memory.keeps_setSlot low _ _ _))
  unfold State.reading at one ⊢
  dsimp only at one ⊢
  rwa [Memory.captures_enter] at one

theorem realises_saveStop {i : Nat} (code : program.code[entry]? = some (.save (2 * i + 1))) :
    Realises program entry (entry + 1) low fun r =>
      [{ r with captures := r.captures.leave i r.here }] := by
  intro s pc _
  have step := step_eq code pc
  simp only [State.execute, State.save] at step
  rw [if_neg (by omega)] at step
  have one := explores_one (s := s) (leads_step step) (congrArg (· + 1) pc) rfl rfl
    (Memory.keeps_setSlot low _ _ _)
  unfold State.reading at one ⊢
  dsimp only at one ⊢
  rwa [Memory.captures_leave] at one

/-! ## Putting code together -/

namespace Realises

theorem congr (h : Realises program entry exit low read) (eq : ∀ r, next r = read r) :
    Realises program entry exit low next := by
  intro s pc size
  rw [eq]
  exact h s pc size

theorem lower (h : Realises program entry exit high read) (le : low ≤ high) :
    Realises program entry exit low read := by
  intro s pc size
  exact (h s pc size).weaken le (.refl _ _)

theorem comp (first : Realises program entry mid low read)
    (second : Realises program mid exit high next) (le : low ≤ high) :
    Realises program entry exit low fun r => (read r).flatMap next := by
  intro s pc size
  apply (first s pc size).bind
  intro t pc looks keeps _
  have later := second.lower le t pc (keeps.size.trans size)
  rwa [looks] at later

/-- Nothing, however often it is asked for. -/
theorem of_idle (idle : Reading.Idle read) : Realises program entry entry low read := by
  intro s pc size
  obtain ⟨n, eq⟩ := idle s.reading
  rw [eq]
  exact (realises_stay s pc size).replicate n

end Realises

theorem realises_jump (code : program.code[entry]? = some (.jump mid))
    (rest : Realises program mid exit low read) : Realises program entry exit low read := by
  intro s _ size
  have step := step_eq code ‹s.pc = entry›
  have later := rest { s with pc := mid } rfl size
  exact later.of_leads (leads_step step)

/-- Both ways of a split, the first one first: when it is used up, the machine goes back to the
frame that the split has pushed. -/
theorem explores_split {first second : Nat} {s : State} {readings others : List Reading}
    (code : program.code[entry]? = some (.split first second)) (pc : s.pc = entry)
    (one : Explores program exit (.retry second s.here s.memory :: s.stack) s.looks low s.memory
      readings
      (.running { s with pc := first, stack := .retry second s.here s.memory :: s.stack }))
    (other : Explores program exit s.stack s.looks low s.memory others
      (.running { s with pc := second })) :
    Explores program exit s.stack s.looks low s.memory (readings ++ others) (.running s) := by
  have whole := @Explores.append program exit s.stack [.retry second s.here s.memory] s.looks low
    s.memory _ _ _ one other
  exact whole.of_leads (leads_step (step_eq code pc))

theorem realises_split {first second : Nat}
    (code : program.code[entry]? = some (.split first second))
    (one : Realises program first exit low read) (other : Realises program second exit low next) :
    Realises program entry exit low fun r => read r ++ next r := by
  intro s pc size
  apply explores_split code pc (one { s with pc := first, stack := _ } rfl size)
  exact other { s with pc := second } rfl size

theorem explores_choose {greedy : Bool} {body : Nat} {s : State} {readings : List Reading}
    (code : program.code[entry]? = some (.choose greedy body exit)) (pc : s.pc = entry)
    (further : ∀ stack, Explores program exit stack s.looks low s.memory readings
      (.running { s with pc := body, stack })) :
    Explores program exit s.stack s.looks low s.memory (Reading.prefer greedy readings s.reading)
      (.running s) := by
  have stay : ∀ stack, Explores program exit stack s.looks low s.memory [s.reading]
      (.running { s with pc := exit, stack }) := by
    intro stack
    exact @explores_one program exit low _ { s with stack } { s with pc := exit, stack } (.refl _)
      rfl rfl rfl (.refl low _)
  unfold Inst.choose at code
  unfold Reading.prefer
  cases greedy with
  | true => exact explores_split code pc (further _) (stay _)
  | false => exact explores_split code pc (stay _) (further _)

theorem realises_choose {greedy : Bool} {body : Nat}
    (code : program.code[entry]? = some (.choose greedy body exit))
    (further : Realises program body exit low read) :
    Realises program entry exit low fun r => Reading.prefer greedy (read r) r := by
  intro s pc size
  apply explores_choose code pc
  intro stack
  exact further { s with pc := body, stack } rfl size

theorem realises_capture {i : Nat} (start : program.code[entry]? = some (.save (2 * i)))
    (body : Realises program (entry + 1) exit low read)
    (stop : program.code[exit]? = some (.save (2 * i + 1))) :
    Realises program entry (exit + 1) low fun r =>
      (read { r with captures := r.captures.enter i r.here }).map fun s =>
        { s with captures := s.captures.leave i s.here } := by
  have whole := ((realises_saveStart start).comp body (Nat.le_refl _)).comp
    (realises_saveStop stop) (Nat.le_refl low)
  apply whole.congr
  intro r
  rw [List.flatMap_singleton, List.map_eq_flatMap]

/-! ## Tests

The body of a test is entered with the test's own frame below it. Either the body is never left, and
going back takes that frame off; or it is left with its first result, and the stack is cut at the
frame, whatever alternatives lie above.
-/

theorem enter_step {positive : Bool} {resume : Nat} {s : State} (pc : s.pc = entry)
    (code : program.code[entry]? = some (.enter positive resume)) :
    Leads program (.running s) (.running (s.enter positive resume)) :=
  leads_step (step_eq code pc)

theorem leave_step {positive : Bool} {resume : Nat} {s t : State} {above : List Frame}
    (code : program.code[exit]? = some .leave) (pc : t.pc = exit)
    (stack : t.stack = above ++ .look positive resume s.here s.memory :: s.stack)
    (looks : t.looks = s.stack.length :: s.looks) :
    Leads program (.running t)
      (if positive then
        .running { t with pc := resume, here := s.here, stack := s.stack, looks := s.looks }
      else State.fallBack s.stack s.looks) :=
  leads_step ((step_eq code pc).trans (State.leave_eq stack looks))

theorem realises_lookTrue (enter : program.code[entry]? = some (.enter true (exit + 1)))
    (body : Realises program (entry + 1) exit low read)
    (leave : program.code[exit]? = some .leave) :
    Realises program entry (exit + 1) low fun r =>
      (read r).head?.toList.map fun s => { s with here := r.here } := by
  intro s pc size
  have inner := (body (s.enter true (exit + 1)) (congrArg (· + 1) pc) size).of_leads
    (enter_step pc enter)
  have same : (s.enter true (exit + 1)).reading = s.reading := rfl
  rw [same] at inner
  dsimp only
  cases results : read s.reading with
  | nil =>
    rw [results] at inner
    exact .exhausted inner.leads_of_nil
  | cons r others =>
    rw [results] at inner
    obtain ⟨t, above, leads, pc, stack, looks, keeps, rfl⟩ := inner.exists_of_cons
    have left := leads.trans (leave_step leave pc stack looks)
    rw [if_pos rfl] at left
    have one := explores_one (s := s) left rfl rfl rfl keeps
    exact one

theorem realises_lookFalse (enter : program.code[entry]? = some (.enter false (exit + 1)))
    (body : Realises program (entry + 1) exit low read)
    (leave : program.code[exit]? = some .leave) :
    Realises program entry (exit + 1) low fun r => r.require (read r).isEmpty := by
  intro s pc size
  have inner := (body (s.enter false (exit + 1)) (congrArg (· + 1) pc) size).of_leads
    (enter_step pc enter)
  have same : (s.enter false (exit + 1)).reading = s.reading := rfl
  rw [same] at inner
  unfold Reading.require
  dsimp only
  cases results : read s.reading with
  | nil =>
    rw [results] at inner
    have one := explores_one (s := s) inner.leads_of_nil rfl rfl rfl (.refl low _)
    exact one
  | cons r others =>
    rw [results] at inner
    obtain ⟨t, above, leads, pc, stack, looks, -, -⟩ := inner.exists_of_cons
    have left := leads.trans (leave_step leave pc stack looks)
    rw [if_neg Bool.false_ne_true] at left
    exact .exhausted left

/-! ## Loops -/

/-- A check lets on who has moved since the position that its register holds. -/
theorem explores_check {register : Nat} {r : Reading} {s : State}
    (code : program.code[entry]? = some (.check register)) (pc : s.pc = entry)
    (held : s.memory.register register = r.here.offset) (reaches : r.here.Reaches s.here) :
    Explores program (entry + 1) s.stack s.looks low s.memory ([s.reading].filter r.movedFrom)
      (.running s) := by
  have step := step_eq code pc
  have moved : r.movedFrom s.reading = (s.here.offset != r.here.offset) := by
    rw [Bool.eq_iff_iff, bne_iff_ne]
    exact Reading.movedFrom_iff reaches
  rw [State.execute, held, ← moved, State.require] at step
  cases hm : r.movedFrom s.reading with
  | true =>
    rw [hm, if_pos rfl] at step
    rw [List.filter_cons_of_pos hm, List.filter_nil]
    have one := explores_one (s := s) (leads_step step) (congrArg (· + 1) pc) rfl rfl (.refl low _)
    exact one
  | false =>
    rw [hm, if_neg Bool.false_ne_true] at step
    rw [List.filter_cons_of_neg (Bool.eq_false_iff.1 hm), List.filter_nil]
    exact explores_none step

/-- A round between a mark and its check: results at the position that was marked are dropped. The
body uses registers behind the mark's own, so the check finds what the mark has noted. -/
theorem realises_guarded {register : Nat} (inside : register < program.registers)
    (mark : program.code[entry]? = some (.mark register))
    (body : Realises program (entry + 1) exit (register + 1) read) (forward : Reading.Forward read)
    (check : program.code[exit]? = some (.check register)) :
    Realises program entry (exit + 1) register fun r => (read r).filter r.movedFrom := by
  intro s pc size
  have marked := leads_step (step_eq mark pc)
  obtain ⟨m, hm⟩ : ∃ m, m = s.memory.setRegister register s.here.offset := ⟨_, rfl⟩
  rw [State.execute, ← hm] at marked
  have entered : m.registers.size = program.registers := by
    rw [hm]
    exact Array.size_setIfInBounds.trans size
  have noted : m.register register = s.here.offset := by
    rw [hm, Memory.register_setRegister, if_pos ⟨rfl, size ▸ inside⟩]
  have kept : s.memory.Keeps register m := hm ▸ Memory.keeps_setRegister _ (Nat.le_refl _) _
  have inner := body ⟨s.pc + 1, s.here, m, s.stack, s.looks⟩ (congrArg (· + 1) pc) entered
  have same : State.reading ⟨s.pc + 1, s.here, m, s.stack, s.looks⟩ = s.reading := by
    rw [hm]
    rfl
  rw [same] at inner
  -- the body keeps the registers up to its own mark, so the check reads what was marked
  have checked : Explores program (exit + 1) s.stack s.looks (register + 1) m
      ((read s.reading).flatMap fun t => [t].filter s.reading.movedFrom) (.running s) := by
    apply (inner.of_leads marked).bind
    intro t pc looks keeps mem
    have held := (keeps.register register (Nat.lt_succ_self register)).trans noted
    have moved : Explores program (exit + 1) t.stack t.looks (register + 1) t.memory _ _ :=
      explores_check check pc held (forward s.reading t.reading mem)
    rwa [looks] at moved
  rw [← List.filter_flatMap, List.flatMap_singleton'] at checked
  exact checked.weaken (Nat.le_succ register) kept

/-- A loop goes on from every round that has read something; it comes to an end because less text is
left each time. -/
theorem realises_loop {greedy : Bool} (code : program.code[entry]? = some (.choose greedy mid exit))
    (round : Realises program mid entry low fun r => (read r).filter r.movedFrom) :
    Realises program entry exit low (Reading.loop read greedy) := by
  intro s pc size
  induction len : s.here.rest.length using Nat.strongRecOn generalizing s with
  | _ n ih =>
    rw [Reading.loop_eq]
    apply explores_choose code pc
    intro stack
    apply (round { s with pc := mid, stack } rfl size).bind
    intro t pc looks keeps mem
    -- the choice comes again with less text left
    have moved := of_decide_eq_true (List.mem_filter.1 mem).2
    have later := ih _ (len ▸ moved) t pc (keeps.size.trans size) rfl
    rwa [looks] at later

end RegexEngine.Machine.Snapshot
