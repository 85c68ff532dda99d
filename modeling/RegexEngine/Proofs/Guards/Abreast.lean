import RegexEngine.Machine.Forward
import RegexEngine.Proofs.Code.Rules

/-!
# Two machines side by side

Two programs for one pattern that differ in the guards of their loops, or in the groups that they
note, are compared by running them side by side. The machines are `Abreast` between two parts of a
pattern: at the same position, with the same groups noted if these count, and with frames one above
the other in equal number. In between the second one may fall behind by instructions of its own
(`Comparison.Closed.second`).

`Comparison.Alike` says that a stretch of code of the first program goes with a stretch of the
second one. What is to be shown of the two machines is left open, as a relation `related` between
what comes of them that may be carried back over their steps (`Comparison.Closed`): it holds where
both enter the stretches, if it holds wherever both leave them and where both go back to what lay
below. There is one rule for each way in which code is put together, as for `Realises`.
-/

namespace RegexEngine.Machine

theorem Memory.group?_congr {m m' : Memory} (same : m.slots = m'.slots) (i : Nat) :
    m.group? i = m'.group? i := by
  unfold Memory.group? Memory.slot
  rw [same]

theorem Memory.keeps_of_registers {m after : Memory} (same : after.registers = m.registers)
    (low : Nat) : m.Keeps low after := by
  refine ⟨congrArg Array.size same, fun i _ => ?_⟩
  unfold Memory.register
  rw [same]

/-- A register that has been written and kept since holds what was written. -/
theorem Memory.register_of_keeps {m after : Memory} {register value : Nat}
    (inside : register < m.registers.size)
    (keeps : (m.setRegister register value).Keeps (register + 1) after) :
    after.register register = value := by
  rw [keeps.register register (Nat.lt_succ_self register), register_setRegister,
    if_pos ⟨rfl, inside⟩]

namespace Snapshot

theorem State.reaches_of_readGroup {s : State} {ignoreCase : Bool} {i : Nat} {after : Cursor}
    (h : s.readGroup ignoreCase i = some after) : s.here.Reaches after := by
  obtain ⟨span, -, h⟩ := Option.bind_eq_some_iff.1 h
  split at h
  · exact reaches_of_readText h
  · cases h

theorem State.registers_save (s : State) (slot : Nat) :
    (s.save slot).memory.registers = s.memory.registers := by
  unfold State.save
  dsimp only
  split <;> rfl

/-- Two programs, and what is to be shown of two machines that run them. -/
structure Comparison where
  first : Program
  second : Program
  /-- Whether the groups count that the machines note. -/
  noting : Prop
  related : Progress → Progress → Prop

/-- A stretch of code that leaves alone the registers below `low`. -/
structure Stretch where
  entry : Nat
  exit : Nat
  low : Nat

namespace Comparison

variable {c : Comparison} {idle : Bool} {s s' t t' u u' : State}

/-- Says that two machines are equally far: at the same position, with the same slots if these
count, and with as many frames. They may be anywhere in their code and have anything in their
registers. -/
structure Abreast (c : Comparison) (s s' : State) : Prop where
  here : s.here = s'.here
  slots : c.noting → s.memory.slots = s'.memory.slots
  height : s.stack.length = s'.stack.length
  looks : s.looks = s'.looks
  size : s.memory.registers.size = c.first.registers
  size' : s'.memory.registers.size = c.second.registers

theorem Abreast.move (h : c.Abreast s s') (pc pc' : Nat) {stack stack' : List Frame}
    (height : stack.length = stack'.length) :
    c.Abreast { s with pc, stack } { s' with pc := pc', stack := stack' } :=
  ⟨h.here, h.slots, height, h.looks, h.size, h.size'⟩

/-- Says that two machines have come from `s` and `s'` to `t` and `t'`, abreast, above what lay on
their stacks and without touching their lower registers; and that they have read something, unless
they may be `idle`. -/
structure Onward (c : Comparison) (low low' : Nat) (idle : Bool) (s s' t t' : State) : Prop where
  abreast : c.Abreast t t'
  stack : s.stack <:+ t.stack
  stack' : s'.stack <:+ t'.stack
  looks : t.looks = s.looks
  keeps : s.memory.Keeps low t.memory
  keeps' : s'.memory.Keeps low' t'.memory
  reaches : s.here.Reaches t.here
  moved : idle = false → s.here.offset < t.here.offset

/-- Says that the relation may be carried back: over one instruction of both machines, if their
stacks are equally high, or over one of the second machine. -/
structure Closed (c : Comparison) : Prop where
  both : ∀ {s s' : State} {inst : Inst}, c.first.code[s.pc]? = some inst →
    s.stack.length = s'.stack.length → c.related (s.step c.first) (s'.step c.second) →
    c.related (.running s) (.running s')
  second : ∀ {s s' : State}, s.stack.length = s'.stack.length →
    c.related (.running s) (s'.step c.second) → c.related (.running s) (.running s')

/-- Says that the machines are related where they go back. -/
def Backed (c : Comparison) (s s' : State) : Prop :=
  c.related (State.fallBack s.stack s.looks) (State.fallBack s'.stack s'.looks)

/-- Says that the machines are related wherever they come from `s` and `s'` to the exits of two
stretches. -/
def Meets (c : Comparison) (a a' : Stretch) (idle : Bool) (s s' : State) : Prop :=
  ∀ t t', t.pc = a.exit → t'.pc = a'.exit → c.Onward a.low a'.low idle s s' t t' → c.Backed t t' →
    c.related (.running t) (.running t')

/-- Says that two stretches go together, whatever comes behind them and below them. -/
def Alike (c : Comparison) (a a' : Stretch) (idle : Bool) : Prop :=
  ∀ s s', c.Abreast s s' → s.pc = a.entry → s'.pc = a'.entry → c.Backed s s' →
    c.Meets a a' idle s s' → c.related (.running s) (.running s')

/-! ## Getting on -/

namespace Onward

variable {low low' high high' : Nat} {further : Bool}

/-- Going elsewhere, with more on the stacks, is getting on. -/
theorem move (abreast : c.Abreast s s') (pc pc' : Nat) {stack stack' : List Frame}
    (height : stack.length = stack'.length) (lies : s.stack <:+ stack)
    (lies' : s'.stack <:+ stack') :
    c.Onward low low' true s s' { s with pc, stack } { s' with pc := pc', stack := stack' } :=
  ⟨abreast.move pc pc' height, lies, lies', rfl, .refl _ _, .refl _ _, .refl _, nofun⟩

theorem refl (abreast : c.Abreast s s') : c.Onward low low' true s s' s s' :=
  move abreast s.pc s'.pc abreast.height (List.suffix_refl _) (List.suffix_refl _)

theorem trans (h : c.Onward low low' idle s s' t t') (h' : c.Onward high high' further t t' u u')
    (le : low ≤ high) (le' : low' ≤ high') :
    c.Onward low low' (idle && further) s s' u u' := by
  refine ⟨h'.abreast, h.stack.trans h'.stack, h.stack'.trans h'.stack', h'.looks.trans h.looks,
    h.keeps.trans (h'.keeps.mono le), h.keeps'.trans (h'.keeps'.mono le'),
    h.reaches.trans h'.reaches, ?_⟩
  intro solid
  rcases Bool.and_eq_false_iff.1 solid with solid | solid
  · exact Nat.lt_of_lt_of_le (h.moved solid) h'.reaches.offset_le
  · exact Nat.lt_of_le_of_lt h.reaches.offset_le (h'.moved solid)

/-- What lay on the stack before something was pushed lies there still. -/
theorem below {stack stack' : List Frame} {pc pc' : Nat}
    (h : c.Onward low low' idle { s with pc, stack } { s' with pc := pc', stack := stack' } t t')
    (lies : s.stack <:+ stack) (lies' : s'.stack <:+ stack') :
    c.Onward low low' idle s s' t t' :=
  ⟨h.abreast, lies.trans h.stack, lies'.trans h.stack', h.looks, h.keeps, h.keeps', h.reaches,
    h.moved⟩

/-- Notes in higher registers do not count. -/
theorem noted {memory memory' : Memory} {pc pc' : Nat}
    (h : c.Onward high high' idle { s with pc, memory } { s' with pc := pc', memory := memory' }
      t t') (kept : s.memory.Keeps low memory) (kept' : s'.memory.Keeps low' memory')
    (le : low ≤ high) (le' : low' ≤ high') : c.Onward low low' idle s s' t t' :=
  ⟨h.abreast, h.stack, h.stack', h.looks, kept.trans (h.keeps.mono le),
    kept'.trans (h.keeps'.mono le'), h.reaches, h.moved⟩

/-- It does not matter where in their code the machines are. -/
theorem proceed (h : c.Onward low low' idle s s' t t') (pc pc' : Nat) :
    c.Onward low low' idle s s' { t with pc } { t' with pc := pc' } :=
  ⟨h.abreast.move pc pc' h.abreast.height, h.stack, h.stack', h.looks, h.keeps, h.keeps',
    h.reaches, h.moved⟩

theorem loosen (h : c.Onward low low' idle s s' t t')
    (le : further = false → idle = false) : c.Onward low low' further s s' t t' :=
  ⟨h.abreast, h.stack, h.stack', h.looks, h.keeps, h.keeps', h.reaches,
    fun solid => h.moved (le solid)⟩

end Onward

/-- Both machines execute an instruction. -/
theorem Closed.step (closed : c.Closed) (abreast : c.Abreast s s') {entry entry' : Nat}
    {inst inst' : Inst} (code : c.first.code[entry]? = some inst) (pc : s.pc = entry)
    (code' : c.second.code[entry']? = some inst') (pc' : s'.pc = entry')
    (rest : c.related (s.execute c.first.ignoreCase inst) (s'.execute c.second.ignoreCase inst')) :
    c.related (.running s) (.running s') := by
  refine closed.both (pc ▸ code) abreast.height ?_
  rw [step_eq code pc, step_eq code' pc']
  exact rest

/-! ## Single instructions -/

/-- Says that an instruction leads both machines on, to the same position and with the same slots if
these count, or makes both of them go back. -/
inductive Proceeds (noting : Prop) (idle : Bool) (s s' : State) : Progress → Progress → Prop where
  | on {here here' : Cursor} {memory memory' : Memory} (same : here = here')
    (slots : noting → memory.slots = memory'.slots)
    (registers : memory.registers = s.memory.registers)
    (registers' : memory'.registers = s'.memory.registers) (reaches : s.here.Reaches here)
    (moved : idle = false → s.here.offset < here.offset) :
    Proceeds noting idle s s' (.running { s with pc := s.pc + 1, here, memory })
      (.running { s' with pc := s'.pc + 1, here := here', memory := memory' })
  | back : Proceeds noting idle s s' s.backtrack s'.backtrack

section

variable (abreast : c.Abreast s s')
include abreast

/-- The machines go on to a position with what they have noted. -/
theorem proceeds_on {here : Cursor} (reaches : s.here.Reaches here)
    (moved : idle = false → s.here.offset < here.offset) :
    Proceeds c.noting idle s s' (.running { s with pc := s.pc + 1, here })
      (.running { s' with pc := s'.pc + 1, here }) :=
  .on rfl abreast.slots rfl rfl reaches moved

theorem proceeds_require {condition condition' : Bool} (same : condition = condition') :
    Proceeds c.noting true s s' (s.require condition) (s'.require condition') := by
  subst same
  unfold State.require
  cases condition with
  | true => exact .on abreast.here abreast.slots rfl rfl (.refl _) nofun
  | false => exact .back

theorem proceeds_readChar (accepts : Char → Bool) :
    Proceeds c.noting false s s' (s.readChar accepts) (s'.readChar accepts) := by
  unfold State.readChar
  rw [← abreast.here]
  cases next : s.here.next? with
  | none => exact .back
  | some found =>
    obtain ⟨d, after⟩ := found
    dsimp only
    by_cases accepted : accepts d = true
    · rw [if_pos accepted, if_pos accepted]
      exact proceeds_on abreast (Cursor.reaches_next next) fun _ => Cursor.offset_lt_of_next next
    · rw [if_neg accepted, if_neg accepted]
      exact .back

theorem proceeds_backreference (noting : c.noting) (ignoreCase : Bool) (i : Nat) :
    Proceeds c.noting true s s' (s.execute ignoreCase (.backreference i))
      (s'.execute ignoreCase (.backreference i)) := by
  have read : s'.readGroup ignoreCase i = s.readGroup ignoreCase i := by
    unfold State.readGroup
    rw [← abreast.here, Memory.group?_congr (abreast.slots noting)]
  dsimp only [State.execute]
  rw [read]
  cases found : s.readGroup ignoreCase i with
  | none => exact .back
  | some here => exact proceeds_on abreast (State.reaches_of_readGroup found) nofun

theorem proceeds_save (ignoreCase : Bool) (slot : Nat) :
    Proceeds c.noting true s s' (s.execute ignoreCase (.save slot))
      (s'.execute ignoreCase (.save slot)) := by
  have slots (noting : c.noting) : (s.save slot).memory.slots = (s'.save slot).memory.slots := by
    unfold State.save Memory.setSlot
    dsimp only
    rw [← abreast.here, ← abreast.slots noting]
    split <;> rfl
  exact .on abreast.here slots (s.registers_save slot) (s'.registers_save slot) (.refl _) nofun

end

section

variable {entry entry' mid mid' exit exit' low low' : Nat} (closed : c.Closed)
include closed

theorem alike_plain {inst : Inst} (code : c.first.code[entry]? = some inst)
    (code' : c.second.code[entry']? = some inst)
    (proceeds : ∀ s s', c.Abreast s s' → Proceeds c.noting idle s s'
      (s.execute c.first.ignoreCase inst) (s'.execute c.second.ignoreCase inst)) :
    c.Alike ⟨entry, entry + 1, low⟩ ⟨entry', entry' + 1, low'⟩ idle := by
  intro s s' abreast pc pc' back meets
  apply closed.step abreast code pc code' pc'
  have step := proceeds s s' abreast
  generalize s.execute c.first.ignoreCase inst = p at step ⊢
  generalize s'.execute c.second.ignoreCase inst = p' at step ⊢
  cases step with
  | @on here here' memory memory' same slots registers registers' reaches moved =>
    refine meets _ _ (congrArg (· + 1) pc) (congrArg (· + 1) pc') ?_ back
    exact ⟨⟨same, slots, abreast.height, abreast.looks,
      (congrArg Array.size registers).trans abreast.size,
      (congrArg Array.size registers').trans abreast.size'⟩, List.suffix_refl _,
      List.suffix_refl _, rfl, Memory.keeps_of_registers registers _,
      Memory.keeps_of_registers registers' _, reaches, moved⟩
  | back =>
    rw [State.backtrack_eq_fallBack, State.backtrack_eq_fallBack]
    exact back

/-! ## Putting code together -/

omit closed in
theorem alike_stay : c.Alike ⟨entry, entry, low⟩ ⟨entry', entry', low'⟩ true := by
  intro s s' abreast pc pc' back meets
  exact meets s s' pc pc' (.refl abreast) back

omit closed in
theorem Alike.comp {high high' : Nat} {further : Bool}
    (first : c.Alike ⟨entry, mid, low⟩ ⟨entry', mid', low'⟩ idle)
    (second : c.Alike ⟨mid, exit, high⟩ ⟨mid', exit', high'⟩ further) (le : low ≤ high)
    (le' : low' ≤ high') :
    c.Alike ⟨entry, exit, low⟩ ⟨entry', exit', low'⟩ (idle && further) := by
  intro s s' abreast pc pc' back meets
  refine first s s' abreast pc pc' back ?_
  intro t t' pc pc' onward back
  refine second t t' onward.abreast pc pc' back ?_
  intro u u' pc pc' later back
  exact meets u u' pc pc' (onward.trans later le le') back

omit closed in
theorem Alike.loosen {a a' : Stretch} {further : Bool} (h : c.Alike a a' idle)
    (le : further = false → idle = false) : c.Alike a a' further := by
  intro s s' abreast pc pc' back meets
  refine h s s' abreast pc pc' back ?_
  intro t t' pc pc' onward back
  exact meets t t' pc pc' (onward.loosen le) back

omit closed in
theorem Alike.lower {high high' : Nat}
    (h : c.Alike ⟨entry, exit, high⟩ ⟨entry', exit', high'⟩ idle) (le : low ≤ high)
    (le' : low' ≤ high') : c.Alike ⟨entry, exit, low⟩ ⟨entry', exit', low'⟩ idle := by
  have whole := alike_stay.comp h le le'
  exact whole

theorem alike_jump (code : c.first.code[entry]? = some (.jump mid))
    (code' : c.second.code[entry']? = some (.jump mid'))
    (rest : c.Alike ⟨mid, exit, low⟩ ⟨mid', exit', low'⟩ idle) :
    c.Alike ⟨entry, exit, low⟩ ⟨entry', exit', low'⟩ idle := by
  intro s s' abreast pc pc' back meets
  apply closed.step abreast code pc code' pc'
  refine rest _ _ (abreast.move mid mid' abreast.height) rfl rfl back ?_
  intro t t' pc pc' onward back
  exact meets t t' pc pc' (onward.below (List.suffix_refl _) (List.suffix_refl _)) back

theorem alike_save (same : c.second.ignoreCase = c.first.ignoreCase) {slot : Nat}
    (code : c.first.code[entry]? = some (.save slot))
    (code' : c.second.code[entry']? = some (.save slot)) :
    c.Alike ⟨entry, entry + 1, low⟩ ⟨entry', entry' + 1, low'⟩ true := by
  refine alike_plain closed code code' fun s s' abreast => ?_
  rw [same]
  exact proceeds_save abreast _ slot

/-- Only the second machine notes where it is. -/
theorem alike_saveSecond (free : ¬ c.noting) {slot : Nat}
    (code' : c.second.code[entry']? = some (.save slot)) :
    c.Alike ⟨entry, entry, low⟩ ⟨entry', entry' + 1, low'⟩ true := by
  intro s s' abreast pc pc' back meets
  refine closed.second abreast.height ?_
  rw [step_eq code' pc']
  have registers := s'.registers_save slot
  refine meets s _ pc (congrArg (· + 1) pc') ?_ back
  exact ⟨⟨abreast.here, fun noting => absurd noting free, abreast.height, abreast.looks,
    abreast.size, (congrArg Array.size registers).trans abreast.size'⟩, List.suffix_refl _,
    List.suffix_refl _, rfl, .refl _ _, Memory.keeps_of_registers registers _, .refl _, nofun⟩

omit closed in
/-- What is done in front of a body and behind it, without reading anything. -/
theorem Alike.enclosed {start start' stop stop' : Nat}
    (body : c.Alike ⟨start, stop, low⟩ ⟨start', stop', low'⟩ idle)
    (opens : c.Alike ⟨entry, start, low⟩ ⟨entry', start', low'⟩ true)
    (closes : c.Alike ⟨stop, exit, low⟩ ⟨stop', exit', low'⟩ true) :
    c.Alike ⟨entry, exit, low⟩ ⟨entry', exit', low'⟩ idle := by
  have whole := (opens.comp body (Nat.le_refl _) (Nat.le_refl _)).comp closes (Nat.le_refl _)
    (Nat.le_refl _)
  rw [Bool.true_and, Bool.and_true] at whole
  exact whole

theorem alike_split {one one' other other' : Nat} {further : Bool}
    (code : c.first.code[entry]? = some (.split one other))
    (code' : c.second.code[entry']? = some (.split one' other'))
    (first : c.Alike ⟨one, exit, low⟩ ⟨one', exit', low'⟩ idle)
    (second : c.Alike ⟨other, exit, low⟩ ⟨other', exit', low'⟩ further) :
    c.Alike ⟨entry, exit, low⟩ ⟨entry', exit', low'⟩ (idle || further) := by
  intro s s' abreast pc pc' back meets
  apply closed.step abreast code pc code' pc'
  -- going back takes both machines to the second way
  have waits : c.related (.running { s with pc := other }) (.running { s' with pc := other' }) := by
    refine second _ _ (abreast.move other other' abreast.height) rfl rfl back ?_
    intro t t' pc pc' onward back
    have here := onward.below (List.suffix_refl _) (List.suffix_refl _)
    exact meets t t' pc pc' (here.loosen fun solid => (Bool.or_eq_false_iff.1 solid).2) back
  refine first _ _ (abreast.move one one' (congrArg (· + 1) abreast.height)) rfl rfl waits ?_
  intro t t' pc pc' onward back
  have here := onward.below (List.suffix_cons _ _) (List.suffix_cons _ _)
  exact meets t t' pc pc' (here.loosen fun solid => (Bool.or_eq_false_iff.1 solid).1) back

/-- Either way of a choice between a body and the exit is tried first; in the body's place anything
is done that goes with any stack. -/
theorem Closed.choose (abreast : c.Abreast s s') {greedy : Bool} {body body' : Nat}
    (code : c.first.code[entry]? = some (.choose greedy body exit)) (pc : s.pc = entry)
    (code' : c.second.code[entry']? = some (.choose greedy body' exit')) (pc' : s'.pc = entry')
    (back : c.Backed s s') (meets : c.Meets ⟨entry, exit, low⟩ ⟨entry', exit', low'⟩ true s s')
    (further : ∀ stack stack', stack.length = stack'.length → s.stack <:+ stack →
      s'.stack <:+ stack' →
      c.related (State.fallBack stack s.looks) (State.fallBack stack' s'.looks) →
      c.related (.running { s with pc := body, stack })
        (.running { s' with pc := body', stack := stack' })) :
    c.related (.running s) (.running s') := by
  have leaves (stack stack' : List Frame) (height : stack.length = stack'.length)
      (lies : s.stack <:+ stack) (lies' : s'.stack <:+ stack')
      (back : c.related (State.fallBack stack s.looks) (State.fallBack stack' s'.looks)) :
      c.related (.running { s with pc := exit, stack })
        (.running { s' with pc := exit', stack := stack' }) :=
    meets _ _ rfl rfl (.move abreast exit exit' height lies lies') back
  have height := congrArg (· + 1) abreast.height
  unfold Inst.choose at code code'
  cases greedy with
  | true =>
    refine closed.step abreast code pc code' pc' ?_
    refine further _ _ height (List.suffix_cons _ _) (List.suffix_cons _ _) ?_
    exact leaves _ _ abreast.height (List.suffix_refl _) (List.suffix_refl _) back
  | false =>
    refine closed.step abreast code pc code' pc' ?_
    refine leaves _ _ height (List.suffix_cons _ _) (List.suffix_cons _ _) ?_
    exact further _ _ abreast.height (List.suffix_refl _) (List.suffix_refl _) back

theorem alike_choose {greedy : Bool} {body body' : Nat}
    (code : c.first.code[entry]? = some (.choose greedy body exit))
    (code' : c.second.code[entry']? = some (.choose greedy body' exit'))
    (further : c.Alike ⟨body, exit, low⟩ ⟨body', exit', low'⟩ idle) :
    c.Alike ⟨entry, exit, low⟩ ⟨entry', exit', low'⟩ true := by
  intro s s' abreast pc pc' back meets
  refine closed.choose abreast code pc code' pc' back meets ?_
  intro stack stack' height lies lies' back
  refine further _ _ (abreast.move body body' height) rfl rfl back ?_
  intro t t' pc pc' onward back
  exact meets t t' pc pc' ((onward.below lies lies').loosen nofun) back

/-- A loop whose rounds read something ends because less text is left each time. -/
theorem alike_loop {greedy : Bool} (code : c.first.code[entry]? = some (.choose greedy mid exit))
    (code' : c.second.code[entry']? = some (.choose greedy mid' exit'))
    (round : c.Alike ⟨mid, entry, low⟩ ⟨mid', entry', low'⟩ false) :
    c.Alike ⟨entry, exit, low⟩ ⟨entry', exit', low'⟩ true := by
  intro s s' abreast pc pc' back meets
  induction len : s.here.rest.length using Nat.strongRecOn generalizing s s' with
  | _ n ih =>
    refine closed.choose abreast code pc code' pc' back meets ?_
    intro stack stack' height lies lies' back
    refine round _ _ (abreast.move mid mid' height) rfl rfl back ?_
    intro t t' pc pc' onward back
    -- the choice comes again, with less text left
    have shorter := onward.reaches.length_rest_lt (onward.moved rfl)
    refine ih _ (len ▸ shorter) t t' onward.abreast pc pc' back ?_ rfl
    intro u u' pc pc' later back
    have whole := (onward.below lies lies').trans later (Nat.le_refl _) (Nat.le_refl _)
    exact meets u u' pc pc' (whole.loosen nofun) back

/-! ## Tests -/

/-- What a test does to its position and its stack is taken back when it is left. -/
theorem alike_look {positive : Bool}
    (enter : c.first.code[entry]? = some (.enter positive (exit + 1)))
    (enter' : c.second.code[entry']? = some (.enter positive (exit' + 1)))
    (body : c.Alike ⟨entry + 1, exit, low⟩ ⟨entry' + 1, exit', low'⟩ idle)
    (leave : c.first.code[exit]? = some .leave) (leave' : c.second.code[exit']? = some .leave) :
    c.Alike ⟨entry, exit + 1, low⟩ ⟨entry', exit' + 1, low'⟩ true := by
  intro s s' abreast pc pc' back meets
  refine closed.step abreast enter pc enter' pc' ?_
  have entered : c.Abreast (s.enter positive (exit + 1)) (s'.enter positive (exit' + 1)) := by
    have looks : s.stack.length :: s.looks = s'.stack.length :: s'.looks := by
      rw [abreast.height, abreast.looks]
    exact ⟨abreast.here, abreast.slots, congrArg (· + 1) abreast.height, looks, abreast.size,
      abreast.size'⟩
  refine body _ _ entered (congrArg (· + 1) pc) (congrArg (· + 1) pc') ?_ ?_
  · -- the body has failed
    cases positive with
    | true => exact back
    | false =>
      exact meets _ _ rfl rfl (.move abreast (exit + 1) (exit' + 1) abreast.height
        (List.suffix_refl _) (List.suffix_refl _)) back
  · -- the body has succeeded
    intro t t' pc pc' onward back_body
    obtain ⟨above, stack⟩ := onward.stack
    obtain ⟨above', stack'⟩ := onward.stack'
    have looks : t.looks = s.stack.length :: s.looks := onward.looks
    have looks' : t'.looks = s'.stack.length :: s'.looks := by
      rw [← onward.abreast.looks, looks, abreast.height, abreast.looks]
    refine closed.step onward.abreast leave pc leave' pc' ?_
    dsimp only [State.execute]
    rw [State.leave_eq stack.symm looks, State.leave_eq stack'.symm looks']
    cases positive with
    | true =>
      refine meets _ _ rfl rfl ?_ back
      exact ⟨⟨abreast.here, onward.abreast.slots, abreast.height, abreast.looks,
        onward.abreast.size, onward.abreast.size'⟩, List.suffix_refl _, List.suffix_refl _, rfl,
        onward.keeps, onward.keeps', .refl _, nofun⟩
    | false => exact back

/-! ## Guarded rounds -/

/-- Both rounds are guarded: they end only where something has been read. -/
theorem alike_guarded {register register' : Nat} (inside : register < c.first.registers)
    (inside' : register' < c.second.registers)
    (mark : c.first.code[entry]? = some (.mark register))
    (mark' : c.second.code[entry']? = some (.mark register'))
    (body : c.Alike ⟨entry + 1, exit, register + 1⟩ ⟨entry' + 1, exit', register' + 1⟩ idle)
    (check : c.first.code[exit]? = some (.check register))
    (check' : c.second.code[exit']? = some (.check register')) :
    c.Alike ⟨entry, exit + 1, register⟩ ⟨entry', exit' + 1, register'⟩ false := by
  intro s s' abreast pc pc' back meets
  refine closed.step abreast mark pc mark' pc' ?_
  have kept := s.memory.keeps_setRegister (Nat.le_refl register) s.here.offset
  have kept' := s'.memory.keeps_setRegister (Nat.le_refl register') s'.here.offset
  have marked : c.Abreast
      { s with pc := s.pc + 1, memory := s.memory.setRegister register s.here.offset }
      { s' with pc := s'.pc + 1, memory := s'.memory.setRegister register' s'.here.offset } :=
    ⟨abreast.here, abreast.slots, abreast.height, abreast.looks, kept.size.trans abreast.size,
      kept'.size.trans abreast.size'⟩
  refine body _ _ marked (congrArg (· + 1) pc) (congrArg (· + 1) pc') back ?_
  intro t t' pc pc' onward back
  have held := Memory.register_of_keeps (abreast.size.symm ▸ inside) onward.keeps
  have held' := Memory.register_of_keeps (abreast.size'.symm ▸ inside') onward.keeps'
  refine closed.step onward.abreast check pc check' pc' ?_
  -- both checks compare the same positions
  dsimp only [State.execute]
  rw [held, held', ← abreast.here, ← onward.abreast.here, State.require, State.require]
  have since := onward.noted kept kept' (Nat.le_succ _) (Nat.le_succ _)
  by_cases moved : t.here.offset ≠ s.here.offset
  · rw [if_pos (bne_iff_ne.2 moved), if_pos (bne_iff_ne.2 moved)]
    have ahead := since.reaches.offset_le
    have solid : c.Onward register register' false s s' t t' :=
      { since with moved := fun _ => by omega }
    exact meets _ _ (congrArg (· + 1) pc) (congrArg (· + 1) pc') (solid.proceed _ _) back
  · rw [if_neg (by simpa using moved), if_neg (by simpa using moved),
      State.backtrack_eq_fallBack, State.backtrack_eq_fallBack]
    exact back

/-- Only the round of the second machine is guarded. A round that reads something passes its
check. -/
theorem alike_guardedSecond {register' : Nat} (inside' : register' < c.second.registers)
    (mark' : c.second.code[entry']? = some (.mark register'))
    (body : c.Alike ⟨entry, exit, low⟩ ⟨entry' + 1, exit', register' + 1⟩ false)
    (check' : c.second.code[exit']? = some (.check register')) :
    c.Alike ⟨entry, exit, low⟩ ⟨entry', exit' + 1, register'⟩ false := by
  intro s s' abreast pc pc' back meets
  refine closed.second abreast.height ?_
  rw [step_eq mark' pc']
  have kept' := s'.memory.keeps_setRegister (Nat.le_refl register') s'.here.offset
  have marked : c.Abreast s
      { s' with pc := s'.pc + 1, memory := s'.memory.setRegister register' s'.here.offset } :=
    ⟨abreast.here, abreast.slots, abreast.height, abreast.looks, abreast.size,
      kept'.size.trans abreast.size'⟩
  refine body _ _ marked pc (congrArg (· + 1) pc') back ?_
  intro t t' pc pc' onward back
  have held' := Memory.register_of_keeps (abreast.size'.symm ▸ inside') onward.keeps'
  have since := onward.noted (.refl low s.memory) kept' (Nat.le_refl low) (Nat.le_succ _)
  have moved := since.moved rfl
  refine closed.second onward.abreast.height ?_
  rw [step_eq check' pc']
  dsimp only [State.execute]
  rw [held', ← abreast.here, ← onward.abreast.here, State.require,
    if_pos (bne_iff_ne.2 (Nat.ne_of_gt moved))]
  exact meets _ _ pc (congrArg (· + 1) pc') (since.proceed _ _) back

end

end Comparison

end Snapshot

end RegexEngine.Machine
