import Mathlib
import RegexEngine.Regex
import RegexEngine.Proofs.Search.Successive

/-!
# Rebuilding a text

The stretches before, between and behind the matches of a text make up the text again if what the
matches hold is put between them (`interleave_gaps`), because each match lies at or behind the end
of the one before (`InOrder`). Replacing puts something else in those places and leaves the
stretches as they are, or there is an error and no text (`Regex.rebuilds_of_findAll`).

What is put in the place of a match may be asked for with effects, as the matches are found
(`Matches.rebuildM`). It is asked for once for each match, from left to right.
-/

namespace RegexEngine

/-! ## Stretches and what stands between them -/

/-- The members of the first list, each followed by a member of the second as long as there are
any. -/
def interleave : List String → List String → String
  | [], _ => ""
  | gap :: gaps, [] => gap ++ interleave gaps []
  | gap :: gaps, s :: others => gap ++ (s ++ interleave gaps others)

/-- The stretches of a text before, between and behind matches, from a position on. -/
def gaps (here : Cursor) : List Match → List String
  | [] => [String.ofList here.rest]
  | m :: others => String.ofList (here.textTo m.whole.start) :: gaps m.whole.stop others

theorem length_gaps (here : Cursor) (ms : List Match) : (gaps here ms).length = ms.length + 1 := by
  induction ms generalizing here with
  | nil => rfl
  | cons m ms ih => rw [gaps, List.length_cons, ih, List.length_cons]

theorem rebuild_eq_interleave (written : String) (here : Cursor) (ms : List Match)
    (substitute : Match → String) :
    rebuild written here (ms.map fun m => (m, substitute m)) =
      written ++ interleave (gaps here ms) (ms.map substitute) := by
  induction ms generalizing written here with
  | nil => simp [rebuild, gaps, interleave]
  | cons m ms ih =>
    rw [List.map_cons, rebuild, ih, List.map_cons, gaps, interleave]
    simp only [String.append_assoc]

/-- Says that matches lie one behind the other from a position on, none of them backwards. -/
def InOrder (here : Cursor) : List Match → Prop
  | [] => True
  | m :: others => here.Reaches m.whole.start ∧ m.whole.start.Reaches m.whole.stop ∧
      InOrder m.whole.stop others

/-- Nothing is lost and nothing is doubled where matches lie one behind the other. -/
theorem interleave_gaps {here : Cursor} {ms : List Match} (ordered : InOrder here ms) :
    interleave (gaps here ms) (ms.map (·.whole.text)) = String.ofList here.rest := by
  induction ms generalizing here with
  | nil => simp [gaps, interleave]
  | cons m ms ih =>
    obtain ⟨toStart, toStop, others⟩ := ordered
    calc interleave (gaps here (m :: ms)) ((m :: ms).map (·.whole.text))
      _ = String.ofList (here.textTo m.whole.start) ++
            (String.ofList (m.whole.start.textTo m.whole.stop) ++
              String.ofList m.whole.stop.rest) := by
        rw [← ih others]
        rfl
      _ = String.ofList (here.textTo m.whole.start) ++ String.ofList m.whole.start.rest := by
        rw [← String.ofList_append, ← Cursor.rest_eq_textTo_append toStop]
      _ = String.ofList here.rest := by
        rw [← String.ofList_append, ← Cursor.rest_eq_textTo_append toStart]

namespace Matches

variable {it after : Matches} {ms : List Match} {failure : Option LimitError}

/-! ## What a search gives, seen as a list -/

theorem toList_of_next?_eq_error {e : LimitError} (h : it.next? = some (.error e, after)) :
    it.toList = [.error e] := by
  have ended : after.next = none := by
    unfold next? at h
    split at h
    · cases h
    · split at h <;> cases h
      rfl
  have nothing : after.next? = none := by
    unfold next?
    rw [ended]
  rw [toList_of_next?_eq_some h, toList_of_next?_eq_none nothing]

/-- A search gives matches, and behind them at most one error. -/
theorem exists_toList_eq (it : Matches) :
    ∃ (ms : List Match) (failure : Option LimitError),
      it.toList = ms.map .ok ++ failure.toList.map .error := by
  induction left : it.remaining using Nat.strongRecOn generalizing it with
  | _ left_now ih =>
    cases call : it.next? with
    | none => exact ⟨[], none, toList_of_next?_eq_none call⟩
    | some found =>
      obtain ⟨item, after⟩ := found
      cases item with
      | error e => exact ⟨[], some e, toList_of_next?_eq_error call⟩
      | ok m =>
        obtain ⟨ms, failure, eq⟩ := ih _ (left ▸ remaining_lt_of_next? call) after rfl
        refine ⟨m :: ms, failure, ?_⟩
        rw [toList_of_next?_eq_some call, eq]
        rfl

theorem next?_of_toList_eq_nil (h : it.toList = []) : it.next? = none := by
  cases call : it.next? with
  | none => rfl
  | some found =>
    rw [toList_of_next?_eq_some call] at h
    cases h

/-- The first of the answers has been found by one call, and the others follow. -/
theorem next?_of_toList_eq_cons {item : Except LimitError Match}
    {others : List (Except LimitError Match)} (h : it.toList = item :: others) :
    ∃ after, it.next? = some (item, after) ∧ after.toList = others := by
  cases call : it.next? with
  | none =>
    rw [toList_of_next?_eq_none call] at h
    cases h
  | some found =>
    obtain ⟨item, after⟩ := found
    rw [toList_of_next?_eq_some call] at h
    cases h
    exact ⟨after, rfl, rfl⟩

/-- A match that is found lies ahead, and behind it the search goes on. -/
theorem reaches_of_next? {m : Match} (h : it.next? = some (.ok m, after)) :
    ∃ here, it.next = some here ∧ here.Reaches m.whole.start ∧
      m.whole.start.Reaches m.whole.stop ∧ after.next = resume m := by
  unfold next? at h
  split at h
  · cases h
  · rename_i here begins
    split at h
    · cases h
    · rename_i found
      cases h
      obtain ⟨toStart, toStop⟩ := Program.reaches_of_find? found
      exact ⟨here, begins, toStart, toStop, rfl⟩
    · cases h

theorem inOrder_of_toList {here : Cursor}
    (eq : it.toList = ms.map .ok ++ failure.toList.map .error)
    (ahead : ∀ next, it.next = some next → here.Reaches next) : InOrder here ms := by
  induction ms generalizing it here with
  | nil => trivial
  | cons m ms ih =>
    obtain ⟨after, call, others⟩ := next?_of_toList_eq_cons eq
    obtain ⟨next, begins, toStart, toStop, resumed⟩ := reaches_of_next? call
    refine ⟨(ahead next begins).trans toStart, toStop, ih others ?_⟩
    intro later goes_on
    exact reaches_of_resume (resumed ▸ goes_on)

theorem collect_of_toList_eq_error {e : LimitError} (eq : it.toList = ms.map .ok ++ [.error e]) :
    it.collect = .error e := by
  rw [collect, eq]
  clear eq
  induction ms with
  | nil => rfl
  | cons m ms ih =>
    rw [List.map_cons, List.cons_append, List.mapM_cons, ih]
    rfl

/-! ## Rebuilding while searching -/

section

variable {μ : Type → Type} [Monad μ] {substitute : Match → μ String} {written : String}
  {here : Cursor}

/-- The substitutes are asked for one after the other, once for each match. If an error comes up
behind the matches, those of the matches before it have been asked for in vain. -/
theorem rebuildM_eq [LawfulMonad μ] (eq : it.toList = ms.map .ok ++ failure.toList.map .error) :
    it.rebuildM substitute written here = do
      let substitutes ← ms.mapM substitute
      return failure.elim (.ok (written ++ interleave (gaps here ms) substitutes)) .error := by
  induction ms generalizing it written here with
  | nil =>
    rw [List.mapM_nil, pure_bind]
    cases failure with
    | none =>
      rw [rebuildM_of_none (next?_of_toList_eq_nil eq)]
      simp [gaps, interleave]
    | some e =>
      obtain ⟨after, call, -⟩ := next?_of_toList_eq_cons eq
      exact rebuildM_of_error call
  | cons m ms ih =>
    obtain ⟨after, call, others⟩ := next?_of_toList_eq_cons eq
    rw [rebuildM_of_match call, List.mapM_cons]
    simp only [ih others, bind_assoc, pure_bind, gaps, interleave, String.append_assoc]

end

end Matches

/-! ## Replacing -/

namespace Regex

variable {re : Regex} {text : String} {ms : List Match}

/-- Says that `between` are the stretches of a text around its matches `ms`, and that replacing
changes nothing about them. -/
structure Rebuilds (re : Regex) (text : String) (ms : List Match) (between : List String) :
    Prop where
  around : between.length = ms.length + 1
  whole : interleave between (ms.map (·.whole.text)) = text
  replaceWith : ∀ substitute,
    re.replaceWith text substitute = .ok (interleave between (ms.map substitute))
  replace : ∀ substitute,
    re.replace text substitute = .ok (interleave between (ms.map fun _ => substitute))
  unchanged : re.replaceWith text (·.whole.text) = .ok text
  calls : ∀ {μ : Type → Type} [Monad μ] [LawfulMonad μ] (substitute : Match → μ String),
    re.replaceWithM text substitute = do
      let substitutes ← ms.mapM substitute
      return .ok (interleave between substitutes)

/-- Says that a search is stopped by an error behind the matches `ms`, and that replacing gives the
error and nothing else. -/
structure Refuses (re : Regex) (text : String) (ms : List Match) (e : LimitError) : Prop where
  answers : re.findAll text = ms.map .ok ++ [.error e]
  replaceWith : ∀ substitute, re.replaceWith text substitute = .error e
  replace : ∀ substitute, re.replace text substitute = .error e
  calls : ∀ {μ : Type → Type} [Monad μ] [LawfulMonad μ] (substitute : Match → μ String),
    re.replaceWithM text substitute = do
      let _ ← ms.mapM substitute
      return .error e

/-- The search goes on as far as it would without replacing, and the substitutes have been asked for
when it ends. -/
theorem replaceWithM_eq {μ : Type → Type} [Monad μ] [LawfulMonad μ] {failure : Option LimitError}
    (answers : re.findAll text = ms.map .ok ++ failure.toList.map .error)
    (substitute : Match → μ String) :
    re.replaceWithM text substitute = do
      let substitutes ← ms.mapM substitute
      return failure.elim (.ok (interleave (gaps (.ofString text) ms) substitutes)) .error := by
  have rebuilt : re.replaceWithM text substitute = _ := Matches.rebuildM_eq answers
  simpa only [String.empty_append] using rebuilt

theorem replaceWith_of_findAll (answers : re.findAll text = ms.map .ok)
    (substitute : Match → String) : re.replaceWith text substitute =
      .ok (rebuild "" (.ofString text) (ms.map fun m => (m, substitute m))) := by
  have collected := Matches.collect_eq_ok_iff.2 answers
  unfold replaceWith Program.replaceWith
  rw [show Matches.ofString _ _ text = re.allMatches text from rfl, collected]
  rfl

theorem rebuilds_gaps (answers : re.findAll text = ms.map .ok) :
    re.Rebuilds text ms (gaps (.ofString text) ms) := by
  have eq : (re.allMatches text).toList =
      ms.map .ok ++ (none : Option LimitError).toList.map .error := by
    rw [Option.toList_none, List.map_nil, List.append_nil]
    exact answers
  have replaced : ∀ substitute, re.replaceWith text substitute =
      .ok (interleave (gaps (.ofString text) ms) (ms.map substitute)) := by
    intro substitute
    rw [replaceWith_of_findAll answers, rebuild_eq_interleave, String.empty_append]
  have whole : interleave (gaps (.ofString text) ms) (ms.map (·.whole.text)) = text := by
    have ordered : InOrder (.ofString text) ms := by
      refine Matches.inOrder_of_toList eq ?_
      rintro _ ⟨⟩
      exact .refl _
    rw [interleave_gaps ordered]
    exact String.ofList_toList
  refine ⟨length_gaps _ _, whole, replaced, fun s => replaced fun _ => s, ?_, ?_⟩
  · rw [replaced, whole]
  · intro μ _ _ substitute
    exact replaceWithM_eq eq substitute

theorem refuses_of_findAll {e : LimitError} (answers : re.findAll text = ms.map .ok ++ [.error e]) :
    re.Refuses text ms e := by
  have eq : (re.allMatches text).toList = ms.map .ok ++ (some e).toList.map .error := answers
  have replaced : ∀ substitute, re.replaceWith text substitute = .error e := by
    intro substitute
    have collected : (re.allMatches text).collect = .error e :=
      Matches.collect_of_toList_eq_error answers
    unfold replaceWith Program.replaceWith
    rw [show Matches.ofString _ _ text = re.allMatches text from rfl, collected]
    rfl
  refine ⟨answers, replaced, fun s => replaced fun _ => s, ?_⟩
  intro μ _ _ substitute
  exact replaceWithM_eq eq substitute

/-! ## Notes taken while replacing -/

/-- The notes are taken one after the other, once for each match. -/
theorem run_mapM_noting {σ : Type} (substitute : Match → String) (note : Match → σ → σ)
    (ms : List Match) (noted : σ) :
    (ms.mapM fun m => (do modify (note m); return substitute m : StateM σ String)).run noted =
      (ms.map substitute, ms.foldl (fun noted m => note m noted) noted) := by
  induction ms generalizing noted with
  | nil => rfl
  | cons m ms ih =>
    rw [List.mapM_cons]
    simp only [StateT.run_bind, StateT.run_pure, ih, List.map_cons, List.foldl_cons]
    rfl

/-- Taking notes about the matches does not show in the text: it is what comes of replacing without
notes. The matches found are noted even if an error comes up behind them. -/
theorem run_replaceWithM_noting {σ : Type} {failure : Option LimitError}
    (answers : re.findAll text = ms.map .ok ++ failure.toList.map .error)
    (substitute : Match → String) (note : Match → σ → σ) (noted : σ) :
    (re.replaceWithM text fun m =>
        (do modify (note m); return substitute m : StateM σ String)).run noted =
      (re.replaceWith text substitute, ms.foldl (fun noted m => note m noted) noted) := by
  rw [replaceWithM_eq answers, StateT.run_bind, run_mapM_noting]
  cases failure with
  | none =>
    rw [(rebuilds_gaps (answers.trans (List.append_nil _))).replaceWith]
    rfl
  | some e =>
    rw [(refuses_of_findAll answers).replaceWith]
    rfl

/-- Replacing the matches of a text leaves the stretches around them as they are and asks for what
takes the place of each match once, from left to right. A search that is stopped by a limit leaves
no text. -/
theorem rebuilds_of_findAll (re : Regex) (text : String) :
    (∀ ms : List Match, re.findAll text = ms.map .ok → ∃ between, re.Rebuilds text ms between) ∧
      (∀ e, .error e ∈ re.findAll text → ∃ ms, re.Refuses text ms e) ∧
      ∀ substitute, re.replaceWith text substitute =
        Id.run (re.replaceWithM text fun m => pure (substitute m)) := by
  obtain ⟨ms, failure, answers⟩ := (re.allMatches text).exists_toList_eq
  change re.findAll text = _ at answers
  refine ⟨fun ms answers => ⟨_, rebuilds_gaps answers⟩, ?_, ?_⟩
  · intro e mem
    rw [answers] at mem
    cases failure with
    | none => simp at mem
    | some e' =>
      obtain rfl : e = e' := by simpa using mem
      exact ⟨ms, refuses_of_findAll answers⟩
  · intro substitute
    cases failure with
    | none =>
      have rebuilt := rebuilds_gaps (answers.trans (List.append_nil _))
      rw [rebuilt.replaceWith, rebuilt.calls]
      simp
    | some e =>
      have refused := refuses_of_findAll answers
      rw [refused.replaceWith, refused.calls]
      simp

/-- Empty matches behind and in front of another one, and a loop that is stopped at its second
round. -/
theorem rebuilds_of_findAll_of_empty_matches :
    ∃ re stopped ms, compile "b*" {} = .ok re ∧
      compile "b*" { limits := { steps := 4 } } = .ok stopped ∧
      re.findAll "éb" = ms.map .ok ∧ ms.length = 3 ∧
      (∃ between, re.Rebuilds "éb" ms between) ∧
      .error (.steps 4) ∈ stopped.findAll "ébb" ∧
      ∃ ms, stopped.Refuses "ébb" ms (.steps 4) := by
  let empty (here : Cursor) : Match := ⟨⟨here, here⟩, Vector.replicate maxGroups none⟩
  let ms : List Match := [empty ⟨0, ['é', 'b']⟩,
    ⟨⟨⟨2, ['b']⟩, ⟨3, []⟩⟩, Vector.replicate maxGroups none⟩, empty ⟨3, []⟩]
  obtain ⟨re, compiled, found⟩ : ∃ re, compile "b*" {} = .ok re ∧ re.findAll "éb" = ms.map .ok :=
    ⟨_, by cbv, by decide +kernel⟩
  obtain ⟨stopped, limited, failed⟩ : ∃ re, compile "b*" { limits := { steps := 4 } } = .ok re ∧
      .error (.steps 4) ∈ re.findAll "ébb" :=
    ⟨_, by cbv, by decide +kernel⟩
  exact ⟨re, stopped, ms, compiled, limited, found, rfl,
    (rebuilds_of_findAll re "éb").1 ms found, failed,
    (rebuilds_of_findAll stopped "ébb").2.1 _ failed⟩

end Regex

end RegexEngine
