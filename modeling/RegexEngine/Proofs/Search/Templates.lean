import Mathlib
import RegexEngine.Proofs.Search.Rebuilding
import RegexEngine.Search.Template

/-!
# Replacing by templates

Whether a template can be filled in does not depend on the match: it fails exactly if it asks for a
group that no pattern may have, and the first such group is to blame (`TemplatePart.expandAll_eq`).
So replacing by a template is replacing by what it stands for, unless the template is at fault and
there is a match to show it (`Regex.replaceTemplate_eq`).
-/

namespace RegexEngine

namespace TemplatePart

/-- What a part stands for in a match, where it asks for no group that there cannot be. -/
def filled (m : Match) : TemplatePart → String
  | .text s => s
  | .group index => ((m.group? index).map Span.text).getD "<none>"

/-- The number that a part asks for although no group can have it. -/
def beyond? : TemplatePart → Option Nat
  | .text _ => none
  | .group index => if index ≤ maxGroups then none else some index

theorem expand_eq (m : Match) (part : TemplatePart) :
    part.expand m = part.beyond?.elim (.ok (part.filled m)) fun i => .error (.invalidGroup i) := by
  cases part with
  | text s => rfl
  | group index =>
    rw [expand, beyond?, Match.groupText, Match.groupSpan]
    by_cases known : index ≤ maxGroups
    · rw [if_pos known, if_pos known]
      rfl
    · rw [if_neg known, if_neg known]
      rfl

/-- The first part that cannot be filled in tells the error, whatever the match. -/
theorem expandAll_eq (m : Match) (template : List TemplatePart) :
    expandAll template m =
      (template.findSome? beyond?).elim (.ok (String.join (template.map (·.filled m))))
        fun i => .error (.invalidGroup i) := by
  have parts : template.mapM (·.expand m) =
      (template.findSome? beyond?).elim (.ok (template.map (·.filled m)))
        fun i => .error (.invalidGroup i) := by
    induction template with
    | nil => rfl
    | cons part template ih =>
      rw [List.mapM_cons, expand_eq, ih, List.findSome?_cons]
      cases part.beyond? with
      | some i => rfl
      | none => cases template.findSome? beyond? <;> rfl
  rw [expandAll, parts]
  cases template.findSome? beyond? <;> rfl

theorem substitute_of_valid {template : List TemplatePart}
    (valid : template.findSome? beyond? = none) :
    substitute template = fun m => do
      modify fun failed => failed
      return String.join (template.map (·.filled m)) := by
  funext m
  rw [substitute, expandAll_eq, valid]
  rfl

theorem substitute_of_invalid {template : List TemplatePart} {i : Nat}
    (invalid : template.findSome? beyond? = some i) :
    substitute template = fun _ => do
      modify fun failed => failed.or (some (.invalidGroup i))
      return "" := by
  funext m
  rw [substitute, expandAll_eq, invalid]
  rfl

end TemplatePart

namespace Regex

open TemplatePart

/-- Replacing by a template is replacing by what it stands for. A template that asks for a group
beyond all others is at fault as soon as there is a match, if the search does not fail. -/
theorem replaceTemplate_eq (re : Regex) (text : String) (template : List TemplatePart) :
    re.replaceTemplate text template =
      match re.replaceWith text fun m => String.join (template.map (·.filled m)),
        template.findSome? beyond? with
      | .error e, _ => .error (.limit e)
      | .ok replaced, none => .ok replaced
      | .ok _, some i =>
        if (re.findAll text).isEmpty then .ok text else .error (.invalidGroup i) := by
  obtain ⟨ms, failure, answers⟩ := (re.allMatches text).exists_toList_eq
  change re.findAll text = _ at answers
  rw [replaceTemplate]
  cases fault : template.findSome? beyond? with
  | none =>
    -- no failure is ever kept
    rw [substitute_of_valid fault, run_replaceWithM_noting answers,
      List.foldl_fixed' (fun _ => rfl)]
    cases re.replaceWith text fun m => String.join (template.map (·.filled m)) <;> rfl
  | some i =>
    rw [substitute_of_invalid fault, run_replaceWithM_noting answers]
    cases failure with
    | some e =>
      have refused := refuses_of_findAll answers
      rw [refused.replaceWith, refused.replaceWith]
      rfl
    | none =>
      have rebuilt := rebuilds_gaps (answers.trans (List.append_nil _))
      rw [rebuilt.replaceWith, rebuilt.replaceWith, answers]
      cases ms with
      | nil => exact congrArg Except.ok rebuilt.whole
      | cons m ms =>
        -- what the first match has shown is kept
        rw [List.foldl_cons, Option.none_or, List.foldl_fixed' (fun _ => rfl)]
        rfl

example : ∃ re, ofString "(\\w+)@(\\w+)" = .ok re ∧
    (re.replaceTemplate "me@host" [.group 1, .text " at ", .group 2]).toOption =
      some "me at host" :=
  ⟨_, by cbv, by decide +kernel⟩

end Regex

end RegexEngine
