import RegexEngine.Pattern.Reader

/-!
# Where reading leads

Every reader comes to stand at or behind the position where it began, in the same text: what it has
read lies between the two.
-/

namespace RegexEngine

open Cursor (Reaches reaches_advance reaches_next)

/-! ## Escapes and classes -/

namespace Escape

theorem reaches_readHexDigit {start value : Nat} {here after : Cursor}
    (h : readHexDigit start here = .ok (value, after)) : here.Reaches after := by
  unfold readHexDigit at h
  split at h
  · cases h
  · rename_i c next hn
    split at h
    · cases h
    · cases h
      exact reaches_next hn

theorem reaches_read {start : Nat} {here after : Cursor} {escape : Escape}
    (h : read start here = .ok (escape, after)) : here.Reaches after := by
  unfold read at h
  split at h
  · cases h
  · rename_i c next hn
    have first := reaches_next hn
    split at h
    · obtain ⟨⟨high, mid⟩, h₁, h⟩ := bind_eq_ok_iff.1 h
      obtain ⟨⟨low, last⟩, h₂, h⟩ := bind_eq_ok_iff.1 h
      cases h
      exact first.trans ((reaches_readHexDigit h₁).trans (reaches_readHexDigit h₂))
    · repeat' split at h
      all_goals cases h
      all_goals exact first

end Escape

namespace CharClass

theorem reaches_readItem {opened : Nat} {here after : Cursor} {item : ClassItem}
    (h : readItem opened here = .ok (item, after)) : here.Reaches after := by
  unfold readItem at h
  split at h
  · cases h
  · rename_i c next hn
    have first := reaches_next hn
    split at h
    · split at h
      · cases h
      · rename_i he
        cases h
        exact first.trans (Escape.reaches_read he)
      · rename_i he
        cases h
        exact first.trans (Escape.reaches_read he)
      · cases h
    · cases h
      exact first

theorem reaches_behindHyphen {here behind : Cursor} (h : behindHyphen? here = some behind) :
    here.Reaches behind := by
  unfold behindHyphen? at h
  split at h
  · rename_i c rest hr
    split at h
    · cases h
    · cases h
      exact reaches_advance hr
  · cases h

theorem reaches_readMember {opened : Nat} {here after : Cursor} {items : List ClassItem}
    (h : readMember opened here = .ok (items, after)) : here.Reaches after := by
  obtain ⟨⟨lower, mid⟩, h₁, h⟩ := bind_eq_ok_iff.1 h
  have first := reaches_readItem h₁
  dsimp only at h
  split at h
  · rename_i hb
    obtain ⟨⟨upper, last⟩, h₂, h⟩ := bind_eq_ok_iff.1 h
    have both := first.trans ((reaches_behindHyphen hb).trans (reaches_readItem h₂))
    dsimp only at h
    repeat' split at h
    all_goals cases h
    all_goals exact both
  · cases h
    exact first

theorem reaches_readMembers {opened : Nat} {here after : Cursor} {items : List ClassItem}
    (h : readMembers opened here = .ok (items, after)) : here.Reaches after := by
  fun_induction readMembers opened here generalizing items with
  | case1 => cases h
  | case2 here next hn =>
    cases h
    exact reaches_next hn
  | case3 => cases h
  | case4 here c next hn hc members mid hm ih =>
    obtain ⟨⟨others, last⟩, h₁, h⟩ := bind_eq_ok_iff.1 h
    cases h
    exact (reaches_readMember hm).trans (ih h₁)

theorem reaches_readNegation (here : Cursor) : here.Reaches (readNegation here).2 := by
  unfold readNegation
  split
  · rename_i hr
    exact reaches_advance hr
  · exact .refl here

theorem reaches_read {opened : Nat} {here after : Cursor} {cls : CharClass}
    (h : read opened here = .ok (cls, after)) : here.Reaches after := by
  have marked := reaches_readNegation here
  unfold read at h
  generalize readNegation here = start at h marked
  obtain ⟨⟨items, mid⟩, h₁, h⟩ := bind_eq_ok_iff.1 h
  obtain ⟨⟨others, last⟩, h₂, h⟩ := bind_eq_ok_iff.1 h
  cases h
  exact marked.trans ((reaches_readMember h₁).trans (reaches_readMembers h₂))

end CharClass

/-! ## Quantifiers -/

namespace Quantifier

theorem reaches_readBound {start value : Nat} {here after : Cursor}
    (h : readBound start here = .ok (value, after)) : here.Reaches after := by
  unfold readBound at h
  dsimp only at h
  split at h
  · cases h
  · cases h
    exact ⟨_, List.takeWhile_append_dropWhile.symm, rfl⟩

theorem reaches_readBounds {start : Nat} {here after : Cursor} {rounds : Nat × Option Nat}
    (h : readBounds start here = .ok (rounds, after)) : here.Reaches after := by
  obtain ⟨⟨min, mid⟩, h₁, h⟩ := bind_eq_ok_iff.1 h
  have first := reaches_readBound h₁
  dsimp only at h
  split at h
  · rename_i hr
    cases h
    exact first.trans (reaches_advance hr)
  · rename_i hr
    cases h
    exact first.trans ((reaches_advance hr).trans (reaches_advance rfl))
  · rename_i hr
    obtain ⟨⟨max, last⟩, h₂, h⟩ := bind_eq_ok_iff.1 h
    have both := first.trans ((reaches_advance hr).trans (reaches_readBound h₂))
    dsimp only at h
    split at h
    · rename_i hr'
      split at h
      · cases h
      · cases h
        exact both.trans (reaches_advance hr')
    · cases h
  · cases h

theorem reaches_readRounds {here after : Cursor} {rounds : Nat × Option Nat}
    (h : readRounds here = .ok (rounds, after)) : here.Reaches after := by
  unfold readRounds at h
  split at h
  all_goals rename_i hr
  · cases h
    exact reaches_advance hr
  · cases h
    exact reaches_advance hr
  · cases h
    exact reaches_advance hr
  · exact (reaches_advance hr).trans (reaches_readBounds h)
  · cases h

theorem reaches_readGreedy (here : Cursor) : here.Reaches (readGreedy here).2 := by
  unfold readGreedy
  split
  · rename_i hr
    exact reaches_advance hr
  · exact .refl here

theorem reaches_readBehind {atom node : Node} {start : Nat} {here after : Cursor}
    (h : readBehind atom start here = .ok (node, after)) : here.Reaches after := by
  unfold readBehind at h
  split at h
  · obtain ⟨⟨⟨min, max⟩, mid⟩, h₁, h⟩ := bind_eq_ok_iff.1 h
    have both := (reaches_readRounds h₁).trans (reaches_readGreedy mid)
    dsimp only at h
    repeat' split at h
    all_goals cases h
    exact both
  · cases h
    exact .refl here

end Quantifier

/-! ## Parts and groups -/

namespace Reader

theorem reaches_readOpening {start groups count : Nat} {here after : Cursor} {kind : GroupKind}
    (h : readOpening start groups here = .ok (kind, count, after)) : here.Reaches after := by
  unfold readOpening at h
  split at h
  · rename_i hr
    cases h
    exact (reaches_advance hr).trans (reaches_advance rfl)
  · rename_i hr
    cases h
    exact (reaches_advance hr).trans (reaches_advance rfl)
  · rename_i hr
    cases h
    exact (reaches_advance hr).trans (reaches_advance rfl)
  · cases h
  · split at h
    · cases h
      exact .refl here
    · cases h

theorem reaches_readAtom {c : Char} {start : Nat} {here after : Cursor} {node : Node}
    (h : readAtom c start here = .ok (node, after)) : here.Reaches after := by
  unfold readAtom at h
  split at h
  · obtain ⟨⟨cls, mid⟩, h₁, h⟩ := bind_eq_ok_iff.1 h
    cases h
    exact CharClass.reaches_read h₁
  · split at h
    · obtain ⟨⟨escape, mid⟩, h₁, h⟩ := bind_eq_ok_iff.1 h
      cases h
      exact Escape.reaches_read h₁
    · repeat' split at h
      all_goals cases h
      all_goals exact .refl here

end Reader

end RegexEngine
