import RegexEngine.Text.Cursor

/-!
# Characters and bytes

Positions count the bytes of the UTF-8 form of a text, and a position that can be reached lies where
a character begins or the text ends (`Cursor.Reaches.lies`). What can be said about bytes alone can
be said about positions: a text that is not empty stands at a byte of another text only if a
character begins there (`Occurs.exists_reaches`), since the first byte of a character is never one
of the bytes behind it.
-/

namespace RegexEngine

theorem byteLength_eq_utf8ByteSize (cs : List Char) :
    byteLength cs = (String.ofList cs).utf8ByteSize := by
  induction cs with
  | nil => rfl
  | cons c cs ih =>
    rw [byteLength_cons, ih, ← List.singleton_append, String.ofList_append,
      String.utf8ByteSize_append, ← String.utf8ByteSize_singleton]
    rfl

theorem byteLength_toList (text : String) : byteLength text.toList = text.utf8ByteSize := by
  rw [byteLength_eq_utf8ByteSize, String.ofList_toList]

theorem eq_nil_of_byteLength {cs : List Char} (h : byteLength cs = 0) : cs = [] := by
  have := length_le_byteLength cs
  exact List.eq_nil_of_length_eq_zero (by omega)

/-! ## Positions of one text -/

namespace Cursor

/-- Positions of one text that are in order of their offsets lie one behind the other. -/
theorem Reaches.of_offset_le {a b c : Cursor} (hb : a.Reaches b) (hc : a.Reaches c)
    (le : b.offset ≤ c.offset) : b.Reaches c := by
  obtain ⟨between, rest, offset⟩ := hb
  obtain ⟨between', rest', offset'⟩ := hc
  rcases List.append_eq_append_iff.1 (rest.symm.trans rest') with
    ⟨further, rfl, rest⟩ | ⟨further, rfl, behind⟩
  · refine ⟨further, rest, ?_⟩
    rw [byteLength_append] at offset'
    omega
  · rw [byteLength_append] at offset
    obtain rfl : further = [] := eq_nil_of_byteLength (by omega)
    refine ⟨[], behind.symm, ?_⟩
    rw [byteLength_nil] at offset ⊢
    omega

theorem Reaches.eq_of_offset_eq {a b c : Cursor} (hb : a.Reaches b) (hc : a.Reaches c)
    (same : b.offset = c.offset) : b = c := by
  obtain ⟨between, rest, offset⟩ := hb.of_offset_le hc (Nat.le_of_eq same)
  obtain rfl : between = [] := eq_nil_of_byteLength (by omega)
  obtain ⟨offset_b, rest_b⟩ := b
  obtain ⟨offset_c, rest_c⟩ := c
  cases same
  cases rest
  rfl

theorem reaches_of_seek {n offset : Nat} {cs : List Char} {here : Cursor}
    (h : seek n offset cs = some here) : (⟨offset, cs⟩ : Cursor).Reaches here := by
  induction cs generalizing offset with
  | nil =>
    unfold seek at h
    split at h
    · cases h
      exact .refl _
    · cases h
  | cons c cs ih =>
    unfold seek at h
    split at h
    · cases h
      exact .refl _
    · exact (reaches_advance rfl).trans (ih h)

theorem seek_append (offset : Nat) (cs ds : List Char) :
    seek (offset + byteLength cs) offset (cs ++ ds) = some ⟨offset + byteLength cs, ds⟩ := by
  induction cs generalizing offset with
  | nil => cases ds <;> simp [seek]
  | cons c cs ih =>
    have behind : ¬ offset + (c.utf8Size + byteLength cs) ≤ offset := by
      have := c.utf8Size_pos
      omega
    rw [List.cons_append, seek, byteLength_cons, if_neg behind, ← Nat.add_assoc]
    exact ih (offset + c.utf8Size)

/-- Behind a first part of a text the second part begins. -/
theorem atByte?_append (before text : String) :
    atByte? (before ++ text) before.utf8ByteSize =
      some ⟨before.utf8ByteSize, text.toList⟩ := by
  have behind := seek_append 0 before.toList text.toList
  rwa [Nat.zero_add, byteLength_toList, ← String.toList_append] at behind

/-- The position behind a first part of a text. -/
theorem reaches_append (before text : String) :
    (ofString (before ++ text)).Reaches ⟨before.utf8ByteSize, text.toList⟩ :=
  ⟨before.toList, String.toList_append, by rw [byteLength_toList]; exact (Nat.zero_add _).symm⟩

/-- A position of a text stands behind a first part of it. -/
theorem exists_append_of_reaches {text : String} {here : Cursor}
    (h : (ofString text).Reaches here) :
    ∃ before, text = before ++ String.ofList here.rest ∧ here.offset = before.utf8ByteSize := by
  obtain ⟨between, rest, offset⟩ := h
  refine ⟨String.ofList between, ?_, ?_⟩
  · rw [← String.ofList_append, ← rest]
    exact String.ofList_toList.symm
  · rw [offset, byteLength_eq_utf8ByteSize]
    exact Nat.zero_add _

/-- Says that a position is one of a text and does not lie before `start`: a character of the text
begins there, or the text ends, and what stands behind it is the rest of the text. -/
structure Lies (text : String) (start here : Cursor) : Prop where
  boundary : String.Pos.Raw.IsValid text ⟨here.offset⟩
  rest : ∃ before, text = before ++ String.ofList here.rest ∧ here.offset = before.utf8ByteSize
  ahead : start.offset ≤ here.offset
  inside : here.offset ≤ text.utf8ByteSize

theorem Reaches.lies {text : String} {start here : Cursor} (h : start.Reaches here)
    (within : (ofString text).Reaches start) : Lies text start here := by
  obtain ⟨before, eq, offset⟩ := exists_append_of_reaches (within.trans h)
  refine ⟨?_, ⟨before, eq, offset⟩, h.offset_le, ?_⟩
  · exact String.Pos.Raw.isValid_iff_exists_append.2 ⟨before, _, eq, congrArg _ offset⟩
  · rw [eq, offset, String.utf8ByteSize_append]
    exact Nat.le_add_right _ _

end Cursor

/-! ## Occurrences -/

/-- Says that the bytes of one text stand in another one from byte `i` on. -/
def Occurs (s text : String) (i : Nat) : Prop :=
  ∃ before after : ByteArray, text.toUTF8 = before ++ s.toUTF8 ++ after ∧ before.size = i

namespace Occurs

variable {s text : String} {i : Nat}

/-- The byte that a text begins with begins a character, so one begins wherever the text stands. -/
theorem isValid (h : Occurs s text i) (nonempty : s ≠ "") :
    String.Pos.Raw.IsValid text ⟨i⟩ := by
  obtain ⟨before, after, bytes, rfl⟩ := h
  rw [String.toUTF8_eq_toByteArray, String.toUTF8_eq_toByteArray] at bytes
  have size : 0 < s.toByteArray.size := by
    rw [String.size_toByteArray, Nat.pos_iff_ne_zero]
    exact fun zero => nonempty (String.utf8ByteSize_eq_zero_iff.1 zero)
  have inside : before.size < text.toByteArray.size := by
    rw [bytes, ByteArray.size_append, ByteArray.size_append]
    omega
  refine String.Pos.Raw.isValid_iff_isUTF8FirstByte.2 (.inr ⟨inside, ?_⟩)
  have first := String.isUTF8FirstByte_getUTF8Byte_zero (b := s) (h := size)
  have same : text.toByteArray[before.size] = s.toByteArray[0] := by
    have within : before.size < (before ++ s.toByteArray).size := by
      rw [ByteArray.size_append]
      omega
    simp only [bytes]
    rw [ByteArray.getElem_append_left within, ByteArray.getElem_append_right (Nat.le_refl _)]
    simp only [Nat.sub_self]
  rw [String.getUTF8Byte_eq_getElem] at first ⊢
  exact same ▸ first

theorem exists_reaches (h : Occurs s text i) (nonempty : s ≠ "") :
    ∃ here, (Cursor.ofString text).Reaches here ∧ here.offset = i ∧ s.toList <+: here.rest := by
  obtain ⟨first, second, rfl, offset⟩ :=
    String.Pos.Raw.isValid_iff_exists_append.1 (h.isValid nonempty)
  obtain ⟨before, after, bytes, size⟩ := h
  have offset : i = first.utf8ByteSize := congrArg String.Pos.Raw.byteIdx offset
  refine ⟨_, Cursor.reaches_append first second, offset.symm, ?_⟩
  apply List.isPrefix_of_utf8Encode_append_eq_utf8Encode after
  rw [String.toUTF8_eq_toByteArray, String.toUTF8_eq_toByteArray, String.toByteArray_append,
    ByteArray.append_assoc] at bytes
  obtain rfl : first.toByteArray = before :=
    ByteArray.append_inj_left bytes (by rw [String.size_toByteArray, size, offset])
  rw [String.utf8Encode_toList, String.utf8Encode_toList]
  exact ((ByteArray.append_right_inj _).1 bytes).symm

theorem of_reaches {here : Cursor} (within : (Cursor.ofString text).Reaches here)
    (h : s.toList <+: here.rest) : Occurs s text here.offset := by
  obtain ⟨between, rest, offset⟩ := within
  obtain ⟨further, eq⟩ := h
  refine ⟨between.utf8Encode, further.utf8Encode, ?_, ?_⟩
  · have chars : text.toList = between ++ s.toList ++ further := by
      rw [List.append_assoc, eq]
      exact rest
    rw [String.toUTF8_eq_toByteArray, String.toUTF8_eq_toByteArray, ← String.utf8Encode_toList,
      ← String.utf8Encode_toList, chars, List.utf8Encode_append, List.utf8Encode_append]
  · rw [offset, byteLength_eq_utf8ByteSize, ← String.size_toByteArray, String.toByteArray_ofList]
    exact (Nat.zero_add _).symm

end Occurs

end RegexEngine
