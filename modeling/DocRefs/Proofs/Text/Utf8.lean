import DocRefs.Digest.Content

/-!
# UTF-8

Different texts have different bytes (`utf8Bytes_injective`). Decoding gives the text whose bytes
they are (`fromUTF8?_eq_some_iff`). A byte below 128 is a character of its own, so what stands
before and behind it is text whenever the whole is (`isText_append_utf8_append`).
-/
namespace DocRefs

private theorem toList_loop (bytes : ByteArray) (i : Nat) (front : List UInt8) :
    ByteArray.toList.loop bytes i front = front.reverse ++ bytes.data.toList.drop i := by
  fun_induction ByteArray.toList.loop bytes i front with
  | case1 i front inside ih =>
    have bound : i < bytes.data.size := inside
    have first : bytes.data.toList.drop i = bytes.get! i :: bytes.data.toList.drop (i + 1) := by
      rw [List.drop_eq_getElem_cons (by simpa using bound), Array.getElem_toList, ByteArray.get!,
        getElem!_pos bytes.data i bound]
    rw [ih, first]
    simp
  | case2 i front outside =>
    have bound : bytes.data.toList.length ≤ i := by simpa using outside
    rw [List.drop_eq_nil_of_le bound, List.append_nil]

theorem utf8Bytes_eq (text : String) : utf8Bytes text = text.toByteArray.data.toList := by
  rw [utf8Bytes, String.toUTF8, ByteArray.toList, toList_loop]
  simp

theorem utf8Bytes_injective {s t : String} (same : utf8Bytes s = utf8Bytes t) : s = t := by
  rw [utf8Bytes_eq, utf8Bytes_eq] at same
  apply String.toByteArray_inj.mp
  apply ByteArray.ext
  exact Array.toList_inj.mp same

namespace Text

/-! ### Characters -/

theorem utf8_eq (c : Char) : utf8 c = String.utf8EncodeChar c := by
  have bytes : utf8 c = (String.singleton c).toByteArray.data.toList := utf8Bytes_eq _
  rw [bytes, String.toByteArray_singleton, List.utf8Encode_singleton, List.toList_data_toByteArray]

theorem utf8_injective {c d : Char} (same : utf8 c = utf8 d) : c = d :=
  String.singleton_inj.mp (utf8Bytes_injective same)

theorem utf8_of_ascii {c : Char} (ascii : c.toNat < 128) : utf8 c = [UInt8.ofNat c.toNat] := by
  have small : c.val.toNat ≤ 127 := Nat.le_of_lt_succ ascii
  rw [utf8_eq, String.utf8EncodeChar, if_pos small]
  rfl

/-- A byte below 128 is all that is written for its character. -/
theorem utf8_eq_singleton {c : Char} {b : UInt8} (member : b ∈ utf8 c) (ascii : b.toNat < 128) :
    utf8 c = [b] := by
  rw [utf8_eq] at member ⊢
  revert member
  -- Where there are more bytes than one, each is at least 128.
  fun_cases String.utf8EncodeChar c with
  | case1 =>
    intro member
    rw [List.mem_singleton.mp member]
  | case2 =>
    simp only [List.mem_cons, List.not_mem_nil, or_false]
    rintro (rfl | rfl) <;> simp at ascii <;> omega
  | case3 =>
    simp only [List.mem_cons, List.not_mem_nil, or_false]
    rintro (rfl | rfl | rfl) <;> simp at ascii <;> omega
  | case4 =>
    simp only [List.mem_cons, List.not_mem_nil, or_false]
    rintro (rfl | rfl | rfl | rfl) <;> simp at ascii <;> omega

/-! ### Texts -/

theorem flatMap_utf8 (s : String) : s.toList.flatMap utf8 = s.toByteArray.data.toList := by
  have whole : s.toByteArray = s.toList.utf8Encode := by
    rw [← String.toByteArray_ofList, String.ofList_toList]
  rw [whole, List.utf8Encode, List.toList_data_toByteArray, funext utf8_eq]

theorem fromUTF8?_eq_some_iff {bytes : List UInt8} {s : String} :
    String.fromUTF8? ⟨bytes.toArray⟩ = some s ↔ s.toList.flatMap utf8 = bytes := by
  rw [flatMap_utf8, String.fromUTF8?]
  constructor
  · intro found
    split at found
    · obtain rfl := Option.some.inj found
      simp [String.fromUTF8]
    · cases found
  · rintro rfl
    have valid : ByteArray.IsValidUTF8 ⟨s.toByteArray.data.toList.toArray⟩ := s.isValidUTF8
    rw [dif_pos valid]
    rfl

/-- The bytes are those of some text. -/
def IsText (bytes : List UInt8) : Prop := ∃ text : List Char, text.flatMap utf8 = bytes

theorem isText_nil : IsText [] := ⟨[], rfl⟩

theorem isText_utf8 (c : Char) : IsText (utf8 c) := ⟨[c], by simp⟩

variable {front back : List UInt8}

theorem IsText.append (first : IsText front) (last : IsText back) : IsText (front ++ back) := by
  obtain ⟨text, rfl⟩ := first
  obtain ⟨more, rfl⟩ := last
  exact ⟨text ++ more, List.flatMap_append⟩

/-- What stands around a byte below 128 is text if the whole is. -/
theorem isText_of_append_cons {b : UInt8} (ascii : b.toNat < 128)
    (whole : IsText (front ++ b :: back)) : IsText front ∧ IsText back := by
  obtain ⟨text, written⟩ := whole
  -- The induction goes from character to character up to the one that has the byte.
  induction text generalizing front with
  | nil => simp at written
  | cons c rest ih =>
    rw [List.flatMap_cons] at written
    rcases List.append_eq_append_iff.mp written with
      ⟨later, front_eq, rest_eq⟩ | ⟨inside, char_eq, back_eq⟩
    · obtain ⟨⟨first, rfl⟩, last⟩ := ih rest_eq
      exact ⟨⟨c :: first, by rw [List.flatMap_cons, front_eq]⟩, last⟩
    · cases inside with
      | nil =>
        -- The character ends right before the byte.
        obtain ⟨_, last⟩ := @ih [] (by simpa using back_eq.symm)
        exact ⟨⟨[c], by simpa using char_eq⟩, last⟩
      | cons first inside =>
        obtain ⟨rfl, rfl⟩ := List.cons.inj back_eq
        have alone : utf8 c = [b] := utf8_eq_singleton (by simp [char_eq]) ascii
        have lengths := congrArg List.length (alone.symm.trans char_eq)
        simp only [List.length_cons, List.length_nil, List.length_append] at lengths
        obtain rfl := List.eq_nil_of_length_eq_zero (l := front) (by omega)
        obtain rfl := List.eq_nil_of_length_eq_zero (l := inside) (by omega)
        exact ⟨isText_nil, ⟨rest, rfl⟩⟩

theorem isText_append_utf8_append {c : Char} (ascii : c.toNat < 128) :
    IsText (front ++ (utf8 c ++ back)) ↔ IsText front ∧ IsText back := by
  constructor
  · intro whole
    have byte : (UInt8.ofNat c.toNat).toNat < 128 := by
      rw [UInt8.toNat_ofNat', Nat.mod_eq_of_lt (by omega)]
      exact ascii
    rw [utf8_of_ascii ascii] at whole
    exact isText_of_append_cons byte whole
  · rintro ⟨first, last⟩
    exact first.append ((isText_utf8 c).append last)

end Text

end DocRefs
