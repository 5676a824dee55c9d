import DocRefs.Proofs.Text.Utf8
import DocRefs.Text.Ascii

/-!
# Beginnings of texts, in bytes

Whether a text begins with another one up to ASCII case can be read off its bytes: as many bytes as
the other text has, cut off where a character ends, are those of the other text up to the case of
ASCII letters. As the characters of a text can be told from its bytes, this is the comparison of
folded texts. Main result: `startsWithBytes_eq`.
-/
namespace DocRefs.Text

/-- The byte, lowered if it is an ASCII capital. -/
def lowerByte (b : UInt8) : UInt8 := if 65 ≤ b.toNat ∧ b.toNat ≤ 90 then b + 32 else b

/-- The byte is written after the first one of a character. -/
def isContinuation (b : UInt8) : Bool := 128 ≤ b.toNat && b.toNat < 192

/-- A character begins at the place, or the bytes end there. -/
def isBoundary (bytes : List UInt8) (place : Nat) : Bool :=
  match bytes[place]? with
  | some b => place == 0 || !isContinuation b
  | none => place == bytes.length

/-- The bytes of the text that are as many as those of `start` are a text that equals it up to
ASCII case. -/
def startsWithBytes (text start : String) : Bool :=
  let size := (utf8Bytes start).length
  decide (size ≤ (utf8Bytes text).length) && isBoundary (utf8Bytes text) size &&
    ((utf8Bytes text).take size).map lowerByte == (utf8Bytes start).map lowerByte

/-! ### Characters in bytes -/

theorem utf8Bytes_eq_flatMap (s : String) : utf8Bytes s = s.toList.flatMap utf8 := by
  rw [utf8Bytes_eq, flatMap_utf8]

theorem utf8_append_inj {c d : Char} {front back : List UInt8}
    (same : utf8 c ++ front = utf8 d ++ back) : c = d ∧ front = back := by
  -- The first character can be told from the bytes, whatever is written after it.
  have decoded (c : Char) (rest : List UInt8) :
      ByteArray.utf8DecodeChar? (utf8 c ++ rest).toByteArray 0 = some c := by
    rw [utf8_eq, List.toByteArray_append, ByteArray.utf8DecodeChar?_utf8EncodeChar_append]
  have first : c = d := by
    have both := decoded c front
    rw [same, decoded] at both
    exact (Option.some.inj both).symm
  subst first
  exact ⟨rfl, List.append_cancel_left same⟩

theorem utf8_ne_nil (c : Char) : utf8 c ≠ [] := by
  rw [utf8_eq, ← List.length_pos_iff, String.length_utf8EncodeChar]
  exact c.utf8Size_pos

/-- One text begins with another exactly when its bytes do. -/
theorem flatMap_utf8_prefix_iff {start text : List Char} :
    start.flatMap utf8 <+: text.flatMap utf8 ↔ start <+: text := by
  constructor
  · intro begins
    induction start generalizing text with
    | nil => exact List.nil_prefix
    | cons c start ih =>
      obtain ⟨rest, whole⟩ := begins
      cases text with
      | nil => simp [utf8_ne_nil] at whole
      | cons d text =>
        rw [List.flatMap_cons, List.flatMap_cons, List.append_assoc] at whole
        obtain ⟨rfl, later⟩ := utf8_append_inj whole
        exact (List.prefix_cons_inj c).mpr (ih ⟨rest, later⟩)
  · rintro ⟨rest, rfl⟩
    rw [List.flatMap_append]
    exact List.prefix_append _ _

/-! ### Case -/

/-- Other characters are written with bytes that are no ASCII characters. -/
theorem le_of_mem_utf8 {c : Char} (other : 128 ≤ c.toNat) {b : UInt8} (member : b ∈ utf8 c) :
    128 ≤ b.toNat := by
  refine Nat.le_of_not_lt fun ascii => ?_
  -- Else the byte would be the whole of an ASCII character.
  have codes : ∀ code < 128, (Char.ofNat code).toNat = code := by decide +kernel
  have code := codes b.toNat ascii
  have same : utf8 c = utf8 (Char.ofNat b.toNat) := by
    rw [utf8_eq_singleton member ascii, utf8_of_ascii (by omega), code, UInt8.ofNat_toNat]
  rw [utf8_injective same, code] at other
  omega

/-- Lowering a character lowers its bytes. -/
theorem map_lowerByte_utf8 (c : Char) : (utf8 c).map lowerByte = utf8 c.toLower := by
  by_cases ascii : c.toNat < 128
  · have lowered : (c.toLower).toNat < 128 ∧
        lowerByte (UInt8.ofNat c.toNat) = UInt8.ofNat c.toLower.toNat :=
      forall_ascii (P := fun c => c.toLower.toNat < 128 ∧
        lowerByte (UInt8.ofNat c.toNat) = UInt8.ofNat c.toLower.toNat) (by decide +kernel) ascii
    rw [utf8_of_ascii ascii, utf8_of_ascii lowered.1, List.map_singleton, lowered.2]
  · have other : 128 ≤ c.toNat := Nat.le_of_not_lt ascii
    rw [toLower_of_not_ascii other]
    refine (List.map_congr_left fun b member => ?_).trans (List.map_id _)
    have high := le_of_mem_utf8 other member
    rw [lowerByte, if_neg (by omega), id]

theorem map_lowerByte_flatMap (text : List Char) :
    (text.flatMap utf8).map lowerByte = (text.map Char.toLower).flatMap utf8 := by
  rw [List.map_flatMap, List.flatMap_map]
  simp only [map_lowerByte_utf8]

theorem map_lowerByte_utf8Bytes (s : String) :
    (utf8Bytes s).map lowerByte = (fold s).flatMap utf8 := by
  rw [utf8Bytes_eq_flatMap, map_lowerByte_flatMap, fold]

/-! ### The comparison -/

/-- What a folded text begins with are characters of the text, folded. -/
theorem fold_prefix_iff {text start : String} :
    fold start <+: fold text ↔
      ∃ front back, text.toList = front ++ back ∧ front.map Char.toLower = fold start := by
  constructor
  · rintro ⟨rest, whole⟩
    obtain ⟨front, back, split, lowered, _⟩ := List.map_eq_append_iff.mp whole.symm
    exact ⟨front, back, split, lowered⟩
  · rintro ⟨front, back, split, lowered⟩
    rw [← lowered, fold, split, List.map_append]
    exact List.prefix_append _ _

/-- The first byte of a character is no continuation. -/
theorem isContinuation_of_utf8_eq_cons {c : Char} {b : UInt8} {later : List UInt8}
    (written : utf8 c = b :: later) : isContinuation b = false := by
  have checked : ∀ code < 256, (UInt8.ofNat code).IsUTF8FirstByte →
      isContinuation (UInt8.ofNat code) = false := by decide +kernel
  have first : b.IsUTF8FirstByte := by
    have begins := UInt8.isUTF8FirstByte_getElem_zero_utf8EncodeChar (c := c)
    simpa only [← utf8_eq, written, List.getElem_cons_zero] using begins
  have found := checked b.toNat b.toNat_lt
  rw [UInt8.ofNat_toNat] at found
  exact found first

theorem isBoundary_append (front back : List Char) :
    isBoundary ((front ++ back).flatMap utf8) (front.flatMap utf8).length = true := by
  rw [List.flatMap_append, isBoundary, List.getElem?_append_right (Nat.le_refl _), Nat.sub_self,
    ← List.head?_eq_getElem?]
  cases back with
  | nil => simp
  | cons c back =>
    -- The byte behind those of the characters in front is the first one of a character.
    obtain ⟨b, later, written⟩ := List.exists_cons_of_ne_nil (utf8_ne_nil c)
    simp [written, isContinuation_of_utf8_eq_cons written]

theorem startsWithBytes_of_append {text start : String} {front back : List Char}
    (split : text.toList = front ++ back) (same : front.map Char.toLower = fold start) :
    startsWithBytes text start = true := by
  -- What is cut off are the bytes of the characters in front.
  have lowered : (front.flatMap utf8).map lowerByte = (utf8Bytes start).map lowerByte := by
    rw [map_lowerByte_flatMap, map_lowerByte_utf8Bytes, same]
  have size : (utf8Bytes start).length = (front.flatMap utf8).length := by
    simpa using (congrArg List.length lowered).symm
  have bytes : utf8Bytes text = front.flatMap utf8 ++ back.flatMap utf8 := by
    rw [utf8Bytes_eq_flatMap, split, List.flatMap_append]
  have boundary := isBoundary_append front back
  rw [List.flatMap_append, ← bytes] at boundary
  have cut : (utf8Bytes text).take (front.flatMap utf8).length = front.flatMap utf8 := by
    rw [bytes, List.take_left]
  have fits : (front.flatMap utf8).length ≤ (utf8Bytes text).length := by
    rw [bytes]
    exact (List.prefix_append _ _).length_le
  simp only [startsWithBytes, size, fits, boundary, cut, lowered, decide_true, beq_self_eq_true,
    Bool.and_self]

theorem fold_prefix_of_startsWithBytes {text start : String}
    (begins : startsWithBytes text start = true) : fold start <+: fold text := by
  simp only [startsWithBytes, Bool.and_eq_true, beq_iff_eq] at begins
  rw [← flatMap_utf8_prefix_iff, ← map_lowerByte_utf8Bytes, ← map_lowerByte_utf8Bytes, ← begins.2]
  exact (List.take_prefix _ _).map lowerByte

/-- Neither comparison finds a beginning that the other one does not find: no character is cut in
two. -/
theorem startsWithBytes_eq (text start : String) :
    startsWithBytes text start = startsWithFold text start := by
  rw [Bool.eq_iff_iff, startsWithFold_iff]
  constructor
  · exact fold_prefix_of_startsWithBytes
  · intro begins
    obtain ⟨front, back, split, lowered⟩ := fold_prefix_iff.mp begins
    exact startsWithBytes_of_append split lowered

/-- A text begins with another one up to ASCII case when some text that it begins with equals the
other one. -/
theorem startsWithFold_iff_exists {text start : String} :
    startsWithFold text start = true ↔
      ∃ front back, text = front ++ back ∧ equalFold front start = true := by
  rw [startsWithFold_iff, fold_prefix_iff]
  constructor
  · rintro ⟨front, back, split, lowered⟩
    refine ⟨String.ofList front, String.ofList back, ?_, ?_⟩
    · rw [← String.ofList_append, ← split, String.ofList_toList]
    · rw [equalFold_iff, fold, String.toList_ofList, lowered]
  · rintro ⟨front, back, rfl, same⟩
    exact ⟨front.toList, back.toList, String.toList_append, equalFold_iff.mp same⟩

end DocRefs.Text
