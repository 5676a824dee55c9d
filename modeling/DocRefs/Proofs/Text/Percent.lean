import DocRefs.Proofs.Text.Utf8

/-!
# Percent-encoding

Main result: `percentDecode_eq_self_iff`. Decoding changes a text exactly if a byte is encoded
somewhere in it and all its bytes are those of a text (`Decodes`). To see that it does change it,
percent signs and twos are counted: an encoded byte has more of them than the byte itself.
-/
namespace DocRefs.Text

/-! ### Encoded bytes -/

/-- The byte that the text begins with, where a percent sign stands in front of it. -/
def leadingByte? : List Char → Option UInt8
  | high :: low :: _ => hexByte? high low
  | _ => none

/-- Somewhere a percent sign and two digits stand for a byte. -/
inductive HasEscape : List Char → Prop
  | here {rest : List Char} (byte : (leadingByte? rest).isSome = true) : HasEscape ('%' :: rest)
  | later {c : Char} {rest : List Char} (escape : HasEscape rest) : HasEscape (c :: rest)

/-- A byte is encoded, and with all encoded bytes in place the text has the bytes of a text. -/
def Decodes (text : List Char) : Prop := HasEscape text ∧ IsText (percentBytes text)

section Steps

variable {c high low : Char} {rest : List Char} {byte : UInt8}

theorem percentBytes_of_byte (reads : hexByte? high low = some byte) (rest : List Char) :
    percentBytes ('%' :: high :: low :: rest) = byte :: percentBytes rest := by
  rw [percentBytes, reads]

theorem percentBytes_of_char (plain : c = '%' → leadingByte? rest = none) :
    percentBytes (c :: rest) = utf8 c ++ percentBytes rest := by
  by_cases percent : c = '%'
  · subst percent
    cases rest with
    | nil => rfl
    | cons high rest =>
      cases rest with
      | nil => rfl
      | cons low rest =>
        have unread : hexByte? high low = none := plain rfl
        rw [percentBytes, unread]
  · rw [percentBytes]
    rintro _ _ _ rfl
    exact absurd rfl percent

theorem hasEscape_of_byte (reads : hexByte? high low = some byte) (rest : List Char) :
    HasEscape ('%' :: high :: low :: rest) := .here (Option.isSome_iff_exists.mpr ⟨byte, reads⟩)

theorem hasEscape_of_char (plain : c = '%' → leadingByte? rest = none) :
    HasEscape (c :: rest) ↔ HasEscape rest := by
  refine ⟨fun escape => ?_, .later⟩
  cases escape with
  | here byte => simp [plain rfl] at byte
  | later escape => exact escape

theorem exists_of_leadingByte? (leads : leadingByte? rest = some byte) :
    ∃ high low more, rest = high :: low :: more ∧ hexByte? high low = some byte := by
  unfold leadingByte? at leads
  split at leads
  next high low more => exact ⟨high, low, more, rfl, leads⟩
  · cases leads

end Steps

/-- A text is read an encoded byte or a character at a time. -/
theorem percentInduction {motive : List Char → Prop} (nil : motive [])
    (byte : ∀ high low rest byte, hexByte? high low = some byte → motive rest →
      motive ('%' :: high :: low :: rest))
    (char : ∀ c rest, (c = '%' → leadingByte? rest = none) → motive rest → motive (c :: rest))
    (text : List Char) : motive text := by
  induction length : text.length using Nat.strongRecOn generalizing text with
  | _ n ih =>
    cases text with
    | nil => exact nil
    | cons c rest =>
      by_cases plain : c = '%' → leadingByte? rest = none
      · exact char c rest plain (ih _ (by simp [← length]) rest rfl)
      · obtain ⟨rfl, encoded⟩ := Classical.not_imp.mp plain
        obtain ⟨read, leads⟩ := Option.ne_none_iff_exists'.mp encoded
        obtain ⟨high, low, more, rfl, reads⟩ := exists_of_leadingByte? leads
        exact byte high low more read reads (ih _ (by simp [← length]; omega) more rfl)

theorem percentBytes_of_not_hasEscape {text : List Char} (plain : ¬ HasEscape text) :
    percentBytes text = text.flatMap utf8 := by
  induction text using percentInduction with
  | nil => rfl
  | byte high low rest byte reads ih => exact absurd (hasEscape_of_byte reads rest) plain
  | char c rest unread ih =>
    rw [hasEscape_of_char unread] at plain
    rw [percentBytes_of_char unread, List.flatMap_cons, ih plain]

/-! ### Digits -/

theorem hexDigit?_lt {c : Char} {value : Nat} (reads : hexDigit? c = some value) : value < 16 := by
  have bounds : '9'.toNat = 57 ∧ 'f'.toNat = 102 ∧ 'F'.toNat = 70 := by decide
  have starts : '0'.toNat = 48 ∧ 'a'.toNat = 97 ∧ 'A'.toNat = 65 := by decide
  unfold hexDigit? at reads
  split at reads
  next digit =>
    have value_eq := Option.some.inj reads
    have top := (Char.isDigit_iff_toNat.mp digit).2
    omega
  · split at reads
    next lower =>
      have value_eq := Option.some.inj reads
      have top : c.toNat ≤ 'f'.toNat := lower.2
      omega
    · split at reads
      next upper =>
        have value_eq := Option.some.inj reads
        have top : c.toNat ≤ 'F'.toNat := upper.2
        omega
      · cases reads

theorem eq_two_of_hexDigit? {c : Char} (two : hexDigit? c = some 2) : c = '2' := by
  unfold hexDigit? at two
  split at two
  next digit =>
    have value_eq := Option.some.inj two
    have numbers : '0'.toNat = 48 ∧ '2'.toNat = 50 := by decide
    apply Char.toNat_inj.mp
    omega
  · split at two
    · simp at two
    · split at two
      · simp at two
      · cases two

/-- Only digits are read as a byte. -/
theorem hexByte?_eq_none {high low : Char} (other : hexDigit? high = none ∨ hexDigit? low = none) :
    hexByte? high low = none := by
  rcases other with none_high | none_low
  · simp [hexByte?, none_high]
  · simp [hexByte?, none_low]

/-! ### Counting -/

def isCounted (c : Char) : Bool := c = '%' || c = '2'

def isCountedByte (b : UInt8) : Bool := b = 37 || b = 50

/-- The bytes that are counted are those of the characters that are. -/
theorem exists_counted {b : UInt8} (counted : isCountedByte b = true) :
    b.toNat < 128 ∧ ∃ c, isCounted c = true ∧ utf8 c = [b] := by
  obtain rfl | rfl : b = 37 ∨ b = 50 := by simpa [isCountedByte] using counted
  · exact ⟨by decide, '%', rfl, utf8_of_ascii (by decide)⟩
  · exact ⟨by decide, '2', rfl, utf8_of_ascii (by decide)⟩

theorem countP_utf8 (c : Char) : (utf8 c).countP isCountedByte = [c].countP isCounted := by
  by_cases counted : isCounted c = true
  · obtain rfl | rfl : c = '%' ∨ c = '2' := by simpa [isCounted] using counted
    all_goals
      rw [utf8_of_ascii (by decide)]
      rfl
  · rw [List.countP_eq_zero.mpr, List.countP_eq_zero.mpr]
    · simpa using counted
    · intro b member there
      -- The byte would be the whole character.
      obtain ⟨ascii, d, other, alone⟩ := exists_counted there
      rw [← utf8_eq_singleton member ascii] at alone
      exact counted (utf8_injective alone ▸ other)

theorem countP_flatMap_utf8 (text : List Char) :
    (text.flatMap utf8).countP isCountedByte = text.countP isCounted := by
  induction text with
  | nil => rfl
  | cons c rest ih =>
    rw [List.flatMap_cons, List.countP_append, ih, countP_utf8, ← List.countP_append]
    rfl

/-- An encoded byte that is counted has a two among its digits. -/
theorem eq_two_of_hexByte? {high low : Char} {byte : UInt8} (reads : hexByte? high low = some byte)
    (counted : isCountedByte byte = true) : high = '2' ∨ low = '2' := by
  simp only [hexByte?, bind, Option.bind_eq_some_iff] at reads
  obtain ⟨h, high_eq, l, low_eq, byte_eq⟩ := reads
  have table : ∀ h < 16, ∀ l < 16, isCountedByte (UInt8.ofNat (h * 16 + l)) = true →
      h = 2 ∨ l = 2 := by decide
  obtain rfl := Option.some.inj byte_eq
  rcases table h (hexDigit?_lt high_eq) l (hexDigit?_lt low_eq) counted with rfl | rfl
  · exact .inl (eq_two_of_hexDigit? high_eq)
  · exact .inr (eq_two_of_hexDigit? low_eq)

theorem countP_byte_le {high low : Char} {byte : UInt8} (reads : hexByte? high low = some byte) :
    [byte].countP isCountedByte ≤ [high, low].countP isCounted := by
  cases counted : isCountedByte byte with
  | false => simp [counted]
  | true =>
    have two : isCounted '2' = true := rfl
    rcases eq_two_of_hexByte? reads counted with rfl | rfl <;>
      simp only [List.countP_cons, List.countP_nil, counted, two] <;> simp

theorem countP_percentBytes_le (text : List Char) :
    (percentBytes text).countP isCountedByte ≤ text.countP isCounted := by
  induction text using percentInduction with
  | nil => exact Nat.le_refl _
  | byte high low rest byte reads ih =>
    have here := countP_byte_le reads
    rw [percentBytes_of_byte reads]
    simp only [List.countP_cons, List.countP_nil] at here ⊢
    omega
  | char c rest plain ih =>
    rw [percentBytes_of_char plain, List.countP_append, countP_utf8]
    simp only [List.countP_cons, List.countP_nil]
    omega

theorem countP_percentBytes_lt {text : List Char} (escape : HasEscape text) :
    (percentBytes text).countP isCountedByte < text.countP isCounted := by
  induction text using percentInduction with
  | nil => cases escape
  | byte high low rest byte reads ih =>
    -- The digits are enough for the byte, and there is the percent sign besides.
    have here := countP_byte_le reads
    have later := countP_percentBytes_le rest
    have percent : isCounted '%' = true := rfl
    rw [percentBytes_of_byte reads]
    simp only [List.countP_cons, List.countP_nil, percent, if_true] at here ⊢
    omega
  | char c rest plain ih =>
    have less := ih ((hasEscape_of_char plain).mp escape)
    rw [percentBytes_of_char plain, List.countP_append, countP_utf8]
    simp only [List.countP_cons, List.countP_nil]
    omega

/-! ### What decoding changes -/

theorem HasEscape.mem {text : List Char} (escape : HasEscape text) : '%' ∈ text := by
  induction escape with
  | here => exact List.mem_cons_self
  | later _ ih => exact List.mem_cons_of_mem _ ih

theorem countP_percentDecode_lt {text : List Char} (decodes : Decodes text) :
    (percentDecode text).countP isCounted < text.countP isCounted := by
  obtain ⟨escape, decoded, written⟩ := decodes
  have found : String.fromUTF8? ⟨(percentBytes text).toArray⟩ = some (String.ofList decoded) :=
    fromUTF8?_eq_some_iff.mpr (by rw [String.toList_ofList, written])
  rw [percentDecode, if_pos (List.contains_iff_mem.mpr escape.mem), found]
  dsimp only
  rw [String.toList_ofList, ← countP_flatMap_utf8 decoded, written]
  exact countP_percentBytes_lt escape

theorem percentDecode_eq_self_iff {text : List Char} :
    percentDecode text = text ↔ ¬ Decodes text := by
  constructor
  · intro same decodes
    have less := countP_percentDecode_lt decodes
    rw [same] at less
    exact Nat.lt_irrefl _ less
  · intro plain
    rw [percentDecode]
    split
    · split
      next decoded found =>
        have written := fromUTF8?_eq_some_iff.mp found
        have unescaped : ¬ HasEscape text := fun escape => plain ⟨escape, _, written⟩
        have itself : String.fromUTF8? ⟨(percentBytes text).toArray⟩ = some (String.ofList text) :=
          fromUTF8?_eq_some_iff.mpr
            (by rw [String.toList_ofList, percentBytes_of_not_hasEscape unescaped])
        rw [Option.some.inj (found.symm.trans itself), String.toList_ofList]
      · rfl
    · rfl

end DocRefs.Text
