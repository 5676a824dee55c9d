import DocRefs.Extract.Field
import DocRefs.Node.Build
import DocRefs.Proofs.Extract.Decoded
import DocRefs.Proofs.Node.CoreSchema
import DocRefs.Proofs.Number.Integer

/-!
# What is read of numbers

A plain scalar gets its tag by the core schema, and its value by the readers of decimal integers and
floats. An integer in base ten is read as what it denotes if it fits; one in another base is an
integer by its tag and no number to the reader. A decimal is read as a float; the words for what is
not finite, which begin with a point, are not. Main result: `numbers_decoded`.
-/
namespace DocRefs

namespace CoreSchema

/-! ### What an integer text denotes -/

/-- The number that digits in a base stand for. -/
def value (base : Nat) (digits : List Char) : Nat :=
  digits.foldl (fun value c => base * value + (Text.hexDigit? c).getD 0) 0

/-- The integer that a text stands for: in base eight or sixteen behind its mark, or in base ten
behind an optional sign. -/
def denoted : List Char → Int
  | '0' :: 'o' :: digits => value 8 digits
  | '0' :: 'x' :: digits => value 16 digits
  | '+' :: digits => value 10 digits
  | '-' :: digits => -value 10 digits
  | digits => value 10 digits

theorem value_ten {digits : List Char} (digit : ∀ c ∈ digits, c.isDigit = true) :
    value 10 digits = Nat.ofDigitChars 10 digits 0 := by
  have run (start : Nat) :
      digits.foldl (fun value c => 10 * value + (Text.hexDigit? c).getD 0) start =
        Nat.ofDigitChars 10 digits start := by
    induction digits generalizing start with
    | nil => rfl
    | cons c rest ih =>
      obtain ⟨here, later⟩ := List.forall_mem_cons.mp digit
      have digit_value : Text.hexDigit? c = some (c.toNat - '0'.toNat) := by
        rw [Text.hexDigit?, if_pos here]
      rw [List.foldl_cons, ih later, digit_value, Option.getD_some, Nat.ofDigitChars_cons]
  exact run 0

theorem digits_of_allOf {digits : List Char} (all : CoreTag.allOf Char.isDigit digits = true) :
    digits ≠ [] ∧ ∀ c ∈ digits, c.isDigit = true := by
  simpa [CoreTag.allOf] using all

section

variable {range : IntegerRange} (zero : range.Contains 0) {text : String}

include zero

theorem read_tens (negative : range.least < 0) (spelled : Spells tens text) :
    range.read text = range.settle (denoted text.toList) := by
  have all := mem_tens.mp spelled
  unfold Binary64.takeSign at all
  split at all
  next digits letters =>
    obtain ⟨written, digit⟩ := digits_of_allOf all
    rw [IntegerRange.read_plus zero digit written letters, letters, denoted, value_ten digit]
  next digits letters =>
    obtain ⟨written, digit⟩ := digits_of_allOf all
    rw [IntegerRange.read_minus zero digit written negative letters, letters, denoted,
      value_ten digit]
  next no_plus no_minus =>
    obtain ⟨written, digit⟩ := digits_of_allOf all
    rw [IntegerRange.read_digits zero digit written rfl]
    unfold denoted
    split
    next letters => simp [letters] at digit
    next letters => simp [letters] at digit
    next rest letters => exact absurd letters (no_plus rest)
    next rest letters => exact absurd letters (no_minus rest)
    next => rw [value_ten digit]

/-- Behind the mark of a base no decimal digit follows. -/
theorem read_marked {mark : Char} {rest : List Char} (letter : mark.isDigit = false)
    (letters : text.toList = '0' :: mark :: rest) : range.read text = .error .invalidDigit := by
  have first : range.push 1 0 '0' = .ok 0 := by
    rw [IntegerRange.push_digit (by decide)]
    exact IntegerRange.settle_of_contains (by simpa using zero)
  have second : range.push 1 0 mark = .error .invalidDigit := by simp [IntegerRange.push, letter]
  unfold IntegerRange.read
  rw [letters]
  simp [List.foldlM_cons, first, second, bind, Except.bind]

end

variable {text : String}

theorem read_radix {range : IntegerRange} (zero : range.Contains 0) (spelled : Spells integer text)
    (other : ¬ Spells tens text) : range.read text = .error .invalidDigit := by
  rcases (mem_integer.mp spelled).resolve_left other with octal | hexadecimal
  · obtain ⟨rest, _, letters⟩ := mem_octal.mp octal
    exact read_marked zero (by decide) letters
  · obtain ⟨rest, _, letters⟩ := mem_hexadecimal.mp hexadecimal
    exact read_marked zero (by decide) letters

theorem exists_read_of_decimal (spelled : Spells decimal text) :
    ∃ x, Binary64.read text = .ok x := by
  obtain ⟨parts, found⟩ := Option.isSome_iff_exists.mp (mem_decimal.mp spelled)
  have written : text.toList.isEmpty = false := by
    cases letters : text.toList with
    | nil => simp [letters, Binary64.takeSign, Binary64.decimal?] at found
    | cons c rest => rfl
  refine ⟨Binary64.ofDecimal (Binary64.takeSign text.toList).1 parts.1 parts.2, ?_⟩
  rw [Binary64.read, written, if_neg Bool.false_ne_true]
  simp only [found]

theorem read_word : ∀ word ∈ CoreTag.floatWords, Binary64.read word = .error .invalid := by
  decide +kernel

end CoreSchema

/-! ### Plain scalars -/

/-- The node of a plain scalar. -/
def Node.plainScalar (free : NodeId) (text : String) : Node := ((Build.scalar text).run free).1

section

variable (key : Node) (free : NodeId) (text : String)

theorem ofNode_plainScalar : Decoded.ofNode (.plainScalar free text) =
    Decoded.ofScalar { id := free, tag := CoreTag.infer text } text := Decoded.ofNode_scalar _ _

theorem convert_integer :
    (FieldType.convert key (.plainScalar free text) : Except FieldProblem Int) =
      (IntegerRange.int64.read text).mapError (.notInteger text) := rfl

theorem convert_number :
    (FieldType.convert key (.plainScalar free text) : Except FieldProblem Binary64) =
      (Binary64.read text).mapError (.notNumber text) := rfl

open CoreSchema in
/-- A plain scalar with the tag of integers gives the integer that it denotes exactly if it is in
base ten and in range; one with the tag of floats gives a float exactly if it is no word for what is
not finite. Otherwise it is decoded as a string, and does not convert to a field. -/
theorem numbers_decoded :
    (CoreTag.infer text = CoreTag.int →
      (Spells tens text ∧ IntegerRange.int64.Contains (denoted text.toList) →
        Decoded.ofNode (.plainScalar free text) = .integer (denoted text.toList) ∧
          FieldType.convert key (.plainScalar free text) = .ok (denoted text.toList)) ∧
      (¬ (Spells tens text ∧ IntegerRange.int64.Contains (denoted text.toList)) →
        Decoded.ofNode (.plainScalar free text) = .string text ∧
          ∃ cause, (FieldType.convert key (.plainScalar free text) : Except FieldProblem Int) =
            .error (.notInteger text cause))) ∧
    (CoreTag.infer text = CoreTag.float →
      (text ∉ CoreTag.floatWords →
        ∃ x : Binary64, Decoded.ofNode (.plainScalar free text) = .float x ∧
          FieldType.convert key (.plainScalar free text) = .ok x) ∧
      (text ∈ CoreTag.floatWords →
        Decoded.ofNode (.plainScalar free text) = .string text ∧
          (FieldType.convert key (.plainScalar free text) : Except FieldProblem Binary64) =
            .error (.notNumber text .invalid))) := by
  have zero : IntegerRange.int64.Contains 0 := by decide
  have negative : IntegerRange.int64.least < 0 := by decide
  obtain ⟨_, _, integer_iff, float_iff, _⟩ := infer_eq_iff text
  rw [ofNode_plainScalar, convert_integer, convert_number]
  refine ⟨fun tag => ⟨?_, ?_⟩, fun tag => ⟨?_, ?_⟩⟩
  · rintro ⟨spelled, fits⟩
    have read := (read_tens zero negative spelled).trans (IntegerRange.settle_of_contains fits)
    rw [Decoded.ofScalar_integer tag read, read]
    exact ⟨rfl, rfl⟩
  · intro other
    obtain ⟨cause, unread⟩ : ∃ cause, IntegerRange.int64.read text = .error cause := by
      by_cases spelled : Spells tens text
      · rw [read_tens zero negative spelled]
        exact IntegerRange.exists_settle_of_not_contains fun fits => other ⟨spelled, fits⟩
      · exact ⟨_, read_radix zero (integer_iff.mp tag) spelled⟩
    rw [Decoded.ofScalar_not_integer tag unread, unread]
    exact ⟨rfl, cause, rfl⟩
  · intro finite
    obtain ⟨_, spelled, no_word, no_capitals⟩ := float_iff.mp tag
    have decimal : Spells decimal text := by
      rcases spells_float.mp spelled with decimal | listed | rfl | rfl
      · exact decimal
      · exact absurd listed finite
      · exact absurd rfl no_word
      · exact absurd rfl no_capitals
    obtain ⟨x, read⟩ := exists_read_of_decimal decimal
    rw [Decoded.ofScalar_float tag read, read]
    exact ⟨x, rfl, rfl⟩
  · intro listed
    have unread := read_word text listed
    rw [Decoded.ofScalar_not_float tag unread, unread]
    exact ⟨rfl, rfl⟩

end

open CoreSchema in
/-- An integer with a sign and zeros in front is read, one in base sixteen is not; a decimal without
digits before its point is read, and a word is not. -/
theorem numbers_decoded_mixed :
    (CoreTag.infer "-0012" = CoreTag.int ∧
      Decoded.ofNode (.plainScalar ⟨1⟩ "-0012") = .integer (-12)) ∧
    (CoreTag.infer "0x1F" = CoreTag.int ∧
      Decoded.ofNode (.plainScalar ⟨1⟩ "0x1F") = .string "0x1F") ∧
    (CoreTag.infer "+.5e-3" = CoreTag.float ∧
      ∃ x, Decoded.ofNode (.plainScalar ⟨1⟩ "+.5e-3") = .float x) ∧
    (CoreTag.infer "-.Inf" = CoreTag.float ∧
      Decoded.ofNode (.plainScalar ⟨1⟩ "-.Inf") = .string "-.Inf") := by
  let key : Node := .plainScalar ⟨0⟩ "n"
  have signed : CoreTag.infer "-0012" = CoreTag.int := by decide +kernel
  have marked : CoreTag.infer "0x1F" = CoreTag.int := by decide +kernel
  have point : CoreTag.infer "+.5e-3" = CoreTag.float := by decide +kernel
  have word : CoreTag.infer "-.Inf" = CoreTag.float := by decide +kernel
  have base_ten : Spells tens "-0012" := mem_tens.mpr (by decide +kernel)
  have fits : IntegerRange.int64.Contains (denoted "-0012".toList) := by decide +kernel
  have not_base_ten : ¬ Spells tens "0x1F" := fun spelled =>
    absurd (mem_tens.mp spelled) (by decide +kernel)
  have finite : "+.5e-3" ∉ CoreTag.floatWords := by decide +kernel
  have listed : "-.Inf" ∈ CoreTag.floatWords := by decide +kernel
  refine ⟨⟨signed, ?_⟩, ⟨marked, ?_⟩, ⟨point, ?_⟩, ⟨word, ?_⟩⟩
  · exact (((numbers_decoded key ⟨1⟩ "-0012").1 signed).1 ⟨base_ten, fits⟩).1
  · exact (((numbers_decoded key ⟨1⟩ "0x1F").1 marked).2 fun both => not_base_ten both.1).1
  · obtain ⟨x, decoded, _⟩ := ((numbers_decoded key ⟨1⟩ "+.5e-3").2 point).1 finite
    exact ⟨x, decoded⟩
  · exact (((numbers_decoded key ⟨1⟩ "-.Inf").2 word).2 listed).1

/-- The tag is that of a number, and the number is in range; yet it is decoded as a string, and its
conversion to a field fails. -/
theorem number_tagged_not_read :
    (CoreTag.infer "0x1F" = CoreTag.int ∧ CoreSchema.denoted "0x1F".toList = 31 ∧
      IntegerRange.int64.Contains 31 ∧
      Decoded.ofNode (.plainScalar ⟨1⟩ "0x1F") = .string "0x1F" ∧
      (FieldType.convert (.plainScalar ⟨0⟩ "n") (.plainScalar ⟨1⟩ "0x1F") :
        Except FieldProblem Int) = .error (.notInteger "0x1F" .invalidDigit)) ∧
    (CoreTag.infer ".inf" = CoreTag.float ∧
      Decoded.ofNode (.plainScalar ⟨1⟩ ".inf") = .string ".inf" ∧
      (FieldType.convert (.plainScalar ⟨0⟩ "n") (.plainScalar ⟨1⟩ ".inf") :
        Except FieldProblem Binary64) = .error (.notNumber ".inf" .invalid)) := by
  have marked : CoreTag.infer "0x1F" = CoreTag.int := by decide +kernel
  have word : CoreTag.infer ".inf" = CoreTag.float := by decide +kernel
  have unread : IntegerRange.int64.read "0x1F" = .error .invalidDigit := by decide +kernel
  have unread_word : Binary64.read ".inf" = .error .invalid := by decide +kernel
  refine ⟨⟨marked, by decide +kernel, by decide, ?_, ?_⟩, word, ?_, ?_⟩
  · rw [ofNode_plainScalar, Decoded.ofScalar_not_integer marked unread]
  · rw [convert_integer, unread]
    rfl
  · rw [ofNode_plainScalar, Decoded.ofScalar_not_float word unread_word]
  · rw [convert_number, unread_word]
    rfl

end DocRefs
