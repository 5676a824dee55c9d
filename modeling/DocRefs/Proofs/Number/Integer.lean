import DocRefs.Number.Integer
import Mathlib.Algebra.Ring.Nat

/-!
# Integers from digits

Digits behind an optional sign are read as their value, or it is said which end of the range the
value is beyond (`read_digits`, `read_plus`, `read_minus`): once a run of digits has left the range
no further digit brings it back. The decimal text of a value in the range is read back
(`read_toString`).
-/
namespace DocRefs

/-! ### Texts of numbers -/

theorem toList_toString (n : Nat) : (toString n).toList = Nat.toDigits 10 n := by
  rw [Nat.toString_eq_repr, Nat.toList_repr]

theorem toString_injective {m n : Nat} (same : toString m = toString n) : m = n := by
  have value (k : Nat) : Nat.ofDigitChars 10 (toString k).toList 0 = k := by
    rw [toList_toString, Nat.ofDigitChars_toDigits (by decide) (by decide)]
  rw [← value m, same, value]

theorem isDigit_of_mem_toString {n : Nat} {c : Char} (member : c ∈ (toString n).toList) :
    c.isDigit = true := by
  rw [toList_toString] at member
  exact Nat.isDigit_of_mem_toDigits (by decide) (by decide) member

namespace IntegerRange

variable {range : IntegerRange}

/-! ### Runs of digits -/

/-- A value, if it is in the range. -/
def settle (range : IntegerRange) (value : Int) : Except IntegerError Int :=
  if value > range.greatest then .error .tooLarge
  else if value < range.least then .error .tooSmall
  else .ok value

theorem settle_of_contains {value : Int} (fits : range.Contains value) :
    range.settle value = .ok value := by
  obtain ⟨low, high⟩ := fits
  rw [settle, if_neg (by omega), if_neg (by omega)]

theorem settle_eq_ok_iff {value result : Int} :
    range.settle value = .ok result ↔ range.Contains value ∧ value = result := by
  unfold settle Contains
  split
  · simp only [reduceCtorEq, false_iff]
    omega
  · split
    · simp only [reduceCtorEq, false_iff]
      omega
    · simp only [Except.ok.injEq]
      omega

theorem exists_settle_of_not_contains {value : Int} (beyond : ¬ range.Contains value) :
    ∃ problem, range.settle value = .error problem := by
  cases settled : range.settle value with
  | ok result => exact absurd (settle_eq_ok_iff.mp settled).1 beyond
  | error problem => exact ⟨problem, rfl⟩

theorem push_digit {c : Char} (digit : c.isDigit = true) (sign value : Int) :
    range.push sign value c = range.settle (value * 10 + sign * (c.toNat - '0'.toNat : Nat)) := by
  rw [push, digit, Bool.not_true, if_neg Bool.false_ne_true, settle]

theorem le_ofDigitChars (digits : List Char) (start : Nat) :
    start ≤ Nat.ofDigitChars 10 digits start := by
  induction digits generalizing start with
  | nil => exact Nat.le_refl start
  | cons c rest ih =>
    have step := ih (10 * start + (c.toNat - '0'.toNat))
    rw [Nat.ofDigitChars_cons]
    omega

variable (zero : range.Contains 0)

include zero

/-- A value that is further from zero, on the same side, is beyond the same end of the range. -/
theorem settle_beyond {sign : Int} (unit : sign = 1 ∨ sign = -1) {near far : Nat} (le : near ≤ far)
    {problem : IntegerError} (beyond : range.settle (sign * near) = .error problem) :
    range.settle (sign * far) = .error problem := by
  obtain ⟨low, high⟩ := zero
  unfold settle at beyond ⊢
  rcases unit with rfl | rfl <;> split at beyond
  · rwa [if_pos (by omega)]
  · rw [if_neg (by omega)] at beyond
    cases beyond
  · omega
  · split at beyond
    · rwa [if_neg (by omega), if_pos (by omega)]
    · cases beyond

/-- Digits are read as the value that they have behind those before them. -/
theorem foldlM_push {sign : Int} (unit : sign = 1 ∨ sign = -1) {digits : List Char}
    (digit : ∀ c ∈ digits, c.isDigit = true) {start : Nat} (inside : range.Contains (sign * start)) :
    digits.foldlM (range.push sign) (sign * start) =
      range.settle (sign * Nat.ofDigitChars 10 digits start) := by
  induction digits generalizing start with
  | nil => exact (settle_of_contains inside).symm
  | cons c rest ih =>
    obtain ⟨here, later⟩ := List.forall_mem_cons.mp digit
    have value : sign * start * 10 + sign * (c.toNat - '0'.toNat : Nat) =
        sign * ((10 * start + (c.toNat - '0'.toNat) : Nat) : Int) := by
      rcases unit with rfl | rfl <;> omega
    rw [List.foldlM_cons, push_digit here, value, Nat.ofDigitChars_cons]
    cases next : range.settle (sign * ((10 * start + (c.toNat - '0'.toNat) : Nat) : Int)) with
    | ok result =>
      obtain ⟨fits, rfl⟩ := settle_eq_ok_iff.mp next
      exact ih later fits
    | error problem =>
      exact (settle_beyond zero unit (le_ofDigitChars rest _) next).symm

/-! ### Signs -/

variable {text : String} {digits : List Char} (digit : ∀ c ∈ digits, c.isDigit = true)
  (written : digits ≠ [])

include digit

theorem foldlM_push_zero {sign : Int} (unit : sign = 1 ∨ sign = -1) :
    digits.foldlM (range.push sign) 0 = range.settle (sign * Nat.ofDigitChars 10 digits 0) := by
  have inside : range.Contains (sign * (0 : Nat)) := by simpa using zero
  simpa using foldlM_push zero unit digit inside

variable (written : digits ≠ [])

include written

theorem read_plus (letters : text.toList = '+' :: digits) :
    range.read text = range.settle (Nat.ofDigitChars 10 digits 0) := by
  obtain ⟨first, rest, rfl⟩ := List.exists_cons_of_ne_nil written
  have run := foldlM_push_zero zero digit (.inl rfl)
  unfold read
  rw [letters]
  simpa using run

theorem read_minus (negative : range.least < 0) (letters : text.toList = '-' :: digits) :
    range.read text = range.settle (-Nat.ofDigitChars 10 digits 0) := by
  obtain ⟨first, rest, rfl⟩ := List.exists_cons_of_ne_nil written
  have run := foldlM_push_zero zero digit (.inr rfl)
  unfold read
  rw [letters]
  simpa [negative] using run

theorem read_digits (letters : text.toList = digits) :
    range.read text = range.settle (Nat.ofDigitChars 10 digits 0) := by
  have run := foldlM_push_zero zero digit (.inl rfl)
  obtain ⟨first, rest, rfl⟩ := List.exists_cons_of_ne_nil written
  -- The first character is a digit and no sign.
  have no_plus : first ≠ '+' := fun same => by simp [same] at digit
  have no_minus : first ≠ '-' := fun same => by simp [same] at digit
  unfold read
  rw [letters]
  split
  next none_there => simp at none_there
  next plus => exact absurd (List.cons.inj plus).1 no_plus
  next minus => exact absurd (List.cons.inj minus).1 no_minus
  next there =>
    obtain ⟨rfl, rfl⟩ := List.cons.inj there
    rw [if_neg no_plus, if_neg fun sign => no_minus sign.1]
    simpa using run

omit digit written

theorem read_toString {value : Int} (fits : range.Contains value) :
    range.read (toString value) = .ok value := by
  have digit (n : Nat) : ∀ c ∈ Nat.toDigits 10 n, c.isDigit = true :=
    fun c => Nat.isDigit_of_mem_toDigits (by decide) (by decide)
  have read_back (n : Nat) : Nat.ofDigitChars 10 (Nat.toDigits 10 n) 0 = n :=
    Nat.ofDigitChars_toDigits (by decide) (by decide)
  cases value with
  | ofNat n =>
    have letters : (toString (Int.ofNat n)).toList = Nat.toDigits 10 n := toList_toString n
    rw [read_digits zero (digit n) Nat.toDigits_ne_nil letters, read_back]
    exact settle_of_contains fits
  | negSucc n =>
    have negative : range.least < 0 := by
      have low := fits.1
      omega
    have letters : (toString (Int.negSucc n)).toList = '-' :: Nat.toDigits 10 (n + 1) := by
      rw [← toList_toString]
      exact String.toList_append
    rw [read_minus zero (digit (n + 1)) Nat.toDigits_ne_nil negative letters, read_back]
    exact settle_of_contains fits

end IntegerRange

end DocRefs
