/-!
# Reading integers of bounded width

Digits are taken from the left and the value grows with each of them, so the first digit that
breaks a rule decides the error: a character that is no digit, or a value out of range.
-/
namespace DocRefs

inductive IntegerError where
  | empty
  | invalidDigit
  | tooLarge
  | tooSmall
  deriving DecidableEq, Repr

namespace IntegerError

def message : IntegerError → String
  | empty => "cannot parse integer from empty string"
  | invalidDigit => "invalid digit found in string"
  | tooLarge => "number too large to fit in target type"
  | tooSmall => "number too small to fit in target type"

end IntegerError

/-- The least and the greatest value of an integer type. -/
structure IntegerRange where
  least : Int
  greatest : Int
  deriving DecidableEq, Repr

namespace IntegerRange

/-- Signed integers of 64 bits. -/
def int64 : IntegerRange := ⟨-(Nat.pow 2 63 : Int), Nat.pow 2 63 - 1⟩

/-- Unsigned integers of 64 bits. -/
def nat64 : IntegerRange := ⟨0, Nat.pow 2 64 - 1⟩

def Contains (range : IntegerRange) (value : Int) : Prop :=
  range.least ≤ value ∧ value ≤ range.greatest

instance (range : IntegerRange) (value : Int) : Decidable (range.Contains value) :=
  inferInstanceAs (Decidable (_ ∧ _))

/-- The value after one more digit; `sign` is 1 or -1. -/
def push (range : IntegerRange) (sign : Int) (value : Int) (c : Char) : Except IntegerError Int :=
  if !c.isDigit then .error .invalidDigit
  else
    let next := value * 10 + sign * (c.toNat - '0'.toNat : Nat)
    if next > range.greatest then .error .tooLarge
    else if next < range.least then .error .tooSmall
    else .ok next

/-- Reads a sign and decimal digits. A range without negative values knows no minus sign. -/
def read (range : IntegerRange) (text : String) : Except IntegerError Int :=
  match text.toList with
  | [] => .error .empty
  | ['+'] | ['-'] => .error .invalidDigit
  | first :: rest =>
    if first = '+' then rest.foldlM (range.push 1) 0
    else if first = '-' ∧ range.least < 0 then rest.foldlM (range.push (-1)) 0
    else (first :: rest).foldlM (range.push 1) 0

/-- Reading never leaves the range. -/
theorem contains_of_push {range : IntegerRange} {sign value next : Int} {c : Char}
    (pushed : range.push sign value c = .ok next) : range.Contains next := by
  unfold push at pushed
  split at pushed
  · simp at pushed
  · dsimp only at pushed
    split at pushed
    · simp at pushed
    · split at pushed
      · simp at pushed
      · simp only [Except.ok.injEq] at pushed
        subst pushed
        constructor <;> omega

end IntegerRange

end DocRefs
