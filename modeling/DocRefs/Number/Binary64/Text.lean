import DocRefs.Number.Binary64

/-!
# Decimal text of binary floating point

`read` accepts a decimal with an optional point and exponent, or the name of an infinity or of what
is not a number in any case. `shortest` finds the fewest digits that read back, and of those the
nearest; `Layout` says how digits and exponent are written down.
-/
namespace DocRefs

inductive FloatError where
  | empty
  | invalid
  deriving DecidableEq, Repr

def FloatError.message : FloatError → String
  | .empty => "cannot parse float from empty string"
  | .invalid => "invalid float literal"

namespace Binary64

/-- The value of a run of decimal digits. -/
def digitsValue (digits : List Char) : Nat :=
  digits.foldl (fun value c => value * 10 + (c.toNat - '0'.toNat)) 0

/-- An optional sign, and what follows it. -/
def takeSign : List Char → Bool × List Char
  | '+' :: rest => (false, rest)
  | '-' :: rest => (true, rest)
  | text => (false, text)

/-- The exponent behind the digits of a decimal: nothing, or `e` with an optional sign and
digits. -/
def exponentOf? : List Char → Option Int
  | [] => some 0
  | c :: rest =>
    if c = 'e' ∨ c = 'E' then
      let (negative, digits) := takeSign rest
      if digits.isEmpty || !digits.all Char.isDigit then none
      else some (if negative then -(digitsValue digits) else digitsValue digits)
    else none

/-- A decimal without sign as digits and a power of ten: it has a digit before or behind the
point. -/
def decimal? (text : List Char) : Option (Nat × Int) :=
  let whole := text.takeWhile Char.isDigit
  let rest := text.dropWhile Char.isDigit
  let (fraction, rest) := match rest with
    | '.' :: rest => (rest.takeWhile Char.isDigit, rest.dropWhile Char.isDigit)
    | rest => ([], rest)
  if whole.isEmpty && fraction.isEmpty then none
  else (exponentOf? rest).map fun exponent =>
    (digitsValue (whole ++ fraction), exponent - fraction.length)

/-- The words for values that are not finite. -/
def named? (negative : Bool) (text : List Char) : Option Binary64 :=
  let word := text.map Char.toLower
  if word = "inf".toList ∨ word = "infinity".toList then some (infinity negative)
  else if word = "nan".toList then some (nan negative)
  else none

def read (text : String) : Except FloatError Binary64 :=
  if text.toList.isEmpty then .error .empty
  else
    let (negative, rest) := takeSign text.toList
    match decimal? rest with
    | some (significand, exponent) => .ok (ofDecimal negative significand exponent)
    | none =>
      match named? negative rest with
      | some value => .ok value
      | none => .error .invalid

/-! ## Shortest digits -/

/-- The reals that round to a value, as quotients with one denominator. The ends belong to it when
the significand is even. -/
structure Interval where
  low : Nat
  middle : Nat
  high : Nat
  denominator : Nat
  closed : Bool

/-- Half the gap to each neighbour; below a power of two the gap is half as wide. -/
def interval (x : Binary64) : Interval :=
  let (m, q) := x.decode
  let below := if m = Nat.pow 2 52 ∧ q > leastExponent then 1 else 2
  -- Everything is counted in quarters of the last bit, so that both ends are whole.
  let up := Nat.pow 2 (q - 2).toNat
  ⟨(4 * m - below) * up, 4 * m * up, (4 * m + 2) * up, Nat.pow 2 (2 - q).toNat, m % 2 = 0⟩

namespace Interval

/-- `digits · 10 ^ exponent` lies in the interval. -/
def contains (i : Interval) (digits : Nat) (exponent : Int) : Bool :=
  let value := digits * Nat.pow 10 exponent.toNat * i.denominator
  let unit := Nat.pow 10 (-exponent).toNat
  if i.closed then i.low * unit ≤ value && value ≤ i.high * unit
  else i.low * unit < value && value < i.high * unit

/-- The decimal exponent of the first digit of the middle. -/
def magnitude (i : Interval) : Int :=
  if i.middle ≥ i.denominator then
    ((Nat.toDigits 10 (i.middle / i.denominator)).length : Int) - 1
  else
    let zeros := ((List.range 400).find? fun n => i.middle * Nat.pow 10 n ≥ i.denominator).getD 400
    Int.negOfNat zeros

/-- The two neighbours of the middle on the grid of step `10 ^ exponent`: the one below, and whether
the one above is nearer. -/
def neighbours (i : Interval) (exponent : Int) : Nat × Bool :=
  let step := i.denominator * Nat.pow 10 exponent.toNat
  let value := i.middle * Nat.pow 10 (-exponent).toNat
  let below := value / step
  let twice := 2 * (value % step)
  (below, twice > step || (twice == step && below % 2 == 1))

/-- The nearest point of a grid that lies in the interval. -/
def nearest? (i : Interval) (exponent : Int) : Option Nat :=
  let (below, upper) := i.neighbours exponent
  let (first, second) := if upper then (below + 1, below) else (below, below + 1)
  if i.contains first exponent then some first
  else if i.contains second exponent then some second
  else none

end Interval

/-- Drops trailing zeros of a decimal. -/
def dropZeros : Nat → Nat → Int → Nat × Int
  | 0, digits, exponent => (digits, exponent)
  | turns + 1, digits, exponent =>
    if digits ≠ 0 ∧ digits % 10 = 0 then dropZeros turns (digits / 10) (exponent + 1)
    else (digits, exponent)

/-- The fewest digits that read back, and the power of ten they are multiplied by. Seventeen digits
are always enough. -/
def shortest (x : Binary64) : Nat × Int :=
  let i := x.interval
  let top := i.magnitude
  -- The first grid with a point in the interval has the fewest digits.
  let found := (List.range 17).findSome? fun (n : Nat) =>
    let exponent := top - n
    (i.nearest? exponent).map fun digits => (digits, exponent)
  let (digits, exponent) := found.getD (0, 0)
  dropZeros 20 digits exponent

/-! ## Layout -/

/-- How the digits of a finite number are laid out. -/
structure Layout where
  /-- The point may stand at most this far behind the first digit. -/
  widest : Nat
  /-- At most this many zeros may stand between the point and the first digit. -/
  leadingZeros : Nat
  /-- A positive exponent has a plus sign. -/
  plus : Bool

/-- Positional numbers always show a digit behind the point; the rest have an exponent. -/
def Layout.digits (layout : Layout) (significand : Nat) (exponent : Int) : List Char :=
  let text := Nat.toDigits 10 significand
  let point : Int := text.length + exponent
  if 0 ≤ exponent ∧ point ≤ layout.widest then
    text ++ List.replicate exponent.toNat '0' ++ ['.', '0']
  else if 0 < point ∧ point ≤ layout.widest then
    text.take point.toNat ++ '.' :: text.drop point.toNat
  else if -(layout.leadingZeros : Int) ≤ point ∧ point ≤ 0 then
    '0' :: '.' :: List.replicate (-point).toNat '0' ++ text
  else
    let sign := if layout.plus && 1 < point then ['+'] else []
    let power := sign ++ (toString (point - 1)).toList
    match text with
    | [digit] => digit :: 'e' :: power
    | first :: rest => first :: '.' :: rest ++ 'e' :: power
    | [] => []

/-- The shortest text of a finite number. -/
def text (layout : Layout) (x : Binary64) : String :=
  let (significand, exponent) := if x.isZero then (0, 0) else x.shortest
  String.ofList ((if x.isNegative then ['-'] else []) ++ layout.digits significand exponent)

end Binary64

end DocRefs
