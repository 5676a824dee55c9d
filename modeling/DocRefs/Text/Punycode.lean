/-!
# Punycode

Text beyond ASCII, written in letters, digits and hyphens. The ASCII characters come first, with a
hyphen behind them. The others are inserted one by one in the order of their codes. The possible
insertions are counted, code by code and place by place; what is written for each character is how
far the count goes on from the one before.
-/
namespace DocRefs.Text.Punycode

/-! ## Numbers of variable length -/

/-- A digit to base 36; the letters come before the decimal digits. -/
def digit (n : Nat) : Char :=
  if n < 26 then Char.ofNat ('a'.toNat + n) else Char.ofNat ('0'.toNat + (n - 26))

/-- A digit below the threshold of its position is the last one. -/
def threshold (bias position : Nat) : Nat := max 1 (min 26 (position - bias))

theorem threshold_pos (bias position : Nat) : 0 < threshold bias position := by
  unfold threshold; omega

/-- The digits of a number from a position on, the lowest first. -/
def number (bias position n : Nat) : List Char :=
  let least := threshold bias position
  if n < least then [digit n]
  else
    digit (least + (n - least) % (36 - least)) ::
      number bias (position + 36) ((n - least) / (36 - least))
termination_by n
decreasing_by
  have positive := threshold_pos bias position
  exact Nat.lt_of_le_of_lt (Nat.div_le_self _ _) (by omega)

/-- The bias at which a number of this size takes few digits. -/
def biasFor (n : Nat) : Nat :=
  if 455 < n then 36 + biasFor (n / 35) else 36 * n / (n + 38)
termination_by n
decreasing_by omega

/-- The bias behind a number. Numbers shrink as the text grows; the first one is an outlier. -/
def nextBias (first : Bool) (size n : Nat) : Nat :=
  let expected := if first then n / 700 else n / 2
  biasFor (expected + expected / size)

/-! ## Insertions -/

/-- How many characters are there already in front of the one at an index when it is inserted. -/
def placeOf (text : List Char) (c : Char) (index : Nat) : Nat :=
  ((text.take index).filter (· ≤ c)).length

/-- The codes and places of the characters beyond ASCII in the order of insertion. -/
def insertions (text : List Char) : List (Nat × Nat) :=
  let others := text.zipIdx.filter fun (c, _) => 0x80 ≤ c.toNat
  (others.mergeSort fun a b => a.1 ≤ b.1).map fun (c, index) => (c.toNat, placeOf text c index)

/-- Writes insertions into a text of a given size, from `code` and `place` on. -/
def written (first : Bool) (bias size code place : Nat) : List (Nat × Nat) → List Char
  | [] => []
  | (c, p) :: rest =>
    let distance := (c - code) * (size + 1) + p - place
    number bias 36 distance ++
      written false (nextBias first (size + 1) distance) (size + 1) c (p + 1) rest

def encode (text : List Char) : List Char :=
  let basic := text.filter (·.toNat < 0x80)
  let front := if basic.isEmpty then [] else basic ++ ['-']
  front ++ written true 72 basic.length 0x80 0 (insertions text)

end DocRefs.Text.Punycode
