/-!
# Binary floating point

A `Binary64` is a word of 64 bits read as sign, exponent and significand. Every finite value is
`significand · 2 ^ exponent` up to sign, so reading and writing decimals is exact integer
arithmetic: `ofRatio` rounds a quotient of naturals to the nearest value, ties to the even one.
-/
namespace DocRefs

structure Binary64 where
  bits : UInt64
  deriving DecidableEq, Repr, Hashable, Inhabited

namespace Binary64

/-- The weight of the last bit of the subnormal numbers. -/
def leastExponent : Int := -1074

def isNegative (x : Binary64) : Bool := x.bits.toNat ≥ Nat.pow 2 63

/-- The word without its sign. -/
def magnitude (x : Binary64) : Nat := x.bits.toNat % Nat.pow 2 63

/-- The magnitude of infinity: everything above is not a number. -/
def infinityMagnitude : Nat := 0x7FF * Nat.pow 2 52

def isNaN (x : Binary64) : Bool := x.magnitude > infinityMagnitude

def isInfinite (x : Binary64) : Bool := x.magnitude == infinityMagnitude

def isFinite (x : Binary64) : Bool := x.magnitude < infinityMagnitude

def isZero (x : Binary64) : Bool := x.magnitude == 0

/-- Equality as numbers: the zeros are equal, and so is whatever is not a number. -/
def sameNumber (x y : Binary64) : Bool :=
  (x.isNaN && y.isNaN) || (x.isZero && y.isZero) || (!x.isNaN && x == y)

def ofMagnitude (negative : Bool) (magnitude : Nat) : Binary64 :=
  ⟨UInt64.ofNat (if negative then Nat.pow 2 63 + magnitude else magnitude)⟩

def infinity (negative : Bool) : Binary64 := ofMagnitude negative infinityMagnitude

def nan (negative : Bool) : Binary64 := ofMagnitude negative (infinityMagnitude + Nat.pow 2 51)

/-- Significand and exponent of a finite value. -/
def decode (x : Binary64) : Nat × Int :=
  let field := x.magnitude / Nat.pow 2 52
  let fraction := x.magnitude % Nat.pow 2 52
  if field = 0 then (fraction, leastExponent)
  else (Nat.pow 2 52 + fraction, leastExponent + (field - 1 : Nat))

/-- The quotient rounded to a natural number, a half to the even neighbour. -/
def roundDiv (numerator denominator : Nat) : Nat :=
  let quotient := numerator / denominator
  let twice := 2 * (numerator % denominator)
  if twice > denominator ∨ (twice = denominator ∧ quotient % 2 = 1) then quotient + 1 else quotient

/-- `numerator / (denominator · 2 ^ exponent)` as a quotient of naturals. -/
def scaled (numerator denominator : Nat) (exponent : Int) : Nat × Nat :=
  if exponent ≥ 0 then (numerator, denominator * Nat.pow 2 exponent.toNat)
  else (numerator * Nat.pow 2 (-exponent).toNat, denominator)

/-- The exponent at which a quotient has a significand of 53 bits, or the least one. -/
def exponentOf (numerator denominator : Nat) : Int :=
  let guess : Int := (Nat.log2 numerator : Int) - (Nat.log2 denominator : Int) - 52
  let (n, d) := scaled numerator denominator guess
  max leastExponent (if n < d * Nat.pow 2 52 then guess - 1 else guess)

/-- The value nearest to a quotient. -/
def ofRatio (negative : Bool) (numerator denominator : Nat) : Binary64 :=
  if numerator = 0 then ofMagnitude negative 0
  else
    let exponent := exponentOf numerator denominator
    let (n, d) := scaled numerator denominator exponent
    let magnitude := (exponent - leastExponent).toNat * Nat.pow 2 52 + roundDiv n d
    ofMagnitude negative (min magnitude infinityMagnitude)

/-- The value nearest to `significand · 10 ^ exponent`. Far outside the range of the format the
answer does not depend on the digits. -/
def ofDecimal (negative : Bool) (significand : Nat) (exponent : Int) : Binary64 :=
  let digits : Int := Nat.log2 significand
  if significand = 0 ∨ exponent + digits < -400 then ofMagnitude negative 0
  else if exponent > 400 then infinity negative
  else if exponent ≥ 0 then ofRatio negative (significand * Nat.pow 10 exponent.toNat) 1
  else ofRatio negative significand (Nat.pow 10 (-exponent).toNat)

/-- Twice the distance of the rounded quotient is at most the denominator. -/
theorem roundDiv_near (numerator denominator : Nat) (positive : 0 < denominator) :
    2 * numerator ≤ (2 * roundDiv numerator denominator + 1) * denominator ∧
      (2 * roundDiv numerator denominator) * denominator ≤ 2 * numerator + denominator := by
  have split_eq := Nat.div_add_mod numerator denominator
  have small := Nat.mod_lt numerator positive
  generalize hq : numerator / denominator = q at *
  generalize hr : numerator % denominator = r at *
  have product : denominator * q = q * denominator := Nat.mul_comm _ _
  simp only [roundDiv, hq, hr]
  split <;> constructor <;> simp only [Nat.add_mul, Nat.mul_add, Nat.mul_assoc] <;> omega

end Binary64

end DocRefs
