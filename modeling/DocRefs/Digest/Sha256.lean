/-!
# SHA-256

The hash function of FIPS 180-4 on bytes. Bytes are absorbed one after another, a block of 64 at a
time, so it does not matter in how many pieces they come (`absorb_append`).
-/
namespace DocRefs

/-- A digest of 32 bytes. -/
structure Digest where
  bytes : List UInt8
  deriving DecidableEq, Repr, Inhabited, Hashable

namespace Sha256

/-! ## Blocks -/

/-- The eight words of a chaining value. -/
structure Words where
  a : UInt32
  b : UInt32
  c : UInt32
  d : UInt32
  e : UInt32
  f : UInt32
  g : UInt32
  h : UInt32
  deriving DecidableEq, Repr, Inhabited

/-- The fractions of the square roots of the first eight primes. -/
def initial : Words :=
  ⟨0x6a09e667, 0xbb67ae85, 0x3c6ef372, 0xa54ff53a,
    0x510e527f, 0x9b05688c, 0x1f83d9ab, 0x5be0cd19⟩

/-- The fractions of the cube roots of the first 64 primes. -/
def constants : List UInt32 := [
  0x428a2f98, 0x71374491, 0xb5c0fbcf, 0xe9b5dba5, 0x3956c25b, 0x59f111f1, 0x923f82a4, 0xab1c5ed5,
  0xd807aa98, 0x12835b01, 0x243185be, 0x550c7dc3, 0x72be5d74, 0x80deb1fe, 0x9bdc06a7, 0xc19bf174,
  0xe49b69c1, 0xefbe4786, 0x0fc19dc6, 0x240ca1cc, 0x2de92c6f, 0x4a7484aa, 0x5cb0a9dc, 0x76f988da,
  0x983e5152, 0xa831c66d, 0xb00327c8, 0xbf597fc7, 0xc6e00bf3, 0xd5a79147, 0x06ca6351, 0x14292967,
  0x27b70a85, 0x2e1b2138, 0x4d2c6dfc, 0x53380d13, 0x650a7354, 0x766a0abb, 0x81c2c92e, 0x92722c85,
  0xa2bfe8a1, 0xa81a664b, 0xc24b8b70, 0xc76c51a3, 0xd192e819, 0xd6990624, 0xf40e3585, 0x106aa070,
  0x19a4c116, 0x1e376c08, 0x2748774c, 0x34b0bcb5, 0x391c0cb3, 0x4ed8aa4a, 0x5b9cca4f, 0x682e6ff3,
  0x748f82ee, 0x78a5636f, 0x84c87814, 0x8cc70208, 0x90befffa, 0xa4506ceb, 0xbef9a3f7, 0xc67178f2]

def rotate (x n : UInt32) : UInt32 := (x >>> n) ||| (x <<< (32 - n))

def choose (x y z : UInt32) : UInt32 := (x &&& y) ^^^ (~~~x &&& z)

def majority (x y z : UInt32) : UInt32 := (x &&& y) ^^^ (x &&& z) ^^^ (y &&& z)

/-- A block as words and the 48 words that are mixed from them. -/
def schedule (block : Array UInt32) : Array UInt32 :=
  (List.range 48).foldl (fun w i =>
    let x := w.getD (i + 1) 0
    let y := w.getD (i + 14) 0
    let s := rotate x 7 ^^^ rotate x 18 ^^^ (x >>> 3)
    let t := rotate y 17 ^^^ rotate y 19 ^^^ (y >>> 10)
    w.push (w.getD i 0 + s + w.getD (i + 9) 0 + t)) block

def round (w : Words) (input : UInt32) : Words :=
  let s := rotate w.e 6 ^^^ rotate w.e 11 ^^^ rotate w.e 25
  let t := w.h + s + choose w.e w.f w.g + input
  let u := (rotate w.a 2 ^^^ rotate w.a 13 ^^^ rotate w.a 22) + majority w.a w.b w.c
  ⟨t + u, w.a, w.b, w.c, w.d + t, w.e, w.f, w.g⟩

def add (x y : Words) : Words :=
  ⟨x.a + y.a, x.b + y.b, x.c + y.c, x.d + y.d, x.e + y.e, x.f + y.f, x.g + y.g, x.h + y.h⟩

/-- Bytes as words, the first byte of a word highest. -/
def toWords : List UInt8 → List UInt32
  | a :: b :: c :: d :: rest =>
    ((a.toUInt32 <<< 24) ||| (b.toUInt32 <<< 16) ||| (c.toUInt32 <<< 8) ||| d.toUInt32) ::
      toWords rest
  | _ => []

def compress (state : Words) (block : List UInt8) : Words :=
  let inputs := (schedule (toWords block).toArray).toList.zipWith (· + ·) constants
  add state (inputs.foldl round state)

def wordBytes (x : UInt32) : List UInt8 :=
  [(x >>> 24).toUInt8, (x >>> 16).toUInt8, (x >>> 8).toUInt8, x.toUInt8]

def Words.bytes (w : Words) : List UInt8 :=
  [w.a, w.b, w.c, w.d, w.e, w.f, w.g, w.h].flatMap wordBytes

end Sha256

/-! ## Hashers -/

/-- The state of a computation that has taken some bytes. -/
structure Hasher where
  state : Sha256.Words := Sha256.initial
  /-- The bytes of the block that is not full, the last one first. -/
  pending : List UInt8 := []
  length : Nat := 0
  deriving DecidableEq, Repr

namespace Hasher

instance : Inhabited Hasher := ⟨{}⟩

/-- Takes one byte; a block is worked in when it is full. -/
def absorbByte (h : Hasher) (byte : UInt8) : Hasher :=
  let pending := byte :: h.pending
  if pending.length < 64 then { h with pending, length := h.length + 1 }
  else ⟨Sha256.compress h.state pending.reverse, [], h.length + 1⟩

def absorb (h : Hasher) (bytes : List UInt8) : Hasher := bytes.foldl absorbByte h

/-- The bytes of a number, the highest first. -/
def bigEndian (count n : Nat) : List UInt8 :=
  (List.range count).reverse.map fun i => UInt8.ofNat (n / Nat.pow 256 i)

/-- What is put behind so many bytes: a mark, zeros, and the length in bits. -/
def padding (length : Nat) : List UInt8 :=
  0x80 :: List.replicate ((119 - length % 64) % 64) 0 ++ bigEndian 8 (length * 8)

def finish (h : Hasher) : Digest := ⟨(h.absorb (padding h.length)).state.bytes⟩

theorem absorb_append (h : Hasher) (first second : List UInt8) :
    h.absorb (first ++ second) = (h.absorb first).absorb second := by
  simp [absorb]

theorem length_absorb (h : Hasher) (bytes : List UInt8) :
    (h.absorb bytes).length = h.length + bytes.length := by
  induction bytes generalizing h with
  | nil => rfl
  | cons byte rest ih =>
    have step : (h.absorbByte byte).length = h.length + 1 := by
      unfold absorbByte; dsimp only; split <;> rfl
    have : h.absorb (byte :: rest) = (h.absorbByte byte).absorb rest := rfl
    rw [this, ih, step, List.length_cons]; omega

end Hasher

/-- The digest of some bytes. -/
def sha256 (bytes : List UInt8) : Digest := (({} : Hasher).absorb bytes).finish

theorem length_sha256 (bytes : List UInt8) : (sha256 bytes).bytes.length = 32 := rfl

end DocRefs
