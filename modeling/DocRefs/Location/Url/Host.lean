import DocRefs.Location.Url
import DocRefs.Text.Case
import DocRefs.Text.Percent
import DocRefs.Text.Punycode
import DocRefs.Text.Split

/-!
# Hosts

A host is a name, an address in dotted numbers, or an address in brackets. Names are lowered,
written in ASCII, and must not hold characters that separate the parts of a URL; addresses are
written in one way only.
-/
namespace DocRefs.Location.Url

/-- Percent-encodes the characters of a class, and everything that is not ASCII. -/
def percentEncode (encoded : Char → Bool) (text : List Char) : List Char :=
  text.flatMap fun c =>
    if c.toNat > 0x7E || c.toNat < 0x20 || encoded c then
      (Text.utf8 c).flatMap fun byte =>
        '%' :: (Text.hexByte byte).map Char.toUpper
    else [c]

/-! ## Addresses in dotted numbers -/

/-- The value of digits in a base, if they all are digits of it. -/
def digitsIn? (base : Nat) (digits : List Char) : Option Nat :=
  digits.foldlM (fun value c => do
    let digit ← Text.hexDigit? c
    if digit < base then some (value * base + digit) else none) 0

/-- A number in decimal, octal or hexadecimal notation. -/
def addressNumber? : List Char → Option Nat
  | [] => none
  | '0' :: 'x' :: digits | '0' :: 'X' :: digits => digitsIn? 16 digits
  | '0' :: digits => digitsIn? 8 digits
  | digits => digitsIn? 10 digits

/-- The pieces of a host name, without the empty one behind a final dot. -/
def namePieces (host : List Char) : List (List Char) :=
  match (Text.split (· = '.') host).reverse with
  | [] :: piece :: rest => (piece :: rest).reverse
  | pieces => pieces.reverse

/-- The host can only be an address, because its last piece is a number. -/
def endsInNumber (host : List Char) : Bool :=
  match (namePieces host).getLast? with
  | some piece => (!piece.isEmpty && piece.all Char.isDigit) ||
      (match piece with
        | '0' :: 'x' :: _ | '0' :: 'X' :: _ => (addressNumber? piece).isSome
        | _ => false)
  | none => false

/-- An address of four bytes from up to four numbers; the last number fills what is left. -/
def dottedAddress? (host : List Char) : Option String := do
  let pieces := namePieces host
  let numbers ← pieces.mapM addressNumber?
  let last ← numbers.getLast?
  let first := numbers.dropLast
  if first.length > 3 || first.any (· > 255) || last ≥ Nat.pow 256 (4 - first.length) then none
  else
    let value := first.zipIdx.foldl (fun value (number, place) =>
      value + number * Nat.pow 256 (3 - place)) last
    let bytes := [3, 2, 1, 0].map fun place => toString (value / Nat.pow 256 place % 256)
    some (".".intercalate bytes)

/-! ## Addresses in brackets -/

/-- Two groups from four decimal bytes without leading zeros. -/
def byteGroups? (text : List Char) : Option (List Nat) := do
  let bytes ← (Text.split (· = '.') text).mapM fun piece => do
    let value ← digitsIn? 10 piece
    if piece.isEmpty || value > 255 || (piece.length > 1 && piece.head? = some '0') then none
    else some value
  match bytes with
  | [a, b, c, d] => some [a * 256 + b, c * 256 + d]
  | _ => none

/-- Groups of up to four hexadecimal digits; the last may be a dotted address. -/
def groups? : List (List Char) → Option (List Nat)
  | [] => some []
  | [last] =>
    if last.contains '.' then byteGroups? last
    else if last.isEmpty || last.length > 4 then none
    else (digitsIn? 16 last).map fun group => [group]
  | piece :: rest => do
    if piece.isEmpty || piece.length > 4 then none
    else return (← digitsIn? 16 piece) :: (← groups? rest)

/-- What stands in front of and behind the first double colon. -/
def splitGap : List Char → Option (List Char × List Char)
  | ':' :: ':' :: rest => some ([], rest)
  | c :: rest => (splitGap rest).map fun (front, back) => (c :: front, back)
  | [] => none

def groupsOf? (text : List Char) : Option (List Nat) :=
  if text.isEmpty then some [] else groups? (Text.split (· = ':') text)

/-- The eight groups of an address. -/
def address? (text : List Char) : Option (List Nat) := do
  match splitGap text with
  | none =>
    let groups ← groupsOf? text
    if groups.length = 8 then some groups else none
  | some (front, back) =>
    let front ← groupsOf? front
    let back ← groupsOf? back
    if front.length + back.length > 7 then none
    else some (front ++ List.replicate (8 - front.length - back.length) 0 ++ back)

/-- Place and length of the longest run of zeros, the first of equals; a single zero is no run. -/
def longestZeros (groups : List Nat) : Option (Nat × Nat) :=
  let runs := (List.range groups.length).map fun start =>
    (start, ((groups.drop start).takeWhile (· = 0)).length)
  let best := runs.foldl (fun best run => if run.2 > best.2 then run else best) (0, 0)
  if best.2 ≥ 2 then some best else none

def addressText (groups : List Nat) : String :=
  let hex (group : Nat) : String := String.ofList (Nat.toDigits 16 group)
  let join (groups : List Nat) : String := ":".intercalate (groups.map hex)
  match longestZeros groups with
  | some (start, count) => join (groups.take start) ++ "::" ++ join (groups.drop (start + count))
  | none => join groups

/-! ## Hosts -/

/-- What no host may hold. -/
def isForbiddenInHost (c : Char) : Bool :=
  c.toNat = 0 || c == '\t' || c == '\n' || c == '\r' || " #/:<>?@[\\]^|".toList.contains c

/-- What no name may hold. -/
def isForbiddenInName (c : Char) : Bool :=
  isForbiddenInHost c || c.toNat ≤ 0x1F || c == '%' || c.toNat = 0x7F

/-- A name in lower case, with plain dots and without soft hyphens. Characters beyond ASCII are
expected to be composed. -/
def mappedName (name : List Char) : List Char :=
  (name.flatMap Text.lower).filterMap fun c =>
    if [0x3002, 0xFF0E, 0xFF61].contains c.toNat then some '.'
    else if c.toNat = 0xAD then none
    else some c

/-- A piece of a name in ASCII. -/
def asciiPiece (piece : List Char) : List Char :=
  if piece.all (·.toNat < 0x80) then piece else "xn--".toList ++ Text.Punycode.encode piece

/-- A name in ASCII. -/
def asciiName (name : List Char) : List Char :=
  ['.'].intercalate ((Text.split (· = '.') name).map asciiPiece)

/-- The written form of a host, if it is one. -/
def host? (special : Bool) (text : List Char) : Option String :=
  match text with
  | '[' :: inner =>
    if inner.getLast? = some ']' then
      (address? inner.dropLast).map fun groups => "[" ++ addressText groups ++ "]"
    else none
  | _ =>
    if special then
      let name := mappedName (Text.percentDecode text)
      if name.isEmpty || name.any (fun c => isForbiddenInName c || Text.isBlank c) then none
      else
        let name := asciiName name
        if endsInNumber name then dottedAddress? name else some (String.ofList name)
    else if text.any isForbiddenInHost then none
    else some (String.ofList (percentEncode (fun _ => false) text))

end DocRefs.Location.Url
