import DocRefs.Text.Hex

/-!
# Percent decoding

A percent sign followed by two hexadecimal digits stands for a byte; any other percent sign stands
for itself. What comes out is text only if the bytes are UTF-8.
-/
namespace DocRefs.Text

/-- The UTF-8 bytes of a character. -/
def utf8 (c : Char) : List UInt8 := (String.singleton c).toUTF8.toList

/-- The bytes that a text stands for. -/
def percentBytes : List Char → List UInt8
  | '%' :: high :: low :: rest =>
    match hexByte? high low with
    | some byte => byte :: percentBytes rest
    | none => utf8 '%' ++ percentBytes (high :: low :: rest)
  | c :: rest => utf8 c ++ percentBytes rest
  | [] => []

/-- The decoded text, or the text as it is if it does not decode. -/
def percentDecode (text : List Char) : List Char :=
  if text.contains '%' then
    match String.fromUTF8? ⟨(percentBytes text).toArray⟩ with
    | some decoded => decoded.toList
    | none => text
  else text

theorem percentDecode_of_not_mem {text : List Char} (plain : '%' ∉ text) :
    percentDecode text = text := by
  simp [percentDecode, plain]

end DocRefs.Text
