import DocRefs.Node.CoreTag
import Mathlib.Computability.RegularExpressions

/-!
# The core schema

The schema of core tags is one regular expression for each tag. Tags are inferred by trying lists of
words, prefixes and the readers of numbers one after another; what each of them accepts is the
language of an expression (`isIntegerText_iff`, `isFloatText_iff`). Main result:
`infer_eq_iff`.
-/
namespace DocRefs

namespace CoreSchema

open RegularExpression

/-! ### Expressions -/

/-- The characters from one to another. -/
def span (first last : Char) : List Char :=
  (List.range' first.toNat (last.toNat + 1 - first.toNat)).map Char.ofNat

/-- One of some characters. -/
def oneOf (chars : List Char) : RegularExpression Char :=
  chars.foldr (fun c others => char c + others) 0

def word (text : String) : RegularExpression Char :=
  text.toList.foldr (fun c rest => char c * rest) 1

/-- One of some words. -/
def words (texts : List String) : RegularExpression Char :=
  texts.foldr (fun text others => word text + others) 0

def optional (r : RegularExpression Char) : RegularExpression Char := 1 + r

/-- Once or more often. -/
def repeated (r : RegularExpression Char) : RegularExpression Char := r * r.star

/-! ### The expressions of the schema -/

def null : RegularExpression Char := words ["", "~", "null", "Null", "NULL"]

def bool : RegularExpression Char := words ["true", "True", "TRUE", "false", "False", "FALSE"]

def sign : RegularExpression Char := optional (oneOf ['-', '+'])

def digit : RegularExpression Char := oneOf (span '0' '9')

def octalDigit : RegularExpression Char := oneOf (span '0' '7')

def hexDigit : RegularExpression Char := oneOf (span '0' '9' ++ span 'a' 'f' ++ span 'A' 'F')

def tens : RegularExpression Char := sign * repeated digit

def octal : RegularExpression Char := word "0o" * repeated octalDigit

def hexadecimal : RegularExpression Char := word "0x" * repeated hexDigit

def integer : RegularExpression Char := tens + octal + hexadecimal

def mantissa : RegularExpression Char :=
  char '.' * repeated digit + repeated digit * optional (char '.' * digit.star)

def exponent : RegularExpression Char := oneOf ['e', 'E'] * (sign * repeated digit)

def decimal : RegularExpression Char := sign * (mantissa * optional exponent)

/-- What is not finite. -/
def special : RegularExpression Char :=
  sign * words [".inf", ".Inf", ".INF"] + words [".nan", ".NaN", ".NAN"]

def float : RegularExpression Char := decimal + special

/-- The text is in the language of an expression. -/
def Spells (r : RegularExpression Char) (text : String) : Prop := text.toList ∈ r.matches'

instance (r : RegularExpression Char) (text : String) : Decidable (Spells r text) :=
  inferInstanceAs (Decidable (text.toList ∈ r.matches'))

/-! ### Languages -/

variable {r : RegularExpression Char} {chars text : List Char}

theorem mem_span {first last c : Char} (low : last.toNat < 0xD800) :
    c ∈ span first last ↔ first ≤ c ∧ c ≤ last := by
  have order (a b : Char) : a ≤ b ↔ a.toNat ≤ b.toNat := Iff.rfl
  rw [span, List.mem_map, order, order]
  constructor
  · rintro ⟨n, member, rfl⟩
    obtain ⟨above, below⟩ := List.mem_range'_1.mp member
    have number : (Char.ofNat n).toNat = n := by
      rw [Char.ofNat, dif_pos (Or.inl (by omega))]
      rfl
    omega
  · rintro ⟨above, below⟩
    exact ⟨c.toNat, List.mem_range'_1.mpr (by omega), Char.ofNat_toNat c⟩

theorem mem_oneOf : text ∈ (oneOf chars).matches' ↔ ∃ c ∈ chars, text = [c] := by
  induction chars with
  | nil => simp [oneOf]
  | cons c rest ih =>
    have step : oneOf (c :: rest) = char c + oneOf rest := rfl
    have here : text ∈ ({[c]} : Language Char) ↔ text = [c] := Iff.rfl
    rw [step, matches'_add, Language.mem_add, ih, matches'_char, here]
    simp

theorem mem_char_mul {c : Char} :
    text ∈ (char c * r).matches' ↔ ∃ rest ∈ r.matches', text = c :: rest := by
  rw [matches'_mul, Language.mem_mul, matches'_char]
  constructor
  · rintro ⟨first, rfl, rest, member, rfl⟩
    exact ⟨rest, member, rfl⟩
  · rintro ⟨rest, member, rfl⟩
    exact ⟨[c], rfl, rest, member, rfl⟩

theorem mem_oneOf_mul :
    text ∈ (oneOf chars * r).matches' ↔ ∃ c ∈ chars, ∃ rest ∈ r.matches', text = c :: rest := by
  rw [matches'_mul, Language.mem_mul]
  constructor
  · rintro ⟨first, one, rest, member, rfl⟩
    obtain ⟨c, allowed, rfl⟩ := mem_oneOf.mp one
    exact ⟨c, allowed, rest, member, rfl⟩
  · rintro ⟨c, allowed, rest, member, rfl⟩
    exact ⟨[c], mem_oneOf.mpr ⟨c, allowed, rfl⟩, rest, member, rfl⟩

theorem mem_word {written : String} : text ∈ (word written).matches' ↔ text = written.toList := by
  rw [word]
  induction written.toList generalizing text with
  | nil => rfl
  | cons c rest ih =>
    rw [List.foldr_cons, mem_char_mul]
    constructor
    · rintro ⟨more, member, rfl⟩
      rw [ih.mp member]
    · rintro rfl
      exact ⟨rest, ih.mpr rfl, rfl⟩

theorem mem_words {texts : List String} :
    text ∈ (words texts).matches' ↔ ∃ written ∈ texts, text = written.toList := by
  induction texts with
  | nil => simp [words]
  | cons written rest ih =>
    have step : words (written :: rest) = word written + words rest := rfl
    rw [step, matches'_add, Language.mem_add, ih, mem_word]
    simp

theorem mem_optional : text ∈ (optional r).matches' ↔ text = [] ∨ text ∈ r.matches' := by
  rw [optional, matches'_add, Language.mem_add, matches'_epsilon, Language.mem_one]

theorem mem_star_oneOf : text ∈ (oneOf chars).star.matches' ↔ ∀ c ∈ text, c ∈ chars := by
  rw [matches'_star, Language.mem_kstar]
  constructor
  · rintro ⟨pieces, rfl, each⟩ c member
    obtain ⟨piece, listed, inside⟩ := List.mem_flatten.mp member
    obtain ⟨only, allowed, rfl⟩ := mem_oneOf.mp (each piece listed)
    rwa [List.mem_singleton.mp inside]
  · intro each
    refine ⟨text.map fun c => [c], (List.flatMap_singleton' text).symm, fun piece listed => ?_⟩
    obtain ⟨c, member, rfl⟩ := List.mem_map.mp listed
    exact mem_oneOf.mpr ⟨c, each c member, rfl⟩

theorem mem_repeated_oneOf :
    text ∈ (repeated (oneOf chars)).matches' ↔ text ≠ [] ∧ ∀ c ∈ text, c ∈ chars := by
  rw [repeated, mem_oneOf_mul]
  constructor
  · rintro ⟨c, allowed, rest, more, rfl⟩
    exact ⟨by simp, List.forall_mem_cons.mpr ⟨allowed, mem_star_oneOf.mp more⟩⟩
  · rintro ⟨written, each⟩
    obtain ⟨c, rest, rfl⟩ := List.exists_cons_of_ne_nil written
    obtain ⟨allowed, later⟩ := List.forall_mem_cons.mp each
    exact ⟨c, allowed, rest, mem_star_oneOf.mpr later, rfl⟩

/-- The characters that an expression is made of. -/
def atoms : RegularExpression Char → List Char
  | .char c => [c]
  | .plus r s | .comp r s => atoms r ++ atoms s
  | .star r => atoms r
  | _ => []

/-- No other characters are in the texts of the language. -/
theorem mem_atoms (matched : text ∈ r.matches') : ∀ c ∈ text, c ∈ atoms r := by
  induction r generalizing text with
  | zero => exact absurd matched (Language.notMem_zero text)
  | epsilon =>
    obtain rfl := (Language.mem_one text).mp matched
    simp
  | char c =>
    obtain rfl : text = [c] := matched
    simp [atoms]
  | plus r s left right =>
    intro c member
    rcases matched with here | there
    · exact List.mem_append_left _ (left here c member)
    · exact List.mem_append_right _ (right there c member)
  | comp r s left right =>
    intro c member
    obtain ⟨front, first, back, second, rfl⟩ := Language.mem_mul.mp matched
    rcases List.mem_append.mp member with here | there
    · exact List.mem_append_left _ (left first c here)
    · exact List.mem_append_right _ (right second c there)
  | star r inner =>
    intro c member
    obtain ⟨pieces, rfl, each⟩ := Language.mem_kstar.mp matched
    obtain ⟨piece, listed, inside⟩ := List.mem_flatten.mp member
    exact inner (each piece listed) c inside

/-! ### Classes of characters -/

theorem mem_digits {c : Char} : c ∈ span '0' '9' ↔ c.isDigit = true := by
  rw [mem_span (by decide), Char.isDigit, Bool.and_eq_true, decide_eq_true_eq, decide_eq_true_eq]
  rfl

theorem mem_octalDigits {c : Char} : c ∈ span '0' '7' ↔ CoreTag.isOctalDigit c = true := by
  rw [mem_span (by decide), CoreTag.isOctalDigit, Bool.and_eq_true, decide_eq_true_eq,
    decide_eq_true_eq]

theorem mem_hexDigits {c : Char} :
    c ∈ span '0' '9' ++ span 'a' 'f' ++ span 'A' 'F' ↔ CoreTag.isHexDigit c = true := by
  rw [List.mem_append, List.mem_append, mem_digits, mem_span (by decide), mem_span (by decide),
    CoreTag.isHexDigit, Text.hexDigit?]
  split
  next digit => simp [digit]
  next no_digit =>
    split
    next lower => simp [lower]
    next no_lower => split <;> simp_all

/-! ### Runs of digits -/

theorem mem_repeated_digit :
    text ∈ (repeated digit).matches' ↔ text ≠ [] ∧ ∀ c ∈ text, c.isDigit = true := by
  rw [digit, mem_repeated_oneOf]
  simp only [mem_digits]

theorem allOf_iff {p : Char → Bool} (members : ∀ c, c ∈ chars ↔ p c = true) :
    CoreTag.allOf p text = true ↔ text ∈ (repeated (oneOf chars)).matches' := by
  rw [mem_repeated_oneOf, CoreTag.allOf]
  simp [members]

/-- The text does not begin with a sign. -/
def Unsigned (r : RegularExpression Char) : Prop :=
  ∀ text ∈ r.matches', text.head? ≠ some '+' ∧ text.head? ≠ some '-'

/-- A sign in front is what is taken off. -/
theorem mem_sign_mul (unsigned : Unsigned r) :
    text ∈ (sign * r).matches' ↔ (Binary64.takeSign text).2 ∈ r.matches' := by
  rw [matches'_mul, Language.mem_mul]
  constructor
  · rintro ⟨mark, marked, rest, member, rfl⟩
    rcases mem_optional.mp marked with rfl | one
    · obtain ⟨no_plus, no_minus⟩ := unsigned rest member
      rw [List.nil_append]
      unfold Binary64.takeSign
      split
      · simp at no_plus
      · simp at no_minus
      · exact member
    · obtain ⟨c, allowed, rfl⟩ := mem_oneOf.mp one
      simp only [List.mem_cons, List.not_mem_nil, or_false] at allowed
      rcases allowed with rfl | rfl <;> exact member
  · intro member
    unfold Binary64.takeSign at member
    split at member
    · exact ⟨['+'], mem_optional.mpr (.inr (mem_oneOf.mpr ⟨'+', by simp, rfl⟩)), _, member, rfl⟩
    · exact ⟨['-'], mem_optional.mpr (.inr (mem_oneOf.mpr ⟨'-', by simp, rfl⟩)), _, member, rfl⟩
    · exact ⟨[], mem_optional.mpr (.inl rfl), text, member, rfl⟩

theorem unsigned_repeated_digit : Unsigned (repeated digit) := by
  intro text member
  obtain ⟨written, digits⟩ := mem_repeated_digit.mp member
  obtain ⟨first, rest, rfl⟩ := List.exists_cons_of_ne_nil written
  have here := digits first List.mem_cons_self
  constructor <;> rintro ⟨⟩ <;> simp at here

/-! ### Integers -/

theorem mem_word_mul {written : String} : text ∈ (word written * r).matches' ↔
    ∃ rest ∈ r.matches', text = written.toList ++ rest := by
  rw [matches'_mul, Language.mem_mul]
  constructor
  · rintro ⟨front, here, rest, member, rfl⟩
    exact ⟨rest, member, by rw [mem_word.mp here]⟩
  · rintro ⟨rest, member, rfl⟩
    exact ⟨_, mem_word.mpr rfl, rest, member, rfl⟩

theorem mem_tens :
    text ∈ tens.matches' ↔ CoreTag.allOf Char.isDigit (Binary64.takeSign text).2 = true := by
  rw [tens, mem_sign_mul unsigned_repeated_digit, digit, allOf_iff fun _ => mem_digits]

theorem mem_octal : text ∈ octal.matches' ↔
    ∃ rest, CoreTag.allOf CoreTag.isOctalDigit rest = true ∧ text = '0' :: 'o' :: rest := by
  rw [octal, mem_word_mul, octalDigit]
  simp only [allOf_iff fun _ => mem_octalDigits]
  rfl

theorem mem_hexadecimal : text ∈ hexadecimal.matches' ↔
    ∃ rest, CoreTag.allOf CoreTag.isHexDigit rest = true ∧ text = '0' :: 'x' :: rest := by
  rw [hexadecimal, mem_word_mul, hexDigit]
  simp only [allOf_iff fun _ => mem_hexDigits]
  rfl

theorem mem_integer : text ∈ integer.matches' ↔
    text ∈ tens.matches' ∨ text ∈ octal.matches' ∨ text ∈ hexadecimal.matches' := by
  rw [integer, matches'_add, Language.mem_add, matches'_add, Language.mem_add, or_assoc]

theorem isIntegerText_iff : CoreTag.isIntegerText text = true ↔ text ∈ integer.matches' := by
  have letter {second : Char} (other : second.isDigit = false) (rest : List Char) :
      CoreTag.allOf Char.isDigit (Binary64.takeSign ('0' :: second :: rest)).2 = false := by
    simp [CoreTag.allOf, Binary64.takeSign, other]
  rw [mem_integer, mem_tens, mem_octal, mem_hexadecimal]
  unfold CoreTag.isIntegerText
  split
  next digits => simp [letter]
  next digits => simp [letter]
  next no_hex no_octal =>
    constructor
    · exact .inl
    · rintro (digits | ⟨rest, _, rfl⟩ | ⟨rest, _, rfl⟩)
      · exact digits
      · exact absurd rfl (no_octal rest)
      · exact absurd rfl (no_hex rest)

/-! ### Decimals -/

/-- The text does not begin with a digit. -/
def Stops (text : List Char) : Prop := ∀ c, text.head? = some c → c.isDigit = false

section

variable {front rest : List Char} (digits : ∀ c ∈ front, c.isDigit = true) (stops : Stops rest)

include digits stops

theorem takeWhile_digits : (front ++ rest).takeWhile Char.isDigit = front := by
  rw [List.takeWhile_append_of_pos digits]
  cases rest with
  | nil => simp
  | cons c more => simp [stops c rfl]

theorem dropWhile_digits : (front ++ rest).dropWhile Char.isDigit = rest := by
  rw [List.dropWhile_append_of_pos digits]
  cases rest with
  | nil => rfl
  | cons c more => simp [stops c rfl]

end

theorem stops_dropWhile (text : List Char) : Stops (text.dropWhile Char.isDigit) := by
  intro c first
  have none_left := List.head?_dropWhile_not Char.isDigit text
  rwa [first] at none_left

section

variable {whole fraction rest : List Char} (digits : ∀ c ∈ whole, c.isDigit = true)

include digits

theorem isSome_decimal?_of_whole (stops : Stops rest) (pointless : rest.head? ≠ some '.') :
    (Binary64.decimal? (whole ++ rest)).isSome = true ↔
      whole ≠ [] ∧ (Binary64.exponentOf? rest).isSome = true := by
  rw [Binary64.decimal?, takeWhile_digits digits stops, dropWhile_digits digits stops]
  dsimp only
  split
  next => simp at pointless
  next => cases whole <;> simp

theorem isSome_decimal?_of_point (more : ∀ c ∈ fraction, c.isDigit = true) (stops : Stops rest) :
    (Binary64.decimal? (whole ++ '.' :: (fraction ++ rest))).isSome = true ↔
      (whole ≠ [] ∨ fraction ≠ []) ∧ (Binary64.exponentOf? rest).isSome = true := by
  have point : Stops ('.' :: (fraction ++ rest)) := by
    rintro c ⟨⟩
    rfl
  rw [Binary64.decimal?, takeWhile_digits digits point, dropWhile_digits digits point]
  simp only [takeWhile_digits more stops, dropWhile_digits more stops]
  cases whole <;> cases fraction <;> simp

end

theorem isSome_exponentOf?_cons {c : Char} {rest : List Char} :
    (Binary64.exponentOf? (c :: rest)).isSome = true ↔
      (c = 'e' ∨ c = 'E') ∧ CoreTag.allOf Char.isDigit (Binary64.takeSign rest).2 = true := by
  rw [Binary64.exponentOf?, CoreTag.allOf]
  split
  next mark =>
    generalize Binary64.takeSign rest = taken
    cases empty : taken.2.isEmpty <;> cases all : taken.2.all Char.isDigit <;>
      simp [mark, empty, all]
  next no_mark => simp [no_mark]

theorem isSome_exponentOf?_iff :
    (Binary64.exponentOf? text).isSome = true ↔ text ∈ (optional exponent).matches' := by
  rw [mem_optional, exponent, mem_oneOf_mul]
  cases text with
  | nil => simp [Binary64.exponentOf?]
  | cons c rest =>
    rw [isSome_exponentOf?_cons, allOf_iff fun _ => mem_digits, ← digit,
      ← mem_sign_mul unsigned_repeated_digit]
    constructor
    · rintro ⟨mark, member⟩
      exact .inr ⟨c, by simpa using mark, rest, member, rfl⟩
    · rintro (⟨⟨⟩⟩ | ⟨first, mark, more, member, same⟩)
      obtain ⟨rfl, rfl⟩ := List.cons.inj same
      exact ⟨by simpa using mark, member⟩

theorem mem_mantissa : text ∈ mantissa.matches' ↔
    (text ≠ [] ∧ ∀ c ∈ text, c.isDigit = true) ∨
      ∃ whole fraction, (∀ c ∈ whole, c.isDigit = true) ∧ (∀ c ∈ fraction, c.isDigit = true) ∧
        (whole ≠ [] ∨ fraction ≠ []) ∧ text = whole ++ '.' :: fraction := by
  have later : ∀ fraction, fraction ∈ digit.star.matches' ↔ ∀ c ∈ fraction, c.isDigit = true := by
    intro fraction
    rw [digit, mem_star_oneOf]
    simp only [mem_digits]
  rw [mantissa, matches'_add, Language.mem_add, mem_char_mul, matches'_mul, Language.mem_mul]
  constructor
  · rintro (⟨fraction, member, rfl⟩ | ⟨whole, member, point, behind, rfl⟩)
    · obtain ⟨written, digits⟩ := mem_repeated_digit.mp member
      exact .inr ⟨[], fraction, by simp, digits, .inr written, rfl⟩
    · obtain ⟨written, digits⟩ := mem_repeated_digit.mp member
      rcases mem_optional.mp behind with rfl | pointed
      · rw [List.append_nil]
        exact .inl ⟨written, digits⟩
      · obtain ⟨fraction, more, rfl⟩ := mem_char_mul.mp pointed
        exact .inr ⟨whole, fraction, digits, (later fraction).mp more, .inl written, rfl⟩
  · rintro (⟨written, digits⟩ | ⟨whole, fraction, digits, more, written, rfl⟩)
    · exact .inr ⟨text, mem_repeated_digit.mpr ⟨written, digits⟩, [], mem_optional.mpr (.inl rfl),
        List.append_nil text⟩
    · by_cases none_before : whole = []
      · subst none_before
        have behind : fraction ≠ [] := written.resolve_left fun differ => differ rfl
        exact .inl ⟨fraction, mem_repeated_digit.mpr ⟨behind, more⟩, rfl⟩
      · have pointed : '.' :: fraction ∈ (char '.' * digit.star).matches' :=
          mem_char_mul.mpr ⟨fraction, (later fraction).mpr more, rfl⟩
        exact .inr ⟨whole, mem_repeated_digit.mpr ⟨none_before, digits⟩, _,
          mem_optional.mpr (.inr pointed), rfl⟩

/-- Digits end at an exponent, and no point comes first in it. -/
theorem stops_of_exponent (member : text ∈ (optional exponent).matches') :
    Stops text ∧ text.head? ≠ some '.' := by
  rw [mem_optional, exponent, mem_oneOf_mul] at member
  rcases member with rfl | ⟨c, mark, rest, _, rfl⟩
  · exact ⟨by simp [Stops], by simp⟩
  · have letter : c.isDigit = false ∧ c ≠ '.' := by
      simp only [List.mem_cons, List.not_mem_nil, or_false] at mark
      rcases mark with rfl | rfl <;> decide
    exact ⟨by simp [Stops, letter.1], by simp [letter.2]⟩

theorem isSome_decimal?_iff :
    (Binary64.decimal? text).isSome = true ↔ text ∈ (mantissa * optional exponent).matches' := by
  have all_digits (l : List Char) : ∀ c ∈ l.takeWhile Char.isDigit, c.isDigit = true :=
    List.all_eq_true.mp List.all_takeWhile
  rw [matches'_mul, Language.mem_mul]
  constructor
  · intro read
    have parts := List.takeWhile_append_dropWhile (p := Char.isDigit) (l := text)
    have stops := stops_dropWhile text
    generalize whole_eq : text.takeWhile Char.isDigit = whole at parts
    generalize text.dropWhile Char.isDigit = rest at parts stops
    have digits : ∀ c ∈ whole, c.isDigit = true := whole_eq ▸ all_digits text
    subst parts
    by_cases point : rest.head? = some '.'
    · -- Behind the point come the digits of the fraction, and then the exponent.
      obtain ⟨more, rfl⟩ := List.head?_eq_some_iff.mp point
      rw [← List.takeWhile_append_dropWhile (p := Char.isDigit) (l := more)] at read ⊢
      obtain ⟨written, behind⟩ :=
        (isSome_decimal?_of_point digits (all_digits more) (stops_dropWhile more)).mp read
      exact ⟨_, mem_mantissa.mpr (.inr ⟨_, _, digits, all_digits more, written, rfl⟩), _,
        isSome_exponentOf?_iff.mp behind, by simp⟩
    · obtain ⟨written, behind⟩ := (isSome_decimal?_of_whole digits stops point).mp read
      exact ⟨whole, mem_mantissa.mpr (.inl ⟨written, digits⟩), rest,
        isSome_exponentOf?_iff.mp behind, rfl⟩
  · rintro ⟨front, number, rest, behind, rfl⟩
    obtain ⟨stops, pointless⟩ := stops_of_exponent behind
    have power := isSome_exponentOf?_iff.mpr behind
    rcases mem_mantissa.mp number with
      ⟨written, digits⟩ | ⟨whole, fraction, digits, more, written, rfl⟩
    · exact (isSome_decimal?_of_whole digits stops pointless).mpr ⟨written, power⟩
    · rw [List.append_assoc, List.cons_append]
      exact (isSome_decimal?_of_point digits more stops).mpr ⟨written, power⟩

theorem exists_digit_of_mantissa (member : text ∈ mantissa.matches') :
    ∃ c ∈ text, c.isDigit = true := by
  rcases mem_mantissa.mp member with ⟨written, digits⟩ | ⟨whole, fraction, digits, more, written, rfl⟩
  · obtain ⟨first, rest, rfl⟩ := List.exists_cons_of_ne_nil written
    exact ⟨first, List.mem_cons_self, digits first List.mem_cons_self⟩
  · rcases written with before | behind
    · obtain ⟨first, rest, rfl⟩ := List.exists_cons_of_ne_nil before
      exact ⟨first, by simp, digits first List.mem_cons_self⟩
    · obtain ⟨first, rest, rfl⟩ := List.exists_cons_of_ne_nil behind
      exact ⟨first, by simp, more first List.mem_cons_self⟩

theorem unsigned_decimal : Unsigned (mantissa * optional exponent) := by
  intro text member
  obtain ⟨front, number, rest, _, rfl⟩ := Language.mem_mul.mp member
  rcases mem_mantissa.mp number with ⟨written, digits⟩ | ⟨whole, fraction, digits, _, _, rfl⟩
  · obtain ⟨first, others, rfl⟩ := List.exists_cons_of_ne_nil written
    have here := digits first List.mem_cons_self
    constructor <;> rintro ⟨⟩ <;> simp at here
  · cases whole with
    | nil => simp
    | cons first others =>
      have here := digits first List.mem_cons_self
      constructor <;> rintro ⟨⟩ <;> simp at here

theorem mem_decimal :
    text ∈ decimal.matches' ↔ (Binary64.decimal? (Binary64.takeSign text).2).isSome = true := by
  rw [decimal, mem_sign_mul unsigned_decimal, isSome_decimal?_iff]

/-- What the reader of decimals accepts has only the characters of decimals, and a digit. -/
theorem isFloatText_iff : CoreTag.isFloatText text = true ↔ text ∈ decimal.matches' := by
  rw [CoreTag.isFloatText, Bool.and_eq_true, Bool.and_eq_true, ← mem_decimal, and_iff_right_iff_imp]
  intro member
  constructor
  · -- As a statement about members this would be decided by going through every character.
    have allowed : (atoms decimal).all CoreTag.isFloatCharacter = true := by decide +kernel
    exact List.all_eq_true.mpr fun c listed =>
      List.all_eq_true.mp allowed c (mem_atoms member c listed)
  · obtain ⟨mark, _, rest, number, rfl⟩ := Language.mem_mul.mp member
    obtain ⟨front, written, _, _, rfl⟩ := Language.mem_mul.mp number
    obtain ⟨c, listed, digit⟩ := exists_digit_of_mantissa written
    exact List.any_eq_true.mpr ⟨c, by simp [listed], digit⟩

/-! ### Words -/

theorem spells_words {texts : List String} {text : String} :
    Spells (words texts) text ↔ text ∈ texts := by
  rw [Spells, mem_words]
  simp [String.toList_inj]

/-- The words for what is not finite are listed but for two of them. -/
theorem spells_special {text : String} :
    Spells special text ↔ text ∈ CoreTag.floatWords ∨ text = "+.Inf" ∨ text = "+.INF" := by
  constructor
  · rintro (signed | other)
    · obtain ⟨mark, marked, rest, worded, same⟩ := Language.mem_mul.mp signed
      have mark_listed : mark ∈ [[], ['-'], ['+']] := by
        rcases mem_optional.mp marked with rfl | one
        · simp
        · obtain ⟨c, allowed, rfl⟩ := mem_oneOf.mp one
          simpa using allowed
      obtain ⟨word, word_listed, rfl⟩ := mem_words.mp worded
      obtain rfl : text = String.ofList (mark ++ word.toList) := by
        rw [same, String.ofList_toList]
      have every : ∀ mark ∈ [[], ['-'], ['+']], ∀ word ∈ [".inf", ".Inf", ".INF"],
          String.ofList (mark ++ word.toList) ∈ CoreTag.floatWords ∨
            String.ofList (mark ++ word.toList) = "+.Inf" ∨
              String.ofList (mark ++ word.toList) = "+.INF" := by decide
      exact every mark mark_listed word word_listed
    · have every : ∀ word ∈ [".nan", ".NaN", ".NAN"], word ∈ CoreTag.floatWords := by decide
      exact .inl (every text (spells_words.mp other))
  · have every : ∀ word ∈ CoreTag.floatWords ++ ["+.Inf", "+.INF"], Spells special word := by
      decide +kernel
    intro listed
    exact every text (by simpa using listed)

theorem spells_float {text : String} : Spells float text ↔
    Spells decimal text ∨ text ∈ CoreTag.floatWords ∨ text = "+.Inf" ∨ text = "+.INF" :=
  (Language.mem_add ..).trans (or_congr_right spells_special)

/-! ### Inference -/

/-- The tag of a plain scalar is the one whose expression its text is in, the null, the truth values
and the integers before the floats and strings last; but two of the words for what is not finite are
strings. -/
theorem infer_eq_iff (text : String) :
    (CoreTag.infer text = CoreTag.null ↔ Spells null text) ∧
      (CoreTag.infer text = CoreTag.bool ↔ Spells bool text) ∧
      (CoreTag.infer text = CoreTag.int ↔ Spells integer text) ∧
      (CoreTag.infer text = CoreTag.float ↔
        ¬ Spells integer text ∧ Spells float text ∧ text ≠ "+.Inf" ∧ text ≠ "+.INF") ∧
      (CoreTag.infer text = CoreTag.str ↔
        (¬ Spells null text ∧ ¬ Spells bool text ∧ ¬ Spells integer text ∧ ¬ Spells float text) ∨
          text = "+.Inf" ∨ text = "+.INF") := by
  have nulls : CoreTag.nullWords.contains text = true ↔ Spells null text := by
    rw [null, spells_words, List.contains_iff_mem, CoreTag.nullWords]
  have bools : CoreTag.boolWords.contains text = true ↔ Spells bool text := by
    rw [bool, spells_words, List.contains_iff_mem, CoreTag.boolWords]
  have integers : CoreTag.isIntegerText text.toList = true ↔ Spells integer text :=
    isIntegerText_iff
  have decimals : CoreTag.isFloatText text.toList = true ↔ Spells decimal text := isFloatText_iff
  have null_apart : Spells null text →
      ¬ Spells bool text ∧ ¬ Spells integer text ∧ ¬ Spells float text := by
    have every : ∀ word ∈ CoreTag.nullWords,
        ¬ Spells bool word ∧ ¬ Spells integer word ∧ ¬ Spells float word := by decide +kernel
    exact fun member => every text (spells_words.mp member)
  have bool_apart : Spells bool text → ¬ Spells integer text ∧ ¬ Spells float text := by
    have every : ∀ word ∈ CoreTag.boolWords, ¬ Spells integer word ∧ ¬ Spells float word := by
      decide +kernel
    exact fun member => every text (spells_words.mp member)
  have word_apart : text ∈ CoreTag.floatWords → ¬ Spells integer text := by
    have every : ∀ word ∈ CoreTag.floatWords, ¬ Spells integer word := by decide +kernel
    exact every text
  have left_out : text = "+.Inf" ∨ text = "+.INF" → text ∉ CoreTag.floatWords ∧
      ¬ Spells null text ∧ ¬ Spells bool text ∧ ¬ Spells integer text ∧ ¬ Spells decimal text := by
    rintro (rfl | rfl) <;> decide +kernel
  have words : CoreTag.floatWords.contains text = true ↔ text ∈ CoreTag.floatWords :=
    List.contains_iff_mem
  have floats : Spells float text ↔
      Spells decimal text ∨ text ∈ CoreTag.floatWords ∨ text = "+.Inf" ∨ text = "+.INF" :=
    spells_float
  unfold CoreTag.infer
  simp only [nulls, bools, words, integers, decimals, CoreTag.null, CoreTag.bool, CoreTag.int,
    CoreTag.float, CoreTag.str]
  split
  next member =>
    obtain ⟨no_bool, no_integer, no_float⟩ := null_apart member
    have kept := not_or.mp fun out => (left_out out).2.1 member
    simp [member, no_bool, no_integer, no_float, kept]
  next no_null =>
    split
    next member =>
      obtain ⟨no_integer, no_float⟩ := bool_apart member
      have kept := not_or.mp fun out => (left_out out).2.2.1 member
      simp [no_null, member, no_integer, no_float, kept]
    next no_bool =>
      split
      next member =>
        have kept := not_or.mp fun out => (left_out out).1 member
        simp [no_null, no_bool, word_apart member, floats, member, kept]
      next no_word =>
        split
        next member =>
          have kept := not_or.mp fun out => (left_out out).2.2.2.1 member
          simp [no_null, no_bool, member, kept]
        next no_integer =>
          split
          next member =>
            have kept := not_or.mp fun out => (left_out out).2.2.2.2 member
            simp [no_null, no_bool, no_integer, floats, member, kept]
          next no_decimal =>
            by_cases out : text = "+.Inf" ∨ text = "+.INF"
            · have here : ¬ (text ≠ "+.Inf" ∧ text ≠ "+.INF") := fun kept => not_or.mpr kept out
              simp [no_null, no_bool, no_integer, here, out]
            · simp [no_null, no_bool, no_integer, floats, no_decimal, no_word, out]

/-- The two words are floats by the schema and strings by inference. -/
theorem infer_not_float :
    (Spells float "+.Inf" ∧ ¬ Spells integer "+.Inf" ∧ CoreTag.infer "+.Inf" = CoreTag.str) ∧
      Spells float "+.INF" ∧ ¬ Spells integer "+.INF" ∧ CoreTag.infer "+.INF" = CoreTag.str := by
  decide +kernel

end CoreSchema

end DocRefs
