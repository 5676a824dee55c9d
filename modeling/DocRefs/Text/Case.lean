import DocRefs.Text.Case.Table

/-!
# Upper and lower case

Case of characters in general. Lower case is taken character by character, without regard to the
neighbours; upper case may lengthen a text.
-/
namespace DocRefs.Text

def isUpper (c : Char) : Bool :=
  if c.toNat < 128 then c.isUpper else uppercaseRuns.any (·.contains c.toNat)

def isLower (c : Char) : Bool :=
  if c.toNat < 128 then c.isLower else lowercaseRuns.any (·.contains c.toNat)

/-- The character moved as the first run that has it says. -/
def shifted (shifts : List (Run × Int)) (c : Char) : Char :=
  match shifts.find? fun (run, _) => run.contains c.toNat with
  | some (_, shift) => Char.ofNat (c.toNat + shift).toNat
  | none => c

/-- The lower case of a character. Only the dotted capital I has two characters there. -/
def lower (c : Char) : List Char :=
  if c.toNat < 128 then [c.toLower]
  else if c.toNat = 0x130 then ['i', Char.ofNat 0x307]
  else [shifted lowerShifts c]

/-- The upper case of a character. -/
def upper (c : Char) : List Char :=
  if c.toNat < 128 then [c.toUpper]
  else match longUppers.lookup c.toNat with
    | some codes => codes.map Char.ofNat
    | none => [shifted upperShifts c]

theorem lower_of_ascii {c : Char} (ascii : c.toNat < 128) : lower c = [c.toLower] := by
  simp [lower, ascii]

theorem upper_of_ascii {c : Char} (ascii : c.toNat < 128) : upper c = [c.toUpper] := by
  simp [upper, ascii]

/-- A white-space character. -/
def isBlank (c : Char) : Bool :=
  let code := c.toNat
  (9 ≤ code && code ≤ 13) || (0x2000 ≤ code && code ≤ 0x200A)
    || [0x20, 0x85, 0xA0, 0x1680, 0x2028, 0x2029, 0x202F, 0x205F, 0x3000].contains code

theorem isBlank_of_isWhitespace {c : Char} (white : c.isWhitespace = true) : isBlank c = true := by
  simp only [Char.isWhitespace, Bool.or_eq_true, decide_eq_true_eq] at white
  rcases white with ((rfl | rfl) | rfl) | rfl <;> decide

end DocRefs.Text
