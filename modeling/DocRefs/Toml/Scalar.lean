import DocRefs.Toml.Reader
import DocRefs.Toml.Value

/-!
# Plain values and quoted text

Numbers, dates and truth values are runs of a few characters, told apart by their form. Quoted text
comes in four forms: with or without escapes, on one line or on several.
-/
namespace DocRefs.Toml

/-! ## Numbers -/

/-- The digits of a run in which single underscores may stand between digits. -/
def digits? (isDigit : Char → Bool) : List Char → Option (List Char)
  | [] => none
  | [c] => if isDigit c then some [c] else none
  | c :: '_' :: rest => if isDigit c then (digits? isDigit rest).map (c :: ·) else none
  | c :: rest => if isDigit c then (digits? isDigit rest).map (c :: ·) else none

def natural (base : Nat) (digits : List Char) : Nat :=
  digits.foldl (fun n c => n * base + (Text.hexDigit? c).getD 0) 0

/-- A sign in front, and what is behind it. -/
def takeSign : List Char → Int × List Char
  | '+' :: rest => (1, rest)
  | '-' :: rest => (-1, rest)
  | text => (1, text)

/-- The digits of a whole number in decimal: no zero in front of others. -/
def wholeDigits? (text : List Char) : Option (List Char) :=
  (digits? Char.isDigit text).filter fun digits => digits.head? ≠ some '0' || digits.length = 1

def isOctal (c : Char) : Bool := '0' ≤ c && c ≤ '7'

def integer? (text : List Char) : Option Int :=
  match text with
  | '0' :: 'x' :: rest =>
    (digits? (fun c => (Text.hexDigit? c).isSome) rest).map fun ds => natural 16 ds
  | '0' :: 'o' :: rest => (digits? isOctal rest).map fun ds => natural 8 ds
  | '0' :: 'b' :: rest => (digits? (fun c => c = '0' || c = '1') rest).map fun ds => natural 2 ds
  | _ =>
    let (sign, body) := takeSign text
    (wholeDigits? body).map fun ds => sign * natural 10 ds

def isExponent (text : List Char) : Bool := (digits? Char.isDigit (takeSign text).2).isSome

/-- What may follow the whole part of a float: a fraction, an exponent or both. -/
def isFloatTail : List Char → Bool
  | '.' :: rest =>
    let fraction := rest.takeWhile fun c => c ≠ 'e' && c ≠ 'E'
    let exponent := rest.dropWhile fun c => c ≠ 'e' && c ≠ 'E'
    (digits? Char.isDigit fraction).isSome && (exponent.isEmpty || isExponent (exponent.drop 1))
  | c :: rest => (c = 'e' || c = 'E') && isExponent rest
  | [] => false

def isFloat (text : List Char) : Bool :=
  let body := (takeSign text).2
  let isTail (c : Char) : Bool := c = '.' || c = 'e' || c = 'E'
  body = "inf".toList || body = "nan".toList ||
    ((wholeDigits? (body.takeWhile (!isTail ·))).isSome && isFloatTail (body.dropWhile (!isTail ·)))

/-! ## Dates -/

/-- A number of exactly so many digits in front, and the rest. -/
def takeNumber? (count : Nat) (text : List Char) : Option (Nat × List Char) :=
  let digits := text.take count
  if digits.length = count && digits.all Char.isDigit then
    some (natural 10 digits, text.drop count)
  else none

def take? (c : Char) (text : List Char) : Option (List Char) :=
  if text.head? = some c then some text.tail else none

def daysIn (year month : Nat) : Nat :=
  if month = 2 then
    if year % 4 = 0 && (year % 100 ≠ 0 || year % 400 = 0) then 29 else 28
  else if [4, 6, 9, 11].contains month then 30 else 31

/-- A day of the calendar in front, and the rest. -/
def takeDay? (text : List Char) : Option (List Char) := do
  let (year, rest) ← takeNumber? 4 text
  let (month, rest) ← takeNumber? 2 (← take? '-' rest)
  let (day, rest) ← takeNumber? 2 (← take? '-' rest)
  if 1 ≤ month ∧ month ≤ 12 ∧ 1 ≤ day ∧ day ≤ daysIn year month then some rest else none

/-- Hours and minutes in front, and the rest. -/
def takeHours? (text : List Char) : Option (List Char) := do
  let (hour, rest) ← takeNumber? 2 text
  let (minute, rest) ← takeNumber? 2 (← take? ':' rest)
  if hour ≤ 23 ∧ minute ≤ 59 then some rest else none

/-- A time of day in front, and the rest. Seconds may be missing. -/
def takeTime? (text : List Char) : Option (List Char) := do
  let rest ← takeHours? text
  match rest with
  | ':' :: rest =>
    let (second, rest) ← takeNumber? 2 rest
    if 60 < second then none
    else match rest with
      | '.' :: fraction =>
        if (fraction.takeWhile Char.isDigit).isEmpty then none
        else some (fraction.dropWhile Char.isDigit)
      | rest => some rest
  | rest => some rest

/-- The distance from universal time: none, a letter or hours and minutes. -/
def isOffset : List Char → Bool
  | [] | ['Z'] | ['z'] => true
  | '+' :: rest | '-' :: rest => takeHours? rest = some []
  | _ => false

/-- The text is a day, a time of day, or both. -/
def isDate (text : List Char) : Bool :=
  match takeDay? text with
  | none => takeTime? text = some []
  | some [] => true
  | some (mark :: time) =>
    (mark = 'T' || mark = 't' || mark = ' ') &&
      match takeTime? time with
      | some offset => isOffset offset
      | none => false

/-! ## Plain values -/

def isPlain (c : Char) : Bool :=
  c.isAlphanum || c = '_' || c = '+' || c = '-' || c = '.' || c = ':'

def ofPlain? (text : List Char) : Option Value :=
  if text = "true".toList then some (.boolean true)
  else if text = "false".toList then some (.boolean false)
  else match integer? text with
    | some n => some (.integer n)
    | none => if isFloat text then some .float else if isDate text then some .date else none

namespace Reader

/-- A plain value. A blank may stand between a day and a time of day. -/
def plain : Reader Value := do
  let first ← takeRun isPlain
  let rest ← get
  let isSplitDate := takeDay? first = some [] && rest.head? = some ' ' &&
    (rest.drop 1).head?.any Char.isDigit
  if isSplitDate then do
    set (rest.drop 1)
    let second ← takeRun isPlain
    ofPlain? (first ++ ' ' :: second)
  else ofPlain? first

/-! ## Quoted text -/

/-- The character of so many hexadecimal digits. -/
def hexScalar (count : Nat) : Reader Char := do
  let digits := (← get).take count
  modify (·.drop count)
  guard (digits.length = count && digits.all fun c => (Text.hexDigit? c).isSome)
  let code := natural 16 digits
  if valid : code.isValidChar then return Char.ofNatAux code valid else failure

/-- What stands behind the backslash of an escape. -/
def escaped : Reader Char := do
  match ← next with
  | 'b' => return '\x08'
  | 't' => return '\t'
  | 'n' => return '\n'
  | 'f' => return '\x0c'
  | 'r' => return '\r'
  | 'e' => return '\x1b'
  | '"' => return '"'
  | '\\' => return '\\'
  | 'x' => hexScalar 2
  | 'u' => hexScalar 4
  | 'U' => hexScalar 8
  | _ => failure

/-- Text on one line up to the closing `mark`. -/
def line (mark : Char) (escapes : Bool) : Reader String := do
  let mut text := #[]
  for _ in ← turns do
    let c ← next
    if c = mark then return String.ofList text.toList
    else if c = '\\' && escapes then text := text.push (← escaped)
    else if isControl c then failure
    else text := text.push c
  failure

/-- A backslash at the end of a line: the break and all blanks and breaks behind it go. -/
def skipFolded : Reader Unit := do
  skipBlanks
  unless ← acceptBreak do failure
  for _ in ← turns do
    skipBlanks
    unless ← acceptBreak do break

/-- Text on several lines up to three closing marks; two more marks may stand in front of them. -/
def lines (mark : Char) (escapes : Bool) : Reader String := do
  discard acceptBreak
  let mut text := #[]
  for _ in ← turns do
    let marks := ((← get).takeWhile (· = mark)).length
    -- The last three marks of a row close the text, the ones before belong to it.
    if 3 ≤ marks then
      let extra := min 2 (marks - 3)
      modify (·.drop (extra + 3))
      return String.ofList (text.toList ++ List.replicate extra mark)
    if ← accept ['\r', '\n'] then text := text.push '\r' |>.push '\n'
    else
      let c ← next
      if c = '\\' && escapes then
        match ← peek? with
        | some after =>
          -- Behind the backslash the line must end, or an escape must follow.
          if isBlank after || after = '\n' || after = '\r' then skipFolded
          else text := text.push (← escaped)
        | none => failure
      else if isControl c && c ≠ '\n' then failure
      else text := text.push c
  failure

/-- Quoted text behind its first mark. -/
def quoted (mark : Char) : Reader String := do
  let escapes := mark = '"'
  if ← accept [mark, mark] then lines mark escapes else line mark escapes

end Reader

end DocRefs.Toml
