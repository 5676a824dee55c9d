import DocRefs.Text.Case

/-!
# Names of fields and keys

A name is a row of words, written in one of several conventions. A field is looked for under its own
name first and then under the same words in every other convention, so all spellings of a name agree
but for case and separators.
-/
namespace DocRefs.Naming

/-! ## Words -/

def isSeparator (c : Char) : Bool := c = '_' || c = '-' || c = ' ' || c = '.'

/-- A capital begins a word behind a small letter or a digit, and in front of a small letter: a row
of capitals is one word, and the last of them belongs to the small letters behind it. -/
def beginsWord (previous : Option Char) (c : Char) (next : Option Char) : Bool :=
  Text.isUpper c &&
    (previous.any (fun p => Text.isLower p || p.isDigit) || next.any Text.isLower)

/-- The words from here on, where `word` is the part of the current one that is read and `previous`
the character before. -/
def wordsFrom (previous : Option Char) (word : List Char) : List Char → List (List Char)
  | [] => if word.isEmpty then [] else [word]
  | c :: rest =>
    if isSeparator c then
      if word.isEmpty then wordsFrom (some c) [] rest else word :: wordsFrom (some c) [] rest
    -- A word that has just begun does not begin again.
    else if !word.isEmpty && beginsWord previous c rest.head? then
      word :: wordsFrom (some c) (Text.lower c) rest
    else wordsFrom (some c) (word ++ Text.lower c) rest

/-- The words of a name, in lower case. -/
def words (name : List Char) : List (List Char) := wordsFrom none [] name

/-! ## Conventions -/

def capitalize : List Char → List Char
  | [] => []
  | first :: rest => Text.upper first ++ rest

def pascal (name : List Char) : List Char := (words name).flatMap capitalize

def camel (name : List Char) : List Char :=
  match words name with
  | [] => []
  | first :: rest => first ++ rest.flatMap capitalize

/-- The words with a separator between them. -/
def joined (separator : Char) (words : List (List Char)) : List Char :=
  [separator].intercalate words

def kebab (name : List Char) : List Char := joined '-' (words name)

def snake (name : List Char) : List Char := joined '_' (words name)

def screaming (name : List Char) : List Char := (snake name).flatMap Text.upper

/-- The keys that a field of this name is looked for under, the preferred ones first. -/
def variants (name : List Char) : List (List Char) :=
  ([name, camel name, pascal name, kebab name, snake name, screaming name].filter
    (!·.isEmpty)).eraseDups

theorem variants_head? {name : List Char} (named : name ≠ []) :
    (variants name).head? = some name := by
  simp [variants, named, List.eraseDups_cons]

end DocRefs.Naming
