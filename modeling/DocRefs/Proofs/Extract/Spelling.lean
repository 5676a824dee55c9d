import DocRefs.Extract.Field
import DocRefs.OrderedMap
import DocRefs.Text.Ascii
import Mathlib.Data.List.Basic

/-!
# Spellings of a name

A name spells letters: its characters in lower case, without the separators. No letter is lost or
doubled where a name is cut into words, and the words with separators between them are cut into the
same words. So every key that a field is looked for under spells what its name does, and so does the
key that is found. Main result: `variants_spell`.
-/
namespace DocRefs

namespace Naming

/-- The letters that a text spells. -/
def letters (text : List Char) : List Char := (text.filter (!isSeparator ·)).flatMap Text.lower

theorem letters_append (front back : List Char) :
    letters (front ++ back) = letters front ++ letters back := by
  simp [letters]

/-! ### One character of a name -/

/-- The words that end with the one that is read, which is none if nothing of it is. -/
def ended (word : List Char) : List (List Char) := if word.isEmpty then [] else [word]

theorem flatten_ended (word : List Char) : (ended word).flatten = word := by
  cases word <;> simp [ended]

theorem mem_ended {word other : List Char} : other ∈ ended word ↔ other = word ∧ word ≠ [] := by
  cases word <;> simp [ended]

/-- A separator ends the word, a capital may end it and begins the next one, and any other character
goes on with it. -/
theorem wordsFrom_cons (previous : Option Char) (word : List Char) (c : Char) (rest : List Char) :
    (isSeparator c = true ∧
      wordsFrom previous word (c :: rest) = ended word ++ wordsFrom (some c) [] rest) ∨
    (isSeparator c = false ∧ Text.isUpper c = true ∧
      wordsFrom previous word (c :: rest) = ended word ++ wordsFrom (some c) (Text.lower c) rest) ∨
    (isSeparator c = false ∧
      wordsFrom previous word (c :: rest) = wordsFrom (some c) (word ++ Text.lower c) rest) := by
  rw [wordsFrom]
  cases separator : isSeparator c with
  | true => cases word <;> simp [ended]
  | false =>
    -- A capital only ends a word of which something is read.
    cases begins : !word.isEmpty && beginsWord previous c rest.head? with
    | true =>
      obtain ⟨going, capital⟩ := Bool.and_eq_true_iff.mp begins
      have upper : Text.isUpper c = true := (Bool.and_eq_true_iff.mp capital).1
      have word_ended : ended word = [word] := if_neg (by simpa using going)
      exact .inr (.inl ⟨rfl, upper, by simp [word_ended]⟩)
    | false => exact .inr (.inr ⟨rfl, by simp⟩)

/-- No character is lost or doubled where words part. -/
theorem flatten_wordsFrom (previous : Option Char) (word rest : List Char) :
    (wordsFrom previous word rest).flatten = word ++ letters rest := by
  -- Wherever the word ends, what is read of it comes before the letters that are left.
  induction rest generalizing previous word with
  | nil => rw [letters, wordsFrom]; exact (flatten_ended word).trans (List.append_nil word).symm
  | cons c rest ih =>
    rcases wordsFrom_cons previous word c rest with
      ⟨separator, step⟩ | ⟨letter, _, step⟩ | ⟨letter, step⟩
    · rw [step, List.flatten_append, flatten_ended, ih]
      simp [letters, separator]
    · rw [step, List.flatten_append, flatten_ended, ih]
      simp [letters, letter]
    · rw [step, ih]
      simp [letters, letter]

theorem flatten_words (name : List Char) : (words name).flatten = letters name :=
  flatten_wordsFrom none [] name

/-! ### Characters of words -/

/-- The characters of words. -/
structure IsPlain (c : Char) : Prop where
  ascii : c.toNat < 128
  letter : isSeparator c = false
  small : Text.isUpper c = false
  lower : Text.lower c = [c]

def IsPlainWord (word : List Char) : Prop := word ≠ [] ∧ ∀ c ∈ word, IsPlain c

theorem isPlain_toLower {c : Char} (ascii : c.toNat < 128) (letter : isSeparator c = false) :
    IsPlain c.toLower := by
  have checked : c.toLower.toNat < 128 ∧ isSeparator c.toLower = isSeparator c ∧
      Text.isUpper c.toLower = false ∧ c.toLower.toLower = c.toLower :=
    Text.forall_ascii (P := fun c => c.toLower.toNat < 128 ∧
      isSeparator c.toLower = isSeparator c ∧ Text.isUpper c.toLower = false ∧
      c.toLower.toLower = c.toLower) (by decide +kernel) ascii
  obtain ⟨low, same, small, twice⟩ := checked
  exact ⟨low, same.trans letter, small, by rw [Text.lower_of_ascii low, twice]⟩

theorem isPlainWord_wordsFrom {rest : List Char} (ascii : ∀ c ∈ rest, c.toNat < 128)
    (previous : Option Char) {word : List Char} (plain : ∀ c ∈ word, IsPlain c) :
    ∀ other ∈ wordsFrom previous word rest, IsPlainWord other := by
  have ends {word : List Char} (plain : ∀ c ∈ word, IsPlain c) :
      ∀ other ∈ ended word, IsPlainWord other := by
    intro other member
    obtain ⟨rfl, solid⟩ := mem_ended.mp member
    exact ⟨solid, plain⟩
  induction rest generalizing previous word with
  | nil => exact ends plain
  | cons c rest ih =>
    obtain ⟨here, later⟩ := List.forall_mem_cons.mp ascii
    -- What begins a word or goes on with it is the character in lower case.
    have lowered (letter : isSeparator c = false) : ∀ d ∈ Text.lower c, IsPlain d := by
      rw [Text.lower_of_ascii here]
      simpa using isPlain_toLower here letter
    rcases wordsFrom_cons previous word c rest with
      ⟨_, step⟩ | ⟨letter, _, step⟩ | ⟨letter, step⟩
    · rw [step]
      exact List.forall_mem_append.mpr ⟨ends plain, ih later _ (by simp)⟩
    · rw [step]
      exact List.forall_mem_append.mpr ⟨ends plain, ih later _ (lowered letter)⟩
    · rw [step]
      exact ih later _ (List.forall_mem_append.mpr ⟨plain, lowered letter⟩)

theorem isPlainWord_words {name : List Char} (ascii : ∀ c ∈ name, c.toNat < 128) :
    ∀ word ∈ words name, IsPlainWord word :=
  isPlainWord_wordsFrom ascii none (by simp)

theorem letters_of_isPlain {text : List Char} (plain : ∀ c ∈ text, IsPlain c) :
    letters text = text := by
  induction text with
  | nil => rfl
  | cons c rest ih =>
    obtain ⟨here, later⟩ := List.forall_mem_cons.mp plain
    have first : letters [c] = [c] := by simp [letters, here.letter, here.lower]
    rw [← List.singleton_append, letters_append, first, ih later]

/-! ### Words of words -/

/-- Plain characters go on with a word. -/
theorem wordsFrom_append {text : List Char} (plain : ∀ c ∈ text, IsPlain c)
    (previous : Option Char) (word rest : List Char) :
    ∃ last, wordsFrom previous word (text ++ rest) = wordsFrom last (word ++ text) rest := by
  induction text generalizing previous word with
  | nil => exact ⟨previous, by simp⟩
  | cons c text ih =>
    obtain ⟨here, later⟩ := List.forall_mem_cons.mp plain
    obtain ⟨last, goes_on⟩ := ih later (some c) (word ++ Text.lower c)
    refine ⟨last, ?_⟩
    rcases wordsFrom_cons previous word c (text ++ rest) with
      ⟨separator, _⟩ | ⟨_, upper, _⟩ | ⟨_, step⟩
    · simp [here.letter] at separator
    · simp [here.small] at upper
    · rw [List.cons_append, step, goes_on, here.lower, List.append_assoc, List.singleton_append]

theorem wordsFrom_joined {separator : Char} (mark : isSeparator separator = true)
    {parts : List (List Char)} (plain : ∀ word ∈ parts, IsPlainWord word)
    (previous : Option Char) : wordsFrom previous [] (joined separator parts) = parts := by
  induction parts generalizing previous with
  | nil => rfl
  | cons word rest ih =>
    obtain ⟨⟨solid, here⟩, later⟩ := List.forall_mem_cons.mp plain
    have word_ended : ended word = [word] := if_neg (by simpa using solid)
    cases rest with
    | nil =>
      obtain ⟨last, goes_on⟩ := wordsFrom_append here previous [] []
      rw [List.append_nil, List.nil_append] at goes_on
      have alone : joined separator [word] = word := by simp [joined]
      rw [alone, goes_on]
      exact word_ended
    | cons next more =>
      obtain ⟨last, goes_on⟩ := wordsFrom_append here previous []
        (separator :: joined separator (next :: more))
      have parted : joined separator (word :: next :: more) =
          word ++ separator :: joined separator (next :: more) := by
        rw [joined, List.intercalate_cons_cons, List.append_assoc]
        rfl
      rw [parted, goes_on, List.nil_append]
      -- The word ends at the separator, since no character of it is a capital.
      rcases wordsFrom_cons last word separator (joined separator (next :: more)) with
        ⟨_, step⟩ | ⟨letter, _⟩ | ⟨letter, _⟩
      · rw [step, word_ended, ih later]
        rfl
      all_goals simp [mark] at letter

theorem words_joined {separator : Char} (mark : isSeparator separator = true)
    {parts : List (List Char)} (plain : ∀ word ∈ parts, IsPlainWord word) :
    words (joined separator parts) = parts :=
  wordsFrom_joined mark plain none

theorem letters_joined {separator : Char} (mark : isSeparator separator = true)
    {parts : List (List Char)} (plain : ∀ word ∈ parts, IsPlainWord word) :
    letters (joined separator parts) = parts.flatten := by
  rw [← flatten_words, words_joined mark plain]

/-! ### Case -/

/-- Letters do not depend on case. -/
theorem letters_map_toLower (text : List Char) :
    letters (text.map Char.toLower) = letters text := by
  -- Beyond ASCII nothing is lowered, though characters there have a lower case as well.
  have same (c : Char) : letters [c.toLower] = letters [c] := by
    by_cases ascii : c.toNat < 128
    · exact Text.forall_ascii (P := fun c => letters [c.toLower] = letters [c]) (by decide +kernel)
        ascii
    · rw [Text.toLower_of_not_ascii (Nat.le_of_not_lt ascii)]
  induction text with
  | nil => rfl
  | cons c rest ih =>
    rw [List.map_cons, ← List.singleton_append, letters_append, same, ih, ← letters_append]
    rfl

theorem letters_of_equalFold {a b : String} (same : Text.equalFold a b = true) :
    letters a.toList = letters b.toList := by
  rw [← letters_map_toLower a.toList, ← letters_map_toLower b.toList]
  exact congrArg letters (Text.equalFold_iff.mp same)

theorem toLower_toUpper {c : Char} (ascii : c.toNat < 128) : c.toUpper.toLower = c.toLower :=
  Text.forall_ascii (P := fun c => c.toUpper.toLower = c.toLower) (by decide +kernel) ascii

theorem letters_flatMap_upper {text : List Char} (ascii : ∀ c ∈ text, c.toNat < 128) :
    letters (text.flatMap Text.upper) = letters text := by
  have lowered : (text.flatMap Text.upper).map Char.toLower = text.map Char.toLower := by
    induction text with
    | nil => rfl
    | cons c rest ih =>
      obtain ⟨here, later⟩ := List.forall_mem_cons.mp ascii
      rw [List.flatMap_cons, List.map_append, ih later, Text.upper_of_ascii here, List.map_cons,
        List.map_nil, toLower_toUpper here, List.singleton_append, List.map_cons]
  rw [← letters_map_toLower, lowered, letters_map_toLower]

theorem letters_capitalize {word : List Char} (plain : ∀ c ∈ word, IsPlain c) :
    letters (capitalize word) = word := by
  cases word with
  | nil => rfl
  | cons c rest =>
    obtain ⟨here, later⟩ := List.forall_mem_cons.mp plain
    have first : letters (Text.upper c) = [c] := by
      have raised : letters ([c].flatMap Text.upper) = letters [c] :=
        letters_flatMap_upper (by simpa using here.ascii)
      rw [List.flatMap_singleton] at raised
      exact raised.trans (letters_of_isPlain (by simpa using here))
    rw [capitalize, letters_append, first, letters_of_isPlain later, List.singleton_append]

theorem letters_flatMap_capitalize {parts : List (List Char)}
    (plain : ∀ word ∈ parts, IsPlainWord word) :
    letters (parts.flatMap capitalize) = parts.flatten := by
  induction parts with
  | nil => rfl
  | cons word rest ih =>
    obtain ⟨here, later⟩ := List.forall_mem_cons.mp plain
    rw [List.flatMap_cons, letters_append, letters_capitalize here.2, ih later, List.flatten_cons]

/-! ### Conventions -/

section

variable {name : List Char} (ascii : ∀ c ∈ name, c.toNat < 128)

include ascii

theorem letters_pascal : letters (pascal name) = letters name := by
  rw [pascal, letters_flatMap_capitalize (isPlainWord_words ascii), flatten_words]

theorem letters_camel : letters (camel name) = letters name := by
  have plain := isPlainWord_words ascii
  have flat := flatten_words name
  unfold camel
  split
  next none_there => rw [← flat, none_there]; rfl
  next first rest parts =>
    rw [parts] at plain flat
    obtain ⟨here, later⟩ := List.forall_mem_cons.mp plain
    rw [letters_append, letters_of_isPlain here.2, letters_flatMap_capitalize later,
      ← List.flatten_cons, flat]

theorem letters_kebab : letters (kebab name) = letters name := by
  rw [kebab, letters_joined (by decide) (isPlainWord_words ascii), flatten_words]

theorem letters_snake : letters (snake name) = letters name := by
  rw [snake, letters_joined (by decide) (isPlainWord_words ascii), flatten_words]

theorem ascii_snake : ∀ c ∈ snake name, c.toNat < 128 := by
  have plain := isPlainWord_words ascii
  unfold snake
  generalize words name = parts at plain ⊢
  induction parts with
  | nil => simp [joined]
  | cons word rest ih =>
    obtain ⟨⟨_, here⟩, later⟩ := List.forall_mem_cons.mp plain
    cases rest with
    | nil => simpa [joined] using fun c member => (here c member).ascii
    | cons next more =>
      rw [joined, List.intercalate_cons_cons]
      have mark : ('_').toNat < 128 := by decide
      have front : ∀ c ∈ word ++ ['_'], c.toNat < 128 := List.forall_mem_append.mpr
        ⟨fun c member => (here c member).ascii, List.forall_mem_singleton.mpr mark⟩
      exact List.forall_mem_append.mpr ⟨front, ih later⟩

theorem letters_screaming : letters (screaming name) = letters name := by
  rw [screaming, letters_flatMap_upper (ascii_snake ascii), letters_snake ascii]

theorem letters_of_mem_variants {variant : List Char} (member : variant ∈ variants name) :
    letters variant = letters name := by
  simp only [variants, List.mem_eraseDups, List.mem_filter, List.mem_cons, List.not_mem_nil,
    or_false] at member
  rcases member.1 with rfl | rfl | rfl | rfl | rfl | rfl
  · rfl
  · exact letters_camel ascii
  · exact letters_pascal ascii
  · exact letters_kebab ascii
  · exact letters_snake ascii
  · exact letters_screaming ascii

end

/-! ### Names -/

/-- A name is cut into words of small letters, which are all of its letters; written with separators
between them, they are the words again. -/
structure WordsSpell (name : List Char) : Prop where
  solid : ∀ word ∈ words name, word ≠ []
  small : ∀ word ∈ words name, ∀ c ∈ word, Text.isUpper c = false ∧ Text.lower c = [c]
  apart : ∀ word ∈ words name, ∀ c ∈ word, isSeparator c = false
  spelled : (words name).flatten = letters name
  snake : words (Naming.snake name) = words name
  kebab : words (Naming.kebab name) = words name

/-- The keys for a name are different, the name itself is the first, and each spells its letters. -/
structure VariantsSpell (name : List Char) : Prop where
  distinct : (variants name).Nodup
  solid : [] ∉ variants name
  own : name ≠ [] → (variants name).head? = some name
  spelled : ∀ variant ∈ variants name, letters variant = letters name

theorem wordsSpell {name : List Char} (ascii : ∀ c ∈ name, c.toNat < 128) : WordsSpell name where
  solid word member := (isPlainWord_words ascii word member).1
  small word member c there :=
    have plain := (isPlainWord_words ascii word member).2 c there
    ⟨plain.small, plain.lower⟩
  apart word member c there := ((isPlainWord_words ascii word member).2 c there).letter
  spelled := flatten_words name
  snake := words_joined (by decide) (isPlainWord_words ascii)
  kebab := words_joined (by decide) (isPlainWord_words ascii)

theorem variantsSpell {name : List Char} (ascii : ∀ c ∈ name, c.toNat < 128) :
    VariantsSpell name where
  distinct := OrderedMap.nodup_eraseDups _
  solid := by simp [variants, List.mem_eraseDups]
  own := variants_head?
  spelled _ := letters_of_mem_variants ascii

end Naming

/-- The key of a field that is found spells what one of its keys does. -/
theorem Node.exists_variant_of_findField? {n : Node} {name : String} {pair : Node × Node}
    (found : n.findField? name = some pair) :
    ∃ variant ∈ Naming.variants name.toList,
      Naming.letters pair.1.text.toList = Naming.letters variant := by
  rw [findField?, Option.or_eq_some_iff] at found
  rcases found with exact | ⟨_, folded⟩
  · obtain ⟨text, member, under⟩ := List.exists_of_findSome?_eq_some exact
    obtain ⟨variant, there, rfl⟩ := List.mem_map.mp member
    have same : pair.1.text = String.ofList variant := by simpa using List.find?_some under
    exact ⟨variant, there, by rw [same, String.toList_ofList]⟩
  · obtain ⟨text, member, under⟩ := List.exists_of_findSome?_eq_some folded
    obtain ⟨variant, there, rfl⟩ := List.mem_map.mp member
    have folded_same : Text.equalFold pair.1.text (String.ofList variant) = true := by
      simpa using List.find?_some under
    have same := Naming.letters_of_equalFold folded_same
    exact ⟨variant, there, by rw [same, String.toList_ofList]⟩

/-- Every key that a field with an ASCII name is looked for under, and the key that it is found
under, spells the letters of the name: those of its words. -/
theorem variants_spell (name : String) (ascii : ∀ c ∈ name.toList, c.toNat < 128) :
    Naming.WordsSpell name.toList ∧ Naming.VariantsSpell name.toList ∧
      ∀ (n : Node) (pair : Node × Node), n.findField? name = some pair →
        Naming.letters pair.1.text.toList = Naming.letters name.toList := by
  refine ⟨Naming.wordsSpell ascii, Naming.variantsSpell ascii, fun n pair found => ?_⟩
  obtain ⟨variant, member, same⟩ := Node.exists_variant_of_findField? found
  rw [same, Naming.letters_of_mem_variants ascii member]

/-- A name with separators, a row of capitals and a digit. -/
theorem variants_spell_mixed :
    let name := "HTTPStatus-code_2Go"
    (Naming.words name.toList).map String.ofList = ["http", "status", "code", "2", "go"] ∧
      String.ofList (Naming.letters name.toList) = "httpstatuscode2go" ∧
      Naming.WordsSpell name.toList ∧ Naming.VariantsSpell name.toList := by
  intro name
  have checked : name.toList.all (·.toNat < 128) = true := by decide +kernel
  have ascii : ∀ c ∈ name.toList, c.toNat < 128 := by simpa using List.all_eq_true.mp checked
  obtain ⟨in_words, in_variants, _⟩ := variants_spell name ascii
  exact ⟨by decide +kernel, by decide +kernel, in_words, in_variants⟩

end DocRefs
