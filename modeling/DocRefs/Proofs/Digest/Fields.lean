import DocRefs.Proofs.Digest.Framing
import DocRefs.Proofs.Digest.Ledger

/-!
# What the digest of fields tells apart

Fields are written one after another with a bar behind each, and the entries of a map with commas
between them. Neither is escaped, so bars in texts and keys that look like entries can be mistaken
for them. Main result: `fields_told_apart`: nothing else is.
-/
namespace DocRefs

namespace Text

/-! ### Digits of bytes -/

/-- A lower-case hexadecimal digit. -/
def IsLowerHex (c : Char) : Prop := ∃ value < 16, c = hexDigit value

theorem hexDigit_injective {m n : Nat} (small : m < 16) (other : n < 16)
    (same : hexDigit m = hexDigit n) : m = n := by
  have values := congrArg hexDigit? same
  rw [hexDigit?_hexDigit small, hexDigit?_hexDigit other] at values
  exact Option.some.inj values

theorem isLowerHex_of_mem_hexByte {byte : UInt8} {c : Char} (member : c ∈ hexByte byte) :
    IsLowerHex c := by
  have small := byte.toNat_lt
  simp only [hexByte, List.mem_cons, List.not_mem_nil, or_false] at member
  rcases member with rfl | rfl
  · exact ⟨byte.toNat / 16, by omega, rfl⟩
  · exact ⟨byte.toNat % 16, by omega, rfl⟩

theorem hexByte_injective {a b : UInt8} (same : hexByte a = hexByte b) : a = b := by
  have small := a.toNat_lt
  have other := b.toNat_lt
  simp only [hexByte, List.cons.injEq, and_true] at same
  have high := hexDigit_injective (by omega) (by omega) same.1
  have low := hexDigit_injective (by omega) (by omega) same.2
  exact UInt8.toNat_inj.mp (by omega)

theorem isLowerHex_of_mem_hex {bytes : List UInt8} {c : Char} (member : c ∈ (hex bytes).toList) :
    IsLowerHex c := by
  rw [hex, String.toList_ofList, List.mem_flatMap] at member
  obtain ⟨byte, _, here⟩ := member
  exact isLowerHex_of_mem_hexByte here

theorem length_hex (bytes : List UInt8) : (hex bytes).toList.length = 2 * bytes.length := by
  rw [hex, String.toList_ofList]
  induction bytes with
  | nil => rfl
  | cons byte rest ih =>
    rw [List.flatMap_cons, List.length_append, ih, List.length_cons]
    simp only [hexByte, List.length_cons, List.length_nil]
    omega

theorem hex_injective {bytes more : List UInt8} (same : hex bytes = hex more) : bytes = more := by
  have letters := congrArg String.toList same
  simp only [hex, String.toList_ofList, List.flatMap] at letters
  have two (bytes : List UInt8) : ∀ digits ∈ bytes.map hexByte, digits.length = 2 := by
    simp [hexByte]
  have each := Engine.flatten_injective 2 (by omega) (two bytes) (two more) letters
  exact List.map_injective_iff.mpr (fun _ _ => hexByte_injective) each

end Text

namespace Engine

open List (Perm)
open Text (IsLowerHex)

variable {seed : List UInt8}

/-! ### Digests -/

theorem wide_digestWithin (n : Node) (hops : Nat) : Wide (digestWithin seed hops n) := by
  induction hops generalizing n with
  | zero => cases n <;> exact length_sha256 _
  | succ hops ih =>
    cases n with
    | aliasTo info target => exact ih target
    | _ => exact length_sha256 _

theorem wide_digestOf : (content : Content) → Wide (content.digestOf seed)
  | .plain bytes => length_sha256 _
  | .held inner => by
    rw [Content.digestOf]
    exact wide_digestOf inner
  | .list items => by
    rw [Content.digestOf]
    exact length_sha256 _
  | .node n => wide_digestWithin n aliasHops

theorem hex_injective {d e : Digest} (same : d.hex = e.hex) : d = e := by
  have bytes : d.bytes = e.bytes := Text.hex_injective same
  cases d
  cases e
  simpa using bytes

theorem length_hex_of_wide {d : Digest} (wide : Wide d) : d.hex.toList.length = 64 := by
  rw [Digest.hex, Text.length_hex, wide]

/-- None of the marks between fields and entries is a digit. -/
theorem not_mem_hex {c : Char} (mark : ¬ IsLowerHex c) (d : Digest) : c ∉ d.hex.toList :=
  fun member => mark (Text.isLowerHex_of_mem_hex member)

theorem not_isLowerHex_mark : ¬ IsLowerHex '|' ∧ ¬ IsLowerHex '=' ∧ ¬ IsLowerHex ',' := by
  refine ⟨?_, ?_, ?_⟩ <;>
  · rintro ⟨value, small, same⟩
    revert same
    decide +revert

/-! ### Entries of a map -/

/-- Inside the key there is nothing like the rest of an entry with the comma that follows it. -/
def ClearKey (key : String) : Prop :=
  ∀ front digits back, key.toList = front ++ '=' :: digits ++ ',' :: back →
    digits.length = 64 → ∃ c ∈ digits, ¬ IsLowerHex c

/-- A key with the digest of its value, as a text. -/
def rowText (row : String × Digest) : String := row.1 ++ "=" ++ row.2.hex

/-- The letters of further rows. -/
def furtherRows (rows : List (String × Digest)) : List Char :=
  rows.flatMap fun row => ',' :: (rowText row).toList

theorem toList_rowText (row : String × Digest) :
    (rowText row).toList = row.1.toList ++ '=' :: row.2.hex.toList := by
  simp [rowText]

theorem toList_intercalate_rows (row : String × Digest) (rows : List (String × Digest)) :
    (",".intercalate ((row :: rows).map rowText)).toList =
      (rowText row).toList ++ furtherRows rows := by
  rw [String.toList_intercalate, List.map_map]
  induction rows generalizing row with
  | nil => simp [furtherRows]
  | cons next rest ih =>
    rw [List.map_cons, List.map_cons, List.intercalate_cons_cons, ← List.map_cons, ih]
    simp [furtherRows]

theorem furtherRows_cases (rows : List (String × Digest)) :
    furtherRows rows = [] ∨ ∃ rest, furtherRows rows = ',' :: rest := by
  cases rows with
  | nil => exact .inl rfl
  | cons row rest => exact .inr ⟨_, rfl⟩

/-- An entry does not end inside the key of another one. -/
theorem key_ends {front digits more others : List Char} {key : String}
    {rows : List (String × Digest)} (clear : ClearKey key) (within : key.toList = front ++ more)
    (long : digits.length = 64) (lower : ∀ c ∈ digits, IsLowerHex c)
    (same : '=' :: digits ++ furtherRows rows = more ++ '=' :: others) : more = [] := by
  obtain ⟨_, equals, _⟩ := not_isLowerHex_mark
  -- What follows the digits is a comma, if anything.
  have no_equals (others : List Char) : furtherRows rows ≠ '=' :: others := by
    intro further
    rcases furtherRows_cases rows with none | ⟨rest, some⟩
    · rw [none] at further
      cases further
    · rw [some] at further
      exact absurd (List.cons.inj further).1 (by decide)
  cases more with
  | nil => rfl
  | cons c rest =>
    rw [List.cons_append, List.cons_append] at same
    obtain ⟨rfl, behind⟩ := List.cons.inj same
    rcases List.append_eq_append_iff.mp behind with ⟨rest, rfl, meets⟩ | ⟨rest, rfl, meets⟩
    · cases rest with
      | nil => exact absurd meets (no_equals others)
      | cons d rest =>
        -- The whole entry is in the key, with a comma behind it.
        obtain ⟨_, further⟩ : ∃ tail, furtherRows rows = ',' :: tail :=
          (furtherRows_cases rows).resolve_left (by simp [meets])
        obtain ⟨rfl, _⟩ := List.cons.inj (further.symm.trans meets)
        obtain ⟨c, member, other⟩ := clear front digits rest (by simp [within]) long
        exact absurd (lower c member) other
    · cases rest with
      | nil => exact absurd meets.symm (no_equals others)
      | cons d rest =>
        obtain ⟨rfl, _⟩ := List.cons.inj meets
        exact absurd (lower '=' (by simp)) equals

theorem row_injective {row other : String × Digest} {rows more : List (String × Digest)}
    (wide : Wide row.2) (wide_other : Wide other.2) (clear : ClearKey row.1)
    (clear_other : ClearKey other.1)
    (same : (rowText row).toList ++ furtherRows rows =
      (rowText other).toList ++ furtherRows more) :
    row = other ∧ furtherRows rows = furtherRows more := by
  have digits (d : Digest) : ∀ c ∈ d.hex.toList, IsLowerHex c :=
    fun c => Text.isLowerHex_of_mem_hex
  have long := length_hex_of_wide wide
  have long_other := length_hex_of_wide wide_other
  rw [toList_rowText, toList_rowText, List.append_assoc, List.append_assoc] at same
  -- One of the keys begins with the other; neither of them goes on.
  have keys : row.1.toList = other.1.toList := by
    rcases List.append_eq_append_iff.mp same with ⟨rest, longer, meets⟩ | ⟨rest, longer, meets⟩
    · rw [key_ends clear_other longer long (digits row.2) meets, List.append_nil] at longer
      exact longer.symm
    · rw [key_ends clear longer long_other (digits other.2) meets, List.append_nil] at longer
      exact longer
  rw [keys, List.append_cancel_left_eq, List.cons_append, List.cons_append,
    List.cons.injEq] at same
  obtain ⟨hex, further⟩ := List.append_inj same.2 (long.trans long_other.symm)
  refine ⟨Prod.ext (String.toList_inj.mp keys) (hex_injective (String.toList_inj.mp hex)), further⟩

theorem furtherRows_injective {rows more : List (String × Digest)}
    (wide : ∀ row ∈ rows, Wide row.2 ∧ ClearKey row.1)
    (wide_more : ∀ row ∈ more, Wide row.2 ∧ ClearKey row.1)
    (same : furtherRows rows = furtherRows more) : rows = more := by
  induction rows generalizing more with
  | nil =>
    cases more with
    | nil => rfl
    | cons row rest => simp [furtherRows] at same
  | cons row rest ih =>
    cases more with
    | nil => simp [furtherRows] at same
    | cons other rest_other =>
      obtain ⟨here, later⟩ := List.forall_mem_cons.mp wide
      obtain ⟨here_other, later_other⟩ := List.forall_mem_cons.mp wide_more
      obtain ⟨rfl, further⟩ := row_injective here.1 here_other.1 here.2 here_other.2
        (List.cons.inj same).2
      rw [ih later later_other further]

/-- Entries are told apart in the text of them all. -/
theorem rows_injective {rows more : List (String × Digest)}
    (wide : ∀ row ∈ rows, Wide row.2 ∧ ClearKey row.1)
    (wide_more : ∀ row ∈ more, Wide row.2 ∧ ClearKey row.1)
    (same : ",".intercalate (rows.map rowText) = ",".intercalate (more.map rowText)) :
    rows = more := by
  have filled (row : String × Digest) (rows : List (String × Digest)) :
      ",".intercalate ((row :: rows).map rowText) ≠ "" := by
    intro empty
    have letters := congrArg String.toList empty
    rw [toList_intercalate_rows, toList_rowText] at letters
    simp at letters
  cases rows with
  | nil =>
    cases more with
    | nil => rfl
    | cons row rest => exact absurd same.symm (filled row rest)
  | cons row rest =>
    cases more with
    | nil => exact absurd same (filled row rest)
    | cons other rest_other =>
      have letters := congrArg String.toList same
      rw [toList_intercalate_rows, toList_intercalate_rows] at letters
      exact furtherRows_injective wide wide_more (congrArg (',' :: ·) letters)

/-- The keys of a map with the digests of the values, in the order in which they are written. -/
def sortedRows (seed : List UInt8) (entries : List (String × Content)) : List (String × Digest) :=
  (entries.map fun entry => (entry.1, entry.2.digestOf seed)).mergeSort fun a b =>
    decide (rowText a ≤ rowText b)

theorem sortedRows_perm (entries : List (String × Content)) :
    Perm (sortedRows seed entries) (entries.map fun entry => (entry.1, entry.2.digestOf seed)) :=
  List.mergeSort_perm _ _

theorem textOf_map_rows (entries : List (String × Content)) :
    (Field.map entries).textOf seed = ",".intercalate
      (((entries.map fun entry => (entry.1, entry.2.digestOf seed)).map rowText).mergeSort
        fun a b => decide (a ≤ b)) := by
  rw [List.map_map]
  rfl

theorem textOf_map (entries : List (String × Content)) :
    (Field.map entries).textOf seed = ",".intercalate ((sortedRows seed entries).map rowText) := by
  have sorted := List.map_mergeSort (f := rowText) (s := fun a b : String => decide (a ≤ b))
    (l := entries.map fun entry => (entry.1, entry.2.digestOf seed)) fun a _ b _ => rfl
  rw [textOf_map_rows, ← sorted]
  rfl

/-! ### Fields -/

namespace Field

/-- Fields of the same kind. -/
inductive Alike : Field → Field → Prop
  | text (s t : String) : Alike (.text s) (.text t)
  | value (c d : Content) : Alike (.value c) (.value d)
  | optional (c d : Option Content) : Alike (.optional c) (.optional d)
  | map (entries more : List (String × Content)) : Alike (.map entries) (.map more)

/-- Fields of the same kind with the same texts, keys and digests. -/
inductive Agree (seed : List UInt8) : Field → Field → Prop
  | text (s : String) : Agree seed (.text s) (.text s)
  | value {c d : Content} (same : c.digestOf seed = d.digestOf seed) :
    Agree seed (.value c) (.value d)
  | optional {c d : Option Content} (same : c.map (·.digestOf seed) = d.map (·.digestOf seed)) :
    Agree seed (.optional c) (.optional d)
  | map {entries more : List (String × Content)}
    (same : Perm (entries.map fun entry => (entry.1, entry.2.digestOf seed))
      (more.map fun entry => (entry.1, entry.2.digestOf seed))) :
    Agree seed (.map entries) (.map more)

/-- How many bars there are in the text of a field. -/
def bars : Field → Nat
  | .text s => s.toList.count '|'
  | .value _ | .optional _ => 0
  | .map entries => (entries.map fun entry => entry.1.toList.count '|').sum

/-- No key of the field can be mistaken for an entry and the beginning of another one. -/
def Clear : Field → Prop
  | .map entries => ∀ entry ∈ entries, ClearKey entry.1
  | _ => True

theorem count_hex (d : Digest) : d.hex.toList.count '|' = 0 :=
  List.count_eq_zero.mpr (not_mem_hex not_isLowerHex_mark.1 d)

theorem count_furtherRows (rows : List (String × Digest)) :
    (furtherRows rows).count '|' = (rows.map fun row => row.1.toList.count '|').sum := by
  induction rows with
  | nil => rfl
  | cons row rest ih =>
    rw [furtherRows, List.flatMap_cons, List.count_append, ← furtherRows, ih, List.map_cons,
      List.sum_cons, toList_rowText]
    simp [List.count_append, count_hex]

theorem count_textOf (field : Field) : (field.textOf seed).toList.count '|' = field.bars := by
  cases field with
  | text s => rfl
  | value content => exact count_hex _
  | optional content =>
    cases content with
    | none => rfl
    | some content => exact count_hex _
  | map entries =>
    have rows : Perm (sortedRows seed entries) _ := sortedRows_perm entries
    have order := rows.map fun row => row.1.toList.count '|'
    -- The rows are written in another order than the entries have, which the sum does not see.
    have bars : (Field.map entries).bars =
        ((sortedRows seed entries).map fun row => row.1.toList.count '|').sum := by
      rw [List.Perm.sum_nat order, List.map_map]
      rfl
    rw [bars, textOf_map]
    cases sortedRows seed entries with
    | nil => rfl
    | cons row rest =>
      rw [toList_intercalate_rows, List.count_append, count_furtherRows, List.map_cons,
        List.sum_cons, toList_rowText]
      simp [List.count_append, count_hex]

theorem Agree.textOf_eq {field other : Field} (agree : Agree seed field other) :
    field.textOf seed = other.textOf seed := by
  cases agree with
  | text s => rfl
  | value same => rw [textOf, textOf, same]
  | @optional c d same =>
    cases c <;> cases d
    · rfl
    · cases same
    · cases same
    · exact congrArg Digest.hex (Option.some.inj same)
  | map same =>
    rw [textOf_map_rows, textOf_map_rows, mergeSort_eq_iff.mpr (same.map rowText)]

theorem agree_of_textOf_eq {field other : Field} (alike : Alike field other) (clear : field.Clear)
    (clear_other : other.Clear) (same : field.textOf seed = other.textOf seed) :
    Agree seed field other := by
  cases alike with
  | text s t =>
    obtain rfl : s = t := same
    exact .text s
  | value c d => exact .value (hex_injective same)
  | optional c d =>
    -- No digest is written as the empty text, which stands for an absent value.
    have filled (d : Digest) (wide : Wide d) : d.hex ≠ "" := by
      intro empty
      have long := length_hex_of_wide wide
      rw [empty] at long
      cases long
    cases c <;> cases d
    · exact .optional rfl
    · exact absurd same.symm (filled _ (wide_digestOf _))
    · exact absurd same (filled _ (wide_digestOf _))
    · exact .optional (congrArg some (hex_injective same))
  | map entries more =>
    have rows_wide {entries : List (String × Content)} (clear : (Field.map entries).Clear) :
        ∀ row ∈ sortedRows seed entries, Wide row.2 ∧ ClearKey row.1 := by
      intro row member
      obtain ⟨entry, there, rfl⟩ := List.mem_map.mp ((sortedRows_perm entries).mem_iff.mp member)
      exact ⟨wide_digestOf entry.2, clear entry there⟩
    rw [textOf_map, textOf_map] at same
    have rows := rows_injective (rows_wide clear) (rows_wide clear_other) same
    exact .map ((sortedRows_perm entries).symm.trans (rows ▸ sortedRows_perm more))

end Field

/-! ### All fields -/

theorem toList_written (buffer : String) (fields : List Field) :
    (written seed buffer fields).toList =
      buffer.toList ++ fields.flatMap fun field => (field.textOf seed).toList ++ ['|'] := by
  induction fields generalizing buffer with
  | nil => simp [written]
  | cons field rest ih =>
    rw [written, List.foldl_cons, ← written, ih, List.flatMap_cons]
    simp

/-- A text ends at its bar if there are as many bars behind it. -/
theorem bar_injective {text other behind behind_other : List Char}
    (same : text ++ '|' :: behind = other ++ '|' :: behind_other)
    (bars : text.count '|' = other.count '|') : text = other ∧ behind = behind_other := by
  -- What one text has more than the other begins with a bar.
  have ends {more left right : List Char} (none : more.count '|' = 0)
      (meets : '|' :: left = more ++ '|' :: right) : more = [] := by
    cases more with
    | nil => rfl
    | cons c rest =>
      obtain ⟨rfl, _⟩ := List.cons.inj meets
      simp at none
  have texts : text = other := by
    rcases List.append_eq_append_iff.mp same with ⟨more, rfl, meets⟩ | ⟨more, rfl, meets⟩
    · rw [List.count_append] at bars
      rw [ends (by omega) meets, List.append_nil]
    · rw [List.count_append] at bars
      rw [ends (by omega) meets, List.append_nil]
  subst texts
  exact ⟨rfl, (List.cons.inj (List.append_cancel_left same)).2⟩

theorem textOf_eq_of_written_eq {fields more : List Field}
    (bars : List.Forall₂ (fun field other => field.bars = other.bars) fields more)
    (same : written seed "" fields = written seed "" more) :
    List.Forall₂ (fun field other => field.textOf seed = other.textOf seed) fields more := by
  have letters := congrArg String.toList same
  rw [toList_written, toList_written, List.append_cancel_left_eq] at letters
  clear same
  induction bars with
  | nil => exact .nil
  | @cons field other fields more here later ih =>
    simp only [List.flatMap_cons, List.append_assoc, List.cons_append, List.nil_append] at letters
    have counts : (field.textOf seed).toList.count '|' = (other.textOf seed).toList.count '|' := by
      rw [Field.count_textOf, Field.count_textOf, here]
    obtain ⟨texts, behind⟩ := bar_injective letters counts
    exact .cons (String.toList_inj.mp texts) (ih behind)

theorem written_eq_of_agree {fields more : List Field}
    (agree : List.Forall₂ (Field.Agree seed) fields more) (buffer : String) :
    written seed buffer fields = written seed buffer more := by
  induction agree generalizing buffer with
  | nil => rfl
  | @cons field other fields more here later ih =>
    rw [written, List.foldl_cons, here.textOf_eq]
    exact ih _

theorem agree_of_written_eq {fields more : List Field}
    (alike : List.Forall₂ Field.Alike fields more)
    (bars : List.Forall₂ (fun field other => field.bars = other.bars) fields more)
    (clears : ∀ field ∈ fields, field.Clear) (clears_more : ∀ field ∈ more, field.Clear)
    (same : written seed "" fields = written seed "" more) :
    List.Forall₂ (Field.Agree seed) fields more := by
  have texts := textOf_eq_of_written_eq bars same
  clear same bars
  induction alike with
  | nil => exact .nil
  | cons here later ih =>
    obtain ⟨text, texts⟩ := List.forall₂_cons.mp texts
    obtain ⟨clear_here, clears⟩ := List.forall_mem_cons.mp clears
    obtain ⟨clear_other, clears_more⟩ := List.forall_mem_cons.mp clears_more
    exact .cons (Field.agree_of_textOf_eq here clear_here clear_other text)
      (ih clears clears_more texts)

/-- The bytes that are hashed for fields. -/
def fieldBytes (seed : List UInt8) (fields : List Field) : List UInt8 :=
  seed ++ utf8Bytes (written seed "" fields)

theorem run_hashFields {ledger : Ledger} {e : Engine} (faithful : e.Faithful seed ledger)
    {fields : List Field} (entered : ∀ field ∈ fields, ∀ n ∈ field.nodes, Entered seed ledger n) :
    ((hashFields fields).run e).1 = sha256 (fieldBytes seed fields) := by
  obtain ⟨after, run, _⟩ := answers_hashFields entered e faithful
  rw [run]
  rfl

/-- Two engines with one seed digest fields. Where the fields agree the digests are equal. Where
fields of the same kinds have equal digests they agree, or SHA-256 has given one digest to two byte
strings that were hashed for them, if in corresponding fields there are equally many bars and no key
can be mistaken for an entry. What an engine says is the digest of a value is its `digestOf`
(`answers_hash`). -/
theorem fields_told_apart {ledger other : Ledger} {e d : Engine} (faithful : e.Faithful seed ledger)
    (faithful_other : d.Faithful seed other) {fields more : List Field}
    (entered : ∀ field ∈ fields, ∀ n ∈ field.nodes, Entered seed ledger n)
    (entered_more : ∀ field ∈ more, ∀ n ∈ field.nodes, Entered seed other n) :
    (List.Forall₂ (Field.Agree seed) fields more →
      ((hashFields fields).run e).1 = ((hashFields more).run d).1) ∧
    (List.Forall₂ Field.Alike fields more →
      List.Forall₂ (fun field other => field.bars = other.bars) fields more →
        (∀ field ∈ fields, field.Clear) → (∀ field ∈ more, field.Clear) →
          ((hashFields fields).run e).1 = ((hashFields more).run d).1 →
            List.Forall₂ (Field.Agree seed) fields more ∨
              fieldBytes seed fields ≠ fieldBytes seed more ∧
                sha256 (fieldBytes seed fields) = sha256 (fieldBytes seed more)) := by
  rw [run_hashFields faithful entered, run_hashFields faithful_other entered_more]
  constructor
  · intro agree
    rw [fieldBytes, written_eq_of_agree agree, fieldBytes]
  · intro alike bars clears clears_more same
    by_cases bytes : fieldBytes seed fields = fieldBytes seed more
    · have buffers := utf8Bytes_injective (List.append_cancel_left bytes)
      exact .inl (agree_of_written_eq alike bars clears clears_more buffers)
    · exact .inr ⟨bytes, same⟩

/-- The entries of a map may come in any order. -/
theorem fields_told_apart_swapped :
    let e : Engine := { seed := some [7] }
    let fields := [.text "a|b", .optional none, .map [("x", .int64 1), ("y", .int64 2)]]
    let more := [.text "a|b", .optional none, .map [("y", .int64 2), ("x", .int64 1)]]
    ((hashFields fields).run e).1 = ((hashFields more).run e).1 ∧
      (List.Forall₂ (Field.Agree [7]) fields more ∨
        fieldBytes [7] fields ≠ fieldBytes [7] more ∧
          sha256 (fieldBytes [7] fields) = sha256 (fieldBytes [7] more)) := by
  intro e fields more
  have faithful : e.Faithful [7] fun _ => none := faithful_new (some [7]) fun _ => none
  have entered : ∀ field ∈ fields, ∀ n ∈ field.nodes, Entered [7] (fun _ => none) n := by
    simp [fields, Field.nodes, Content.nodes, Content.int64, Content.marked]
  have entered_more : ∀ field ∈ more, ∀ n ∈ field.nodes, Entered [7] (fun _ => none) n := by
    simp [more, Field.nodes, Content.nodes, Content.int64, Content.marked]
  have clear {key : String} (plain : '=' ∉ key.toList) : ClearKey key := by
    intro front digits back within
    rw [within] at plain
    simp at plain
  obtain ⟨equal, apart⟩ := fields_told_apart faithful faithful entered entered_more
  have agree : List.Forall₂ (Field.Agree [7]) fields more :=
    .cons (.text "a|b") (.cons (.optional rfl) (.cons (.map (.swap _ _ [])) .nil))
  have alike : List.Forall₂ Field.Alike fields more :=
    .cons (.text _ _) (.cons (.optional _ _) (.cons (.map _ _) .nil))
  have bars : List.Forall₂ (fun field other => field.bars = other.bars) fields more :=
    .cons rfl (.cons rfl (.cons (by decide) .nil))
  refine ⟨equal agree, apart alike bars ?_ ?_ (equal agree)⟩
  all_goals
    simp only [fields, more, List.forall_mem_cons, Field.Clear]
    simp [clear]

theorem Field.Agree.text_eq {s t : String} (agree : Agree seed (.text s) (.text t)) : s = t := by
  cases agree
  rfl

theorem Field.Agree.perm {entries more : List (String × Content)}
    (agree : Agree seed (.map entries) (.map more)) :
    Perm (entries.map fun entry => (entry.1, entry.2.digestOf seed))
      (more.map fun entry => (entry.1, entry.2.digestOf seed)) := by
  cases agree with
  | map same => exact same

/-- A bar in a text is taken for the end of a field, and a key with an equals sign, a digest and a
comma for an entry and the beginning of another one: the same bytes are hashed. -/
theorem fields_not_told_apart :
    let entry := "a=" ++ (sha256 []).hex
    (((hashFields [.text "a|b", .text "c"]).run {}).1 =
        ((hashFields [.text "a", .text "b|c"]).run {}).1 ∧
      fieldBytes [] [.text "a|b", .text "c"] = fieldBytes [] [.text "a", .text "b|c"] ∧
      ¬ List.Forall₂ (Field.Agree []) [.text "a|b", .text "c"] [.text "a", .text "b|c"]) ∧
    (((hashFields [.map [("a", .plain []), ("b", .plain [])]]).run {}).1 =
        ((hashFields [.map [(entry ++ ",b", .plain [])]]).run {}).1 ∧
      fieldBytes [] [.map [("a", .plain []), ("b", .plain [])]] =
        fieldBytes [] [.map [(entry ++ ",b", .plain [])]] ∧
      ¬ List.Forall₂ (Field.Agree []) [.map [("a", .plain []), ("b", .plain [])]]
        [.map [(entry ++ ",b", .plain [])]]) := by
  intro entry
  have same_digest {fields more : List Field} (none : ∀ field ∈ fields, field.nodes = [])
      (none_more : ∀ field ∈ more, field.nodes = [])
      (bytes : fieldBytes [] fields = fieldBytes [] more) :
      ((hashFields fields).run {}).1 = ((hashFields more).run {}).1 := by
    have faithful : ({} : Engine).Faithful [] fun _ => Option.none :=
      faithful_new Option.none fun _ => Option.none
    have entered {fields : List Field} (none : ∀ field ∈ fields, field.nodes = []) :
        ∀ field ∈ fields, ∀ n ∈ field.nodes, Entered [] (fun _ => Option.none) n := by
      intro field member n inside
      rw [none field member] at inside
      cases inside
    rw [run_hashFields faithful (entered none), bytes, run_hashFields faithful (entered none_more)]
  have texts : fieldBytes [] [.text "a|b", .text "c"] = fieldBytes [] [.text "a", .text "b|c"] := by
    have buffers : written [] "" [.text "a|b", .text "c"] =
        written [] "" [.text "a", .text "b|c"] := by
      decide +kernel
    rw [fieldBytes, buffers, fieldBytes]
  have maps : fieldBytes [] [.map [("a", .plain []), ("b", .plain [])]] =
      fieldBytes [] [.map [(entry ++ ",b", .plain [])]] := by
    -- Both are written with the row of `a`, a comma, and the row of `b`.
    have ordered : "a=" ++ (sha256 []).hex ≤ "b=" ++ (sha256 []).hex := by decide +kernel
    have digest : (Content.plain []).digestOf [] = sha256 [] := by
      rw [Content.digestOf, List.append_nil]
    have two : (Field.map [("a", .plain []), ("b", .plain [])]).textOf [] =
        entry ++ "," ++ ("b=" ++ (sha256 []).hex) := by
      rw [textOf_map_rows, List.mergeSort_of_pairwise (by simpa [rowText, digest] using ordered)]
      simp [rowText, digest, entry, String.append_assoc]
    have one : (Field.map [(entry ++ ",b", .plain [])]).textOf [] =
        entry ++ "," ++ ("b=" ++ (sha256 []).hex) := by
      rw [textOf_map_rows, List.map_singleton, List.map_singleton, List.mergeSort_singleton,
        String.intercalate_singleton, rowText, digest]
      have comma : ",b" = "," ++ "b" := by decide
      simp only [comma, String.append_assoc]
      rfl
    rw [fieldBytes, written, List.foldl_cons, two, ← one]
    rfl
  refine ⟨⟨same_digest ?_ ?_ texts, texts, ?_⟩, same_digest ?_ ?_ maps, maps, ?_⟩
  case refine_3 =>
    intro agree
    exact absurd (List.forall₂_cons.mp agree).1.text_eq (by decide)
  case refine_6 =>
    intro agree
    exact absurd (List.forall₂_cons.mp agree).1.perm.length_eq (by decide)
  all_goals simp [Field.nodes, Content.nodes]

end Engine

end DocRefs
