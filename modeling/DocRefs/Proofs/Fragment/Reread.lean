import DocRefs.Index.Build
import DocRefs.Proofs.Index.Place
import DocRefs.Proofs.Text.Percent

/-!
# Paths that are read back

Escaping leaves percent signs alone, and reading takes percent-encoding off. So a path is read back
from its written form exactly if that changes none of its segments and the first one is not empty,
and the name of a place is the text of its key exactly if that does not change the key. Main result:
`Fragment.read_back_iff`.
-/
namespace DocRefs

namespace Fragment

open Text (HasEscape Decodes IsText isCounted leadingByte? hexByte? hexDigit? percentBytes utf8)

/-! ### Escaping and percent-encoding -/

/-- Tildes and slashes are written as a tilde and a code, and all else is kept. -/
theorem escapeChars_step (c : Char) (rest : List Char) :
    escapeChars (c :: rest) = c :: escapeChars rest ∨
      (c = '~' ∨ c = '/') ∧ ∃ code, (code = '0' ∨ code = '1') ∧
        escapeChars (c :: rest) = '~' :: code :: escapeChars rest := by
  rw [escapeChars_cons]
  split
  next tilde => exact .inr ⟨.inl tilde, '0', .inl rfl, rfl⟩
  · split
    next slash => exact .inr ⟨.inr slash, '1', .inr rfl, rfl⟩
    · exact .inl rfl

/-- Escaping makes no digits. -/
theorem leadingByte?_escapeChars {text : List Char} (plain : leadingByte? text = none) :
    leadingByte? (escapeChars text) = none := by
  cases text with
  | nil => rfl
  | cons high rest =>
    rcases escapeChars_step high rest with kept | ⟨_, code, _, written⟩
    · rw [kept]
      cases rest with
      | nil => rfl
      | cons low rest =>
        rcases escapeChars_step low rest with kept_too | ⟨_, code, _, written⟩
        · rw [kept_too]
          exact plain
        · rw [written]
          exact Text.hexByte?_eq_none (.inr rfl)
    · rw [written]
      exact Text.hexByte?_eq_none (.inl rfl)

theorem escapeChars_of_byte {high low : Char} {byte : UInt8} (reads : hexByte? high low = some byte)
    (rest : List Char) :
    escapeChars ('%' :: high :: low :: rest) = '%' :: high :: low :: escapeChars rest := by
  have digits (other : hexDigit? high = none ∨ hexDigit? low = none) : False := by
    simp [Text.hexByte?_eq_none other] at reads
  have kept_high : ¬ (high = '~' ∨ high = '/') := by
    rintro (rfl | rfl) <;> exact digits (.inl rfl)
  have kept_low : ¬ (low = '~' ∨ low = '/') := by
    rintro (rfl | rfl) <;> exact digits (.inr rfl)
  rw [(escapeChars_step '%' _).resolve_right (by simp),
    (escapeChars_step high _).resolve_right fun escaped => kept_high escaped.1,
    (escapeChars_step low _).resolve_right fun escaped => kept_low escaped.1]

theorem hasEscape_escapeChars (key : List Char) : HasEscape (escapeChars key) ↔ HasEscape key := by
  have other {c : Char} (differ : c ≠ '%') (rest : List Char) :
      HasEscape (c :: rest) ↔ HasEscape rest :=
    Text.hasEscape_of_char fun percent => absurd percent differ
  induction key using Text.percentInduction with
  | nil => rfl
  | byte high low rest byte reads ih =>
    rw [escapeChars_of_byte reads]
    exact iff_of_true (Text.hasEscape_of_byte reads _) (Text.hasEscape_of_byte reads _)
  | char c rest plain ih =>
    rw [Text.hasEscape_of_char plain]
    refine Iff.trans ?_ ih
    -- Neither a tilde nor a code is a percent sign, and none comes to stand before digits.
    rcases escapeChars_step c rest with kept | ⟨_, code, rfl | rfl, written⟩
    · rw [kept, Text.hasEscape_of_char fun percent => leadingByte?_escapeChars (plain percent)]
    all_goals rw [written, other (by decide), other (by decide)]

theorem isText_of_ascii {front : List UInt8} {c : Char} (ascii : c.toNat < 128) (other : c ≠ '%')
    (rest : List Char) :
    IsText (front ++ percentBytes (c :: rest)) ↔ IsText front ∧ IsText (percentBytes rest) := by
  rw [Text.percentBytes_of_char fun percent => absurd percent other,
    Text.isText_append_utf8_append ascii]

/-- Whatever bytes come before, escaping a key does not change whether they are those of a text. -/
theorem isText_escapeChars (key : List Char) (front : List UInt8) :
    IsText (front ++ percentBytes (escapeChars key)) ↔ IsText (front ++ percentBytes key) := by
  induction key using Text.percentInduction generalizing front with
  | nil => rfl
  | byte high low rest byte reads ih =>
    rw [escapeChars_of_byte reads, Text.percentBytes_of_byte reads, Text.percentBytes_of_byte reads]
    simpa using ih (front ++ [byte])
  | char c rest plain ih =>
    rcases escapeChars_step c rest with kept | ⟨escaped, code, coded, written⟩
    · rw [kept, Text.percentBytes_of_char plain,
        Text.percentBytes_of_char fun percent => leadingByte?_escapeChars (plain percent)]
      simpa using ih (front ++ utf8 c)
    · have ascii : c.toNat < 128 ∧ c ≠ '%' := by rcases escaped with rfl | rfl <;> decide
      have ascii_code : code.toNat < 128 ∧ code ≠ '%' := by rcases coded with rfl | rfl <;> decide
      -- Both sides are parted at the character; what is behind it is text on both or on neither.
      have behind : IsText (percentBytes (code :: escapeChars rest)) ↔
          IsText (percentBytes rest) := by
        have parted := @isText_of_ascii [] code ascii_code.1 ascii_code.2 (escapeChars rest)
        have same := ih []
        simp only [List.nil_append, Text.isText_nil, true_and] at parted same
        exact parted.trans same
      rw [written, isText_of_ascii (by decide) (by decide), behind,
        isText_of_ascii ascii.1 ascii.2]

theorem decodes_escapeChars (key : List Char) : Decodes (escapeChars key) ↔ Decodes key :=
  and_congr (hasEscape_escapeChars key) (isText_escapeChars key [])

/-! ### Keys -/

theorem countP_escapeChars (key : List Char) :
    (escapeChars key).countP isCounted = key.countP isCounted := by
  induction key with
  | nil => rfl
  | cons c rest ih =>
    rcases escapeChars_step c rest with kept | ⟨rfl | rfl, code, rfl | rfl, written⟩
    · rw [kept, List.countP_cons, List.countP_cons, ih]
    all_goals
      rw [written]
      exact ih

theorem countP_unescapeTilde {code c : Char} (plain : isCounted code = false)
    (other : isCounted c = false) (text : List Char) :
    (unescapeTilde code c text).countP isCounted = text.countP isCounted := by
  have tilde : isCounted '~' = false := rfl
  fun_induction unescapeTilde code c text with
  | case1 rest ih => simp [ih, plain, other, tilde]
  | case2 next rest differ ih => simpa [List.countP_cons, tilde] using ih
  | case3 first rest _ ih => simp [List.countP_cons, ih]
  | case4 => rfl

/-- Whatever is unescaped after decoding, the key that was encoded does not come out. -/
theorem unescapeChars_ne_of_decodes {key : List Char} (decodes : Decodes key) :
    unescapeChars (escapeChars key) ≠ key := by
  intro same
  -- Decoding leaves fewer percent signs and twos, and the tilde codes have none.
  have less := Text.countP_percentDecode_lt ((decodes_escapeChars key).mpr decodes)
  have counts := congrArg (List.countP isCounted) same
  rw [unescapeChars, countP_unescapeTilde rfl rfl, countP_unescapeTilde rfl rfl] at counts
  rw [counts, countP_escapeChars] at less
  exact Nat.lt_irrefl _ less

theorem reread_eq_iff {key : String} : reread key = key ↔ ¬ Decodes key.toList := by
  constructor
  · intro same decodes
    have letters := congrArg String.toList same
    rw [reread, String.toList_ofList] at letters
    exact unescapeChars_ne_of_decodes decodes letters
  · intro plain
    have kept := Text.percentDecode_eq_self_iff.mpr (mt (decodes_escapeChars _).mp plain)
    rw [reread, unescapeChars, kept, unescapeTilde_escapeChars, unescapeTilde_flatMap,
      String.ofList_toList]

/-! ### Paths and names -/

theorem segments_ofSegments_iff {path : List String} :
    segments (ofSegments path) = path ↔
      path.head? ≠ some "" ∧ ∀ segment ∈ path, ¬ Decodes segment.toList := by
  rw [segments_ofSegments_eq]
  cases path with
  | nil => simp
  | cons segment rest =>
    by_cases empty : segment = ""
    · -- The list has become shorter.
      have short := (List.dropWhile_sublist (l := rest) (· = "")).length_le
      rw [List.dropWhile_cons_of_pos (by simpa using empty)]
      constructor
      · intro same
        have lengths := congrArg List.length same
        simp only [List.length_map, List.length_cons] at lengths
        omega
      · intro opens
        exact absurd (congrArg some empty) opens.1
    · have each : (segment :: rest).map reread = segment :: rest ↔
          ∀ key ∈ segment :: rest, reread key = key := by
        simpa only [List.map_id, id] using List.map_inj_left (g := id)
      rw [List.dropWhile_cons_of_neg (by simpa using empty), each]
      simp only [reread_eq_iff, List.head?_cons, ne_eq, Option.some.injEq, empty, not_false_eq_true,
        true_and]

/-- The name is read from the last segment, whatever is in front of it. -/
theorem lastName_ofSegments (path : List String) (last : String) :
    lastName (ofSegments (path ++ [last])) = reread last := by
  rw [lastName, segments_ofSegments_eq, List.dropWhile_append]
  -- Where all before it is empty and dropped, an empty last segment goes too, and reads the same.
  split
  · by_cases empty : last = ""
    · subst empty
      rfl
    · rw [List.dropWhile_cons_of_neg (by simpa using empty)]
      rfl
  · simp

end Fragment

/-- Below the start the fragment of a place ends in its key, if it has one. -/
theorem Place.At.fragment_endsIn {fragment : String} {key : Option Node} {n : Node} {place : Place}
    (place_at : At fragment key n place) :
    (place.fragment = fragment ∧ place.key = key) ∨
      ∃ path last, place.fragment = fragment ++ Fragment.ofSegments (path ++ [last]) ∧
        ∀ k, place.key = some k → last = k.text := by
  have nothing : Fragment.ofSegments [] = "" := rfl
  induction place_at with
  | here fragment key n => exact .inl ⟨rfl, rfl⟩
  | @value fragment key info pairs k v place _ _ ih =>
    right
    -- The place is the value itself, or one below it whose fragment ends as it does from there.
    rcases ih with ⟨here, keyed⟩ | ⟨path, last, deeper, ends⟩
    · refine ⟨[], k.text, ?_, fun k' same => ?_⟩
      · simp only [here, List.nil_append, Fragment.ofSegments_cons, nothing, String.append_empty,
          String.append_assoc]
      · rw [Option.some.inj (keyed.symm.trans same)]
    · refine ⟨k.text :: path, last, ?_, ends⟩
      simp only [deeper, List.cons_append, Fragment.ofSegments_cons, String.append_assoc]
  | @item fragment key info items position n place _ _ ih =>
    right
    rcases ih with ⟨here, unkeyed⟩ | ⟨path, last, deeper, ends⟩
    · refine ⟨[], toString position, ?_, fun k' same => ?_⟩
      · simp only [here, List.nil_append, Fragment.ofSegments_cons, Fragment.escape_toString,
          nothing, String.append_empty, String.append_assoc]
      · rw [unkeyed] at same
        cases same
    · refine ⟨toString position :: path, last, ?_, ends⟩
      simp only [deeper, List.cons_append, Fragment.ofSegments_cons, Fragment.escape_toString,
        String.append_assoc]

/-- The name of a place under a key is what is read for the key. -/
theorem Catalog.name_eq_reread {location : Option String} {root : Node} {fragment : String}
    {r : Reference} (found : (ofDocument location root).places.get? fragment = some r) {key : Node}
    (keyed : r.key = some key) : r.name = Fragment.reread key.text := by
  obtain ⟨place, member, same⟩ := List.mem_map.mp (Table.mem_of_get?_ofList found)
  obtain ⟨rfl, rfl⟩ := Prod.mk.inj same
  have named : (Reference.ofPlace location place.fragment place.node place.key).name =
      lastName place.fragment := rfl
  have place_key : place.key = some key := keyed
  rcases (Place.at_of_mem_below _ member).fragment_endsIn with ⟨_, top⟩ | ⟨path, last, ends, only⟩
  · rw [top] at place_key
    cases place_key
  · rw [named, ends, String.empty_append, Fragment.lastName_ofSegments, only key place_key]

/-- A path is read back from its written form exactly if it does not begin with an empty segment and
none of its segments says something else when percent-encoding is taken off. The name of a place
under a key is the text of the key exactly if that is so for the key. -/
theorem Fragment.read_back_iff (path : List String) (config : Config) (location : Option String)
    (registry : Option Registry) (root : Node) :
    (segments (ofSegments path) = path ↔
      path.head? ≠ some "" ∧ ∀ segment ∈ path, ¬ Text.Decodes segment.toList) ∧
    ∀ (fragment : String) (r : Reference) (key : Node),
      (Index.build config location registry root).places.get? fragment = some r →
        r.key = some key → (r.name = key.text ↔ ¬ Text.Decodes key.text.toList) := by
  refine ⟨segments_ofSegments_iff, fun fragment r key found keyed => ?_⟩
  have places : (Index.build config location registry root).places =
      (Catalog.ofDocument location root).places := rfl
  rw [places] at found
  rw [Catalog.name_eq_reread found keyed, reread_eq_iff]

/-- Two keys with percent signs. -/
def signedKeys : Node := Build.runNew do
  Build.mapping [(← Build.string "%41", ← Build.string "one"),
    (← Build.string "%FF", ← Build.string "two")]

/-- The name of a place and the text of the key that it is under. -/
def Index.named? (ix : Index) (fragment : String) : Option (String × String) :=
  (ix.places.get? fragment).bind fun r => r.key.map fun key => (r.name, key.text)

/-- What begins with a byte that no character has is kept, and so are empty segments behind it. -/
theorem Fragment.read_back_iff_signed :
    segments (ofSegments ["%FF", "", "a/b~1"]) = ["%FF", "", "a/b~1"] ∧
      ∃ r key, (Index.build {} none none signedKeys).places.get? "/%FF" = some r ∧
        r.key = some key ∧ key.text = "%FF" ∧ r.name = key.text := by
  obtain ⟨path, names⟩ := read_back_iff ["%FF", "", "a/b~1"] {} none none signedKeys
  have kept (text : String) (same : Text.percentDecode text.toList = text.toList) :
      ¬ Text.Decodes text.toList := Text.percentDecode_eq_self_iff.mp same
  constructor
  · refine path.mpr ⟨by decide, fun segment member => kept segment ?_⟩
    simp only [List.mem_cons, List.not_mem_nil, or_false] at member
    rcases member with rfl | rfl | rfl <;> decide +kernel
  · have known : (Index.build {} none none signedKeys).named? "/%FF" = some ("%FF", "%FF") := by
      decide +kernel
    obtain ⟨r, found, rest⟩ := Option.bind_eq_some_iff.mp known
    obtain ⟨key, keyed, texts⟩ := Option.map_eq_some_iff.mp rest
    have text : key.text = "%FF" := congrArg Prod.snd texts
    refine ⟨r, key, found, keyed, text, ?_⟩
    exact (names "/%FF" r key found keyed).mpr
      (by rw [text]; exact kept "%FF" (by decide +kernel))

/-- The key `%41` is read back as another one, and the place under it has the name of that. -/
theorem Fragment.not_read_back :
    segments (ofSegments ["%41"]) ≠ ["%41"] ∧
      (Index.build {} none none signedKeys).named? "/%41" = some ("A", "%41") := by
  constructor <;> decide +kernel

end DocRefs
