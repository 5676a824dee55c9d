import DocRefs.Fragment
import DocRefs.Proofs.Number.Integer

/-!
# Written paths

A path is read back from its written form (`segments_ofSegments`), unless a segment is empty or has
a percent sign: the slash before an empty one does not count, and percent-encoding is taken off. An
index is read back from its digits as long as it fits (`itemAt?_toString`).
-/
namespace DocRefs

namespace Fragment

/-! ### Segments -/

theorem escapeChars_cons (c : Char) (rest : List Char) :
    escapeChars (c :: rest) =
      (if c = '~' then ['~', '0'] else if c = '/' then ['~', '1'] else [c]) ++
        escapeChars rest := by
  split
  next same => subst same; rfl
  next no_tilde =>
    split
    next same => subst same; rfl
    next no_slash => rw [escapeChars] <;> simp_all

theorem unescapeTilde_cons {first : Char} (other : first ≠ '~') (code c : Char)
    (rest : List Char) :
    unescapeTilde code c (first :: rest) = first :: unescapeTilde code c rest := by
  rw [unescapeTilde]
  rintro _ _ rfl
  exact absurd rfl other

theorem unescapeTilde_tilde (code c next : Char) (rest : List Char) :
    unescapeTilde code c ('~' :: next :: rest) =
      if next = code then c :: unescapeTilde code c rest
      else '~' :: unescapeTilde code c (next :: rest) := by
  rw [unescapeTilde]

/-- With the slashes back in place only tildes are escaped. -/
theorem unescapeTilde_escapeChars (key : List Char) :
    unescapeTilde '1' '/' (escapeChars key) =
      key.flatMap fun c => if c = '~' then ['~', '0'] else [c] := by
  induction key with
  | nil => rfl
  | cons c rest ih =>
    rw [escapeChars_cons, List.flatMap_cons, ← ih]
    by_cases tilde : c = '~'
    · subst tilde
      simp [unescapeTilde_tilde, unescapeTilde_cons]
    · by_cases slash : c = '/'
      · subst slash
        simp [unescapeTilde_tilde]
      · simp [tilde, slash, unescapeTilde_cons]

theorem unescapeTilde_flatMap (key : List Char) :
    unescapeTilde '0' '~' (key.flatMap fun c => if c = '~' then ['~', '0'] else [c]) = key := by
  induction key with
  | nil => rfl
  | cons c rest ih =>
    rw [List.flatMap_cons]
    by_cases tilde : c = '~'
    · subst tilde
      simpa [unescapeTilde_tilde] using ih
    · simpa [tilde, unescapeTilde_cons] using ih

theorem mem_escapeChars {c : Char} {key : List Char} (member : c ∈ escapeChars key) :
    c ≠ '/' ∧ (c ∈ key ∨ c = '~' ∨ c = '0' ∨ c = '1') := by
  induction key with
  | nil => simp [escapeChars] at member
  | cons d rest ih =>
    rw [escapeChars_cons] at member
    rcases List.mem_append.mp member with first | later
    · split at first
      · obtain rfl | rfl : c = '~' ∨ c = '0' := by simpa using first
        all_goals simp
      · split at first
        · obtain rfl | rfl : c = '~' ∨ c = '1' := by simpa using first
          all_goals simp
        · obtain rfl := List.mem_singleton.mp first
          exact ⟨by assumption, by simp⟩
    · exact (ih later).imp_right fun where_from => where_from.imp_left (List.mem_cons_of_mem d)

theorem escapeChars_ne_nil {key : String} (written : key ≠ "") : escapeChars key.toList ≠ [] := by
  cases letters : key.toList with
  | nil => exact absurd (String.toList_eq_nil_iff.mp letters) written
  | cons c rest =>
    rw [escapeChars_cons]
    split
    · simp
    · split <;> simp

theorem escapeChars_of_digits {key : List Char} (digit : ∀ c ∈ key, c.isDigit = true) :
    escapeChars key = key := by
  induction key with
  | nil => rfl
  | cons c rest ih =>
    obtain ⟨here, later⟩ := List.forall_mem_cons.mp digit
    have no_tilde : c ≠ '~' := by
      rintro rfl
      exact absurd here (by decide)
    have no_slash : c ≠ '/' := by
      rintro rfl
      exact absurd here (by decide)
    rw [escapeChars_cons, if_neg no_tilde, if_neg no_slash, ih later]
    rfl

/-- A segment that is read back from its written form. -/
structure Readable (segment : String) : Prop where
  written : segment ≠ ""
  plain : '%' ∉ segment.toList

theorem escapeChars_injective : Function.Injective escapeChars := by
  intro key other same
  have back := unescapeTilde_flatMap key
  rwa [← unescapeTilde_escapeChars, same, unescapeTilde_escapeChars,
    unescapeTilde_flatMap, eq_comm] at back

theorem unescapeChars_escapeChars {key : List Char} (plain : '%' ∉ key) :
    unescapeChars (escapeChars key) = key := by
  have undisturbed : '%' ∉ escapeChars key := by
    intro member
    rcases (mem_escapeChars member).2 with there | no | no | no
    · exact plain there
    all_goals exact absurd no (by decide)
  rw [unescapeChars, Text.percentDecode_of_not_mem undisturbed, unescapeTilde_escapeChars,
    unescapeTilde_flatMap]

/-! ### Paths -/

theorem toList_ofSegments (path : List String) :
    (ofSegments path).toList = path.flatMap fun segment => '/' :: escapeChars segment.toList := by
  induction path with
  | nil => rfl
  | cons segment rest ih =>
    rw [List.flatMap_cons, ← ih]
    simp [ofSegments, escape, String.join_cons]

theorem ofSegments_cons (segment : String) (rest : List String) :
    ofSegments (segment :: rest) = "/" ++ escape segment ++ ofSegments rest := by
  simp [ofSegments, String.join_cons]

/-- The pieces of a written path behind its first slash. -/
theorem split_ofSegments (segment : String) (rest : List String) :
    Text.split (· = '/') (escapeChars segment.toList ++ (ofSegments rest).toList) =
      (segment :: rest).map fun segment => escapeChars segment.toList := by
  have solid (key : List Char) : ∀ c ∈ escapeChars key, decide (c = '/') = false :=
    fun c member => by simpa using (mem_escapeChars member).1
  induction rest generalizing segment with
  | nil => simpa [toList_ofSegments] using Text.split_of_forall_not_mark (solid segment.toList)
  | cons next rest ih =>
    rw [toList_ofSegments, List.flatMap_cons, ← toList_ofSegments, List.cons_append,
      Text.split_append_mark (solid segment.toList) (by simp), ih next]
    rfl

/-- Different paths are written differently, whether they can be read back or not. -/
theorem ofSegments_injective : Function.Injective ofSegments := by
  intro path other same
  have letters := congrArg String.toList same
  rw [toList_ofSegments, toList_ofSegments] at letters
  cases path with
  | nil =>
    cases other with
    | nil => rfl
    | cons segment rest => simp at letters
  | cons segment rest =>
    cases other with
    | nil => simp at letters
    | cons segment' rest' =>
      -- Behind the first slash the two are cut into the same pieces.
      rw [List.flatMap_cons, List.flatMap_cons, ← toList_ofSegments, ← toList_ofSegments,
        List.cons_append, List.cons_append] at letters
      have pieces := congrArg (Text.split (· = '/')) (List.cons.inj letters).2
      rw [split_ofSegments, split_ofSegments] at pieces
      refine (List.map_inj_right fun key key' equal => ?_).mp pieces
      exact String.toList_injective (escapeChars_injective equal)

/-- What is read for a segment that was written for a key. -/
def reread (key : String) : String := String.ofList (unescapeChars (escapeChars key.toList))

/-- Empty segments at the front are lost, and the others are read one by one. -/
theorem segments_ofSegments_eq (path : List String) :
    segments (ofSegments path) = (path.dropWhile (· = "")).map reread := by
  have hashless : (ofSegments path).toList.dropWhile (· = '#') = (ofSegments path).toList := by
    cases path with
    | nil => rfl
    | cons segment rest =>
      rw [toList_ofSegments, List.flatMap_cons]
      exact List.dropWhile_cons_of_neg (by decide)
  rw [segments, hashless]
  clear hashless
  induction path with
  | nil => rfl
  | cons segment rest ih =>
    rw [toList_ofSegments, List.flatMap_cons, ← toList_ofSegments, List.cons_append,
      List.dropWhile_cons_of_pos (by decide)]
    by_cases empty : segment = ""
    · rw [List.dropWhile_cons_of_pos (by simpa using empty), empty]
      exact ih
    · -- A segment that is not empty begins with something else than a slash.
      obtain ⟨first, more, key⟩ := List.exists_cons_of_ne_nil (escapeChars_ne_nil empty)
      have solid : first ≠ '/' := (mem_escapeChars (by rw [key]; exact List.mem_cons_self)).1
      have pieces := split_ofSegments segment rest
      rw [List.dropWhile_cons_of_neg (by simpa using empty)]
      rw [key] at pieces ⊢
      simp only [List.cons_append] at pieces ⊢
      rw [List.dropWhile_cons_of_neg (by simpa using solid)]
      dsimp only
      rw [pieces, List.map_map]
      rfl

theorem segments_ofSegments {path : List String} (readable : ∀ segment ∈ path, Readable segment) :
    segments (ofSegments path) = path := by
  have solid : path.dropWhile (· = "") = path := by
    cases path with
    | nil => rfl
    | cons segment rest =>
      exact List.dropWhile_cons_of_neg (by simpa using (readable segment (by simp)).written)
  rw [segments_ofSegments_eq, solid]
  refine (List.map_congr_left fun segment member => ?_).trans (List.map_id _)
  rw [reread, unescapeChars_escapeChars (readable segment member).plain, String.ofList_toList]
  rfl

end Fragment

/-! ### Indices -/

theorem Fragment.readable_toString (n : Nat) : Readable (toString n) where
  written empty := by
    have letters := toList_toString n
    rw [empty] at letters
    exact Nat.toDigits_ne_nil letters.symm
  plain member := absurd (isDigit_of_mem_toString member) (by decide)

theorem Fragment.escape_toString (n : Nat) : escape (toString n) = toString n := by
  rw [escape, escapeChars_of_digits fun c => isDigit_of_mem_toString, String.ofList_toList]

theorem Node.itemAt?_toString {items : List Node} {position : Nat} (fits : position < 2 ^ 64) :
    itemAt? items (toString position) = items[position]? := by
  have inside : IntegerRange.nat64.Contains (position : Int) := by
    have greatest : IntegerRange.nat64.greatest = 2 ^ 64 - 1 := by decide
    have least : IntegerRange.nat64.least = 0 := rfl
    constructor <;> omega
  have letters : toString (position : Int) = toString position := rfl
  rw [itemAt?, ← letters, IntegerRange.read_toString (by decide) inside]
  rfl

end DocRefs
