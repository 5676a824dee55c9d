import DocRefs.Location.Pointer
import DocRefs.Proofs.Location.Path
import Mathlib.Data.List.TakeWhile

/-!
# Normal forms of locations

A normal form begins with a slash or with the letter of a scheme: it opens, which is to say that it
begins with something else than a hash sign (`opens_normalize`). So no part of it before a hash sign
is empty, and a pointer that is put together from a document and a fragment splits into them again.
-/
namespace DocRefs.Location

/-! ### Schemes -/

namespace Url

theorem withAuthority?_scheme {scheme : String} {text : List Char} {url : Url}
    (read : withAuthority? scheme text = some url) : url.scheme = scheme := by
  simp only [withAuthority?, Option.bind_eq_bind, Option.pure_def, Option.ite_none_left_eq_some]
    at read
  obtain ⟨_, read⟩ := read
  split at read <;> split at read <;>
  · obtain ⟨host, _, read⟩ := Option.bind_eq_some_iff.mp read
    obtain ⟨port, _, same⟩ := Option.bind_eq_some_iff.mp read
    rw [← Option.some.inj same]

theorem fileAuthority?_scheme {text : List Char} {url : Url}
    (read : fileAuthority? text = some url) : url.scheme = "file" := by
  unfold fileAuthority? at read
  dsimp only [Option.pure_def] at read
  split at read
  · rw [← Option.some.inj read]
  split at read
  · rw [← Option.some.inj read]
  obtain ⟨_, _, same⟩ := Option.bind_eq_some_iff.mp read
  rw [← Option.some.inj same]

theorem fileBody?_scheme {base : Option Url} {tail : Tail} {url : Url}
    (read : fileBody? base tail = some url) :
    url.scheme = "file" ∨ ∃ other, base = some other ∧ url.scheme = other.scheme := by
  unfold fileBody? at read
  dsimp only [fileBody?.fromRoot, fileBody?.relative, fileBody?.file] at read
  split at read
  · split at read
    · exact .inl (fileAuthority?_scheme read)
    split at read <;> exact .inl (by rw [← Option.some.inj read])
  · split at read <;> exact .inl (by rw [← Option.some.inj read])
  · split at read
    next other => exact .inr ⟨other, rfl, by rw [← Option.some.inj read]⟩
    · exact .inl (by rw [← Option.some.inj read])

theorem relativeBody?_scheme {base : Url} {tail : Tail} {url : Url}
    (read : relativeBody? base tail = some url) : url.scheme = base.scheme := by
  unfold relativeBody? at read
  dsimp only at read
  split at read
  · rw [← Option.some.inj read]
  split at read
  · split at read
    · split at read
      · exact withAuthority?_scheme read
      · rw [← Option.some.inj read]
    · rw [← Option.some.inj read]
  · rw [← Option.some.inj read]

theorem absoluteBody?_scheme {base : Option Url} {scheme : String} {tail : Tail} {url : Url}
    (read : absoluteBody? base scheme tail = some url) : url.scheme = scheme := by
  have same {other : Url} (kept : base.filter (fun base => base.scheme == scheme) = some other) :
      other.scheme = scheme := eq_of_beq (Option.filter_eq_some_iff.mp kept).2
  unfold absoluteBody? at read
  dsimp only at read
  split at read
  next file =>
    rcases fileBody?_scheme read with named | ⟨other, kept, named⟩
    · rw [named, eq_of_beq file]
    · rw [named, same kept]
  split at read
  · split at read
    next other kept =>
      split at read
      · rw [relativeBody?_scheme read, same kept]
      · exact withAuthority?_scheme read
    · exact withAuthority?_scheme read
  split at read
  · exact withAuthority?_scheme read
  · rw [← Option.some.inj read]
  · rw [← Option.some.inj read]

/-- The scheme of a reference is its own, or that of the base. -/
theorem read?_scheme {base : Option Url} {text : String} {url : Url}
    (read : read? base text = some url) :
    (∃ rest, scheme? (clean text) = some (url.scheme, rest)) ∨
      ∃ other, base = some other ∧ url.scheme = other.scheme := by
  simp only [read?, Option.bind_eq_bind] at read
  split at read
  next scheme rest found =>
    obtain ⟨⟨tail, body⟩, known, same⟩ := Option.bind_eq_some_iff.mp read
    obtain ⟨inner, there, pair⟩ := Option.map_eq_some_iff.mp known
    obtain ⟨rfl, rfl⟩ := Prod.mk.inj pair
    rw [← Option.some.inj same]
    exact .inl ⟨rest, by rw [found, absoluteBody?_scheme there]⟩
  · obtain ⟨other, given, joined⟩ := Option.bind_eq_some_iff.mp read
    refine .inr ⟨other, given, ?_⟩
    split at joined
    · split at joined
      · rw [← Option.some.inj joined]
      · simp at joined
    · split at joined
      next file =>
        obtain ⟨body, there, same⟩ := Option.bind_eq_some_iff.mp joined
        rw [← Option.some.inj same]
        rcases fileBody?_scheme there with named | ⟨_, kept, named⟩
        · rw [named, eq_of_beq file]
        · rw [named, Option.some.inj kept]
      · obtain ⟨body, there, same⟩ := Option.bind_eq_some_iff.mp joined
        have named := relativeBody?_scheme there
        rw [← Option.some.inj same, ← named]

theorem parse?_scheme {text : String} {url : Url} (read : parse? text = some url) :
    ∃ rest, scheme? (clean text) = some (url.scheme, rest) := by
  rcases read?_scheme read with own | ⟨_, absent, _⟩
  · exact own
  · simp at absent

theorem eq_hash_of_toLower {c : Char} (lower : c.toLower = '#') : c = '#' := by
  unfold Char.toLower at lower
  split at lower
  next upper =>
    have value := congrArg UInt32.toNat (congrArg Char.val lower)
    simp [UInt32.le_iff_toNat_le] at upper value
    omega
  · exact lower

theorem hash_not_mem_scheme? {text : List Char} {scheme : String} {rest : List Char}
    (found : scheme? text = some (scheme, rest)) : '#' ∉ scheme.toList := by
  unfold scheme? at found
  split at found
  · dsimp only at found
    split at found
    · rw [← (Prod.mk.inj (Option.some.inj found)).1, String.toList_ofList]
      intro member
      obtain ⟨c, there, lower⟩ := List.mem_map.mp member
      have part := List.all_eq_true.mp List.all_takeWhile c there
      rw [eq_hash_of_toLower lower] at part
      exact absurd part (by decide)
    · simp at found
  · simp at found

theorem hash_not_mem_scheme {text : String} {url : Url} (read : parse? text = some url) :
    '#' ∉ url.scheme.toList := by
  obtain ⟨rest, found⟩ := parse?_scheme read
  exact hash_not_mem_scheme? found

theorem hash_not_mem_scheme_of_join? {base : Url} {text : String} {url : Url}
    (read : join? base text = some url) (clear : '#' ∉ base.scheme.toList) :
    '#' ∉ url.scheme.toList := by
  rcases read?_scheme read with ⟨rest, found⟩ | ⟨other, same, named⟩
  · exact hash_not_mem_scheme? found
  · rw [named, ← Option.some.inj same]
    exact clear

end Url

/-! ### Texts that open -/

/-- The text begins with something else than a hash sign. -/
def Opens (text : String) : Prop := ∃ first, text.toList.head? = some first ∧ first ≠ '#'

theorem Opens.append {text : String} (opens : Opens text) (rest : String) :
    Opens (text ++ rest) := by
  obtain ⟨first, head, other⟩ := opens
  exact ⟨first, by simp [List.head?_append, head], other⟩

theorem Opens.document_ne {pointer : String} (opens : Opens pointer) :
    (splitPointer pointer).1 ≠ "" := by
  obtain ⟨first, head, other⟩ := opens
  cases letters : pointer.toList with
  | nil => simp [letters] at head
  | cons c rest =>
    obtain rfl : c = first := by simpa [letters] using head
    simp [splitPointer, letters, other]

theorem opens_of_hash_not_mem {text : String} (clear : '#' ∉ text.toList)
    (solid : text.isEmpty = false) : Opens text := by
  cases letters : text.toList with
  | nil => simp_all
  | cons first rest =>
    exact ⟨first, by simp [letters], fun same => clear (by simp [letters, same])⟩

theorem Url.opens_text {url : Url} (clear : '#' ∉ url.scheme.toList) : Opens url.text := by
  cases letters : url.scheme.toList with
  | nil => exact ⟨':', by simp [text, letters], by decide⟩
  | cons first rest =>
    exact ⟨first, by simp [text, letters], fun same => clear (by simp [letters, same])⟩

/-! ### Normal forms -/

theorem hash_not_mem_scheme_of_url? {location : String} {url : Url}
    (found : url? location = some url) : '#' ∉ url.scheme.toList :=
  Url.hash_not_mem_scheme (Option.filter_eq_some_iff.mp found).1

theorem opens_normalize (location : String) : Opens (normalize location) := by
  unfold normalize
  split
  next url found => exact Url.opens_text (hash_not_mem_scheme_of_url? found)
  · exact ⟨'/', by rw [normalizePath, String.toList_ofList]; exact Path.head?_ofComponents _,
      by decide⟩

theorem head?_normalize (location : String) :
    (normalize location).toList.head? ≠ some '#' := by
  obtain ⟨first, head, other⟩ := opens_normalize location
  simp [head, other]

/-! ### Putting pointers together -/

theorem splitPointer_hash {document : String} (clear : '#' ∉ document.toList)
    (fragment : String) : splitPointer (document ++ "#" ++ fragment) = (document, fragment) := by
  have plain : ∀ c ∈ document.toList, decide (c ≠ '#') = true := fun c member => by
    simpa using ne_of_mem_of_not_mem member clear
  have letters : (document ++ "#" ++ fragment).toList =
      document.toList ++ '#' :: fragment.toList := by simp
  rw [splitPointer, letters, List.takeWhile_append_of_pos plain,
    List.dropWhile_append_of_pos plain]
  simp

theorem hash_not_mem_splitPointer (pointer : String) :
    '#' ∉ (splitPointer pointer).1.toList := by
  intro member
  rw [splitPointer, String.toList_ofList] at member
  have part := List.all_eq_true.mp List.all_takeWhile _ member
  simp at part

theorem splitPointer_of_not_mem {pointer : String} (clear : '#' ∉ pointer.toList) :
    splitPointer pointer = (pointer, "") := by
  have plain : ∀ c ∈ pointer.toList, decide (c ≠ '#') = true := fun c member => by
    simpa using ne_of_mem_of_not_mem member clear
  rw [splitPointer, List.takeWhile_eq_self_iff.mpr plain, List.dropWhile_eq_nil_iff.mpr plain,
    String.ofList_toList]
  rfl

/-- A pointer without document part is made absolute in the document that it is written in. -/
theorem splitPointer_absolutePointer {pointer : String} (own : (splitPointer pointer).1 = "")
    {current : Option String} (clear : ∀ path, current = some path → '#' ∉ path.toList)
    (base : Option Url) :
    splitPointer (absolutePointer pointer current base) =
      (current.getD "", (splitPointer pointer).2) := by
  have named : absoluteDocument? (splitPointer pointer).1 current base = current := by
    simp [absoluteDocument?, own]
  cases current with
  | none =>
    simp only [absolutePointer, named]
    exact Prod.ext own rfl
  | some path =>
    have hash := clear path rfl
    simp only [absolutePointer, named]
    cases there : hasFragment pointer with
    | true => exact splitPointer_hash hash _
    | false =>
      have none_there : '#' ∉ pointer.toList := by simpa [hasFragment] using there
      rw [splitPointer_of_not_mem none_there]
      exact splitPointer_of_not_mem hash

/-- What stands before a hash sign in a location that does not begin with one is not empty. -/
theorem splitPointer_ne_empty {location : String} (head : location.toList.head? ≠ some '#')
    (hash : '#' ∈ location.toList) (rest : String) :
    (splitPointer (location ++ rest)).1 ≠ "" := by
  cases letters : location.toList with
  | nil => simp [letters] at hash
  | cons first more =>
    have other : first ≠ '#' := by simpa [letters] using head
    simp [splitPointer, letters, other]

end DocRefs.Location
