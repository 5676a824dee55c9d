import DocRefs.Proofs.Location.Normal

/-!
# Documents of absolute pointers

The normal form of a file path is stable, and that of a URL is if its text is read back as it is
(`normalize_normalize`). An absolute pointer that is made in a document that opens names a document
(`document_absolutePointer_ne`).
-/
namespace DocRefs.Location

/-! ### Stable normal forms -/

theorem Url.head?_clean {text : String} (slash : text.toList.head? = some '/') :
    (clean text).head? = some '/' := by
  have keep (rest : List Char) :
      ∃ more, (('/' :: rest).reverse.dropWhile fun c => decide (c.toNat ≤ 0x20)).reverse =
        '/' :: more := by
    rw [List.reverse_cons, List.dropWhile_append]
    split
    · exact ⟨[], by decide⟩
    · exact ⟨_, by rw [List.reverse_append]; rfl⟩
  cases letters : text.toList with
  | nil => simp [letters] at slash
  | cons first rest =>
    obtain rfl : first = '/' := by simpa [letters] using slash
    obtain ⟨more, kept⟩ := keep rest
    simp only [clean, letters]
    rw [List.dropWhile_cons_of_neg (by decide), kept]
    simp

/-- What begins with a slash is a path and no URL. -/
theorem url?_eq_none {location : String} (slash : location.toList.head? = some '/') :
    url? location = none := by
  cases found : url? location with
  | none => rfl
  | some url =>
    obtain ⟨rest, scheme⟩ := Url.parse?_scheme (Option.filter_eq_some_iff.mp found).1
    have head := Url.head?_clean slash
    cases letters : Url.clean location with
    | nil => simp [letters] at head
    | cons first more =>
      obtain rfl : first = '/' := by simpa [letters] using head
      have plain : ('/').isAlpha = false := by decide
      simp [letters, Url.scheme?, plain] at scheme

theorem head?_normalizePath (path : String) : (normalizePath path).toList.head? = some '/' := by
  rw [normalizePath, String.toList_ofList]
  exact Path.head?_ofComponents _

theorem normalize_normalizePath (path : String) :
    normalize (normalizePath path) = normalizePath path := by
  simp only [normalize, url?_eq_none (head?_normalizePath path)]
  rw [normalizePath, normalizePath, String.toList_ofList, Path.normalize_normalize]

theorem normalize_normalize {location : String}
    (rewritten : ∀ url, url? location = some url → normalize url.text = url.text) :
    normalize (normalize location) = normalize location := by
  cases found : url? location with
  | some url =>
    have here : normalize location = url.text := by simp [normalize, found]
    rw [here, rewritten url found]
  | none =>
    have here : normalize location = normalizePath location := by simp [normalize, found]
    rw [here, normalize_normalizePath]

/-! ### Absolute pointers -/

theorem opens_resolveBeside (current : String) {document : String}
    (clear : '#' ∉ document.toList) (solid : document.isEmpty = false) :
    Opens (resolveBeside current document) := by
  unfold resolveBeside
  split
  next base found =>
    unfold joinUrl
    split
    next url joined =>
      exact Url.opens_text
        (Url.hash_not_mem_scheme_of_join? joined (hash_not_mem_scheme_of_url? found))
    · exact opens_of_hash_not_mem clear solid
  · exact ⟨'/', by rw [String.toList_ofList]; exact Path.head?_ofComponents _, by decide⟩

/-- In a document that opens, the absolute form of a text names a document. -/
theorem document_absolutePointer_ne {pointer current : String} (base : Option Url)
    (opens : Opens current) :
    (splitPointer (absolutePointer pointer (some current) base)).1 ≠ "" := by
  have clear := hash_not_mem_splitPointer pointer
  obtain ⟨document, named, opens⟩ : ∃ document,
      absoluteDocument? (splitPointer pointer).1 (some current) base = some document ∧
        Opens document := by
    unfold absoluteDocument?
    split
    · exact ⟨current, rfl, opens⟩
    next solid =>
      split
      · exact ⟨_, rfl, opens_normalize _⟩
      · exact ⟨_, rfl, opens_resolveBeside current clear (by simpa using solid)⟩
  simp only [absolutePointer, named]
  split
  · rw [String.append_assoc]
    exact (opens.append _).document_ne
  · exact opens.document_ne

end DocRefs.Location
