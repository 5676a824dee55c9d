import DocRefs.Proofs.Location.Absolute

/-!
# Settled pointers

A normal path is written from the root, and what stands between its slashes are names. Normal forms
of paths are normal, and a normal path is its own normal form (`isNormal_iff`). In a document with a
normal path every pointer that names no URL is settled once it is made absolute: making it absolute
again, in whatever document, changes nothing. Main result: `absolutePointer_settled`.
-/
namespace DocRefs.Location

namespace Path

theorem isAbsolute_iff {path : List Char} : isAbsolute path = true ↔ path.head? = some '/' := by
  simp [isAbsolute]

/-- The path is absolute, and what stands between its slashes are names. The root has none. -/
structure IsNormal (path : List Char) : Prop where
  absolute : isAbsolute path = true
  named : path = ['/'] ∨
    ∀ piece ∈ (split path).tail, piece ≠ [] ∧ piece ≠ ['.'] ∧ piece ≠ parentMark

theorem isNormal_ofComponents {parts : List (List Char)} (clean : Clean parts)
    (none_back : parentMark ∉ parts) : IsNormal (ofComponents parts) where
  absolute := isAbsolute_iff.mpr (head?_ofComponents parts)
  named := by
    cases parts with
    | nil => exact .inl rfl
    | cons first rest =>
      -- Nothing stands before the first slash.
      have pieces : split (ofComponents (first :: rest)) = [] :: first :: rest :=
        split_append_flatMap List.not_mem_nil clean
      rw [pieces, List.tail_cons]
      refine .inr fun piece member => ?_
      have solid := (clean piece member).1
      have other : piece ≠ [] ∧ piece ≠ ['.'] := by simpa [isVoid] using solid
      exact ⟨other.1, other.2, fun back => none_back (back ▸ member)⟩

theorem isNormal_ofComponents_fold {parts : List (List Char)} (clean : Clean parts) :
    IsNormal (ofComponents (fold parts)) :=
  isNormal_ofComponents clean.fold (parentMark_not_mem_fold parts)

theorem isNormal_normalize (path : List Char) : IsNormal (normalize path) :=
  isNormal_ofComponents_fold (clean_components path)

/-- The pieces of a text with slashes before them are the text with one more slash. -/
theorem flatMap_split (text : List Char) :
    ((split text).flatMap fun piece => '/' :: piece) = '/' :: text := by
  induction text with
  | nil => rfl
  | cons c rest ih =>
    by_cases slash : c = '/'
    · rw [split, Text.split_of_mark (by simpa using slash), List.flatMap_cons]
      exact congrArg (['/'] ++ ·) (by rw [slash]; exact ih)
    · obtain ⟨first, more, pieces⟩ :=
        List.exists_cons_of_ne_nil (Text.split_ne_nil (fun c => decide (c = '/')) rest)
      rw [split, pieces, List.flatMap_cons, List.cons_append] at ih
      rw [split, Text.split_of_not_mark (by simpa using slash), pieces, List.flatMap_cons]
      exact congrArg (['/', c] ++ ·) (List.cons.inj ih).2

theorem IsNormal.normalize_eq {path : List Char} (normal : IsNormal path) :
    normalize path = path := by
  obtain ⟨rest, rfl⟩ : ∃ rest, path = '/' :: rest :=
    List.head?_eq_some_iff.mp (isAbsolute_iff.mp normal.absolute)
  have pieces : split ('/' :: rest) = [] :: split rest := Text.split_of_mark rfl rest
  rcases normal.named with root | named
  · rw [root]
    decide
  · rw [pieces, List.tail_cons] at named
    have solid : (split rest).filter (fun piece => !isVoid piece) = split rest :=
      List.filter_eq_self.mpr fun piece member => by
        simp [isVoid, (named piece member).1, (named piece member).2.1]
    have parts : components ('/' :: rest) = split rest := by
      rw [components, pieces, List.filter_cons_of_neg (by simp [isVoid]), solid]
    have none_back : parentMark ∉ split rest := fun member => (named _ member).2.2 rfl
    -- No piece goes, so putting slashes before them gives the path back.
    rw [normalize, parts, fold_of_not_mem none_back, ← flatMap_split rest]
    cases whole : split rest with
    | nil => exact absurd whole (Text.split_ne_nil _ rest)
    | cons first more => rfl

/-- The normal paths are the absolute paths that are their own normal forms. -/
theorem isNormal_iff {path : List Char} :
    IsNormal path ↔ isAbsolute path = true ∧ normalize path = path := by
  constructor
  · exact fun normal => ⟨normal.absolute, normal.normalize_eq⟩
  · rintro ⟨_, same⟩
    rw [← same]
    exact isNormal_normalize path

/-! ### Characters of normal forms -/

theorem mem_of_mem_components {path part : List Char} {c : Char} (member : part ∈ components path)
    (there : c ∈ part) : c ∈ path :=
  Text.mem_of_mem_split (List.mem_filter.mp member).1 there

/-- A path has the characters of its components, and slashes. -/
theorem mem_of_mem_ofComponents {parts : List (List Char)} {c : Char}
    (member : c ∈ ofComponents parts) : c = '/' ∨ ∃ part ∈ parts, c ∈ part := by
  cases parts with
  | nil => exact .inl (by simpa [ofComponents] using member)
  | cons first rest =>
    obtain ⟨part, there, inside⟩ := List.mem_flatMap.mp member
    rcases List.mem_cons.mp inside with slash | own
    · exact .inl slash
    · exact .inr ⟨part, there, own⟩

/-- Nothing but slashes is put into a path that is made of the components of others. -/
theorem not_mem_ofComponents_fold {parts : List (List Char)} {c : Char} (other : c ≠ '/')
    (clear : ∀ part ∈ parts, c ∉ part) : c ∉ ofComponents (fold parts) := by
  intro member
  rcases mem_of_mem_ofComponents member with slash | ⟨part, there, inside⟩
  · exact other slash
  · exact clear part (mem_of_mem_fold there) inside

end Path

/-! ### Documents -/

/-- The document is located by a normal path, and no pointer would end in it. -/
structure IsSettled (document : String) : Prop where
  normal : Path.IsNormal document.toList
  clear : '#' ∉ document.toList

variable {document : String}

theorem IsSettled.head?_eq (settled : IsSettled document) : document.toList.head? = some '/' :=
  Path.isAbsolute_iff.mp settled.normal.absolute

theorem IsSettled.url?_eq (settled : IsSettled document) : url? document = none :=
  url?_eq_none settled.head?_eq

theorem isSettled_ofComponents_fold {parts : List (List Char)} (clean : Path.Clean parts)
    (clear : ∀ part ∈ parts, '#' ∉ part) :
    IsSettled (String.ofList (Path.ofComponents (Path.fold parts))) where
  normal := by
    rw [String.toList_ofList]
    exact Path.isNormal_ofComponents_fold clean
  clear := by
    rw [String.toList_ofList]
    exact Path.not_mem_ofComponents_fold (by decide) clear

theorem isSettled_normalizePath {path : String} (clear : '#' ∉ path.toList) :
    IsSettled (normalizePath path) :=
  isSettled_ofComponents_fold (Path.clean_components _) fun _ member inside =>
    clear (Path.mem_of_mem_components member inside)

theorem isSettled_resolveBeside {current : String} (settled : IsSettled current)
    (clear : '#' ∉ document.toList) : IsSettled (resolveBeside current document) := by
  simp only [resolveBeside, settled.url?_eq]
  -- A component is one of the directory or one of the path from there.
  refine isSettled_ofComponents_fold (fun part member => ?_) (fun part member inside => ?_)
  all_goals rcases List.mem_append.mp member with above | below
  · exact Path.clean_components _ part (List.dropLast_subset _ above)
  · exact Path.clean_components _ part below
  · exact settled.clear (Path.mem_of_mem_components (List.dropLast_subset _ above) inside)
  · exact clear (Path.mem_of_mem_components below inside)

/-- In a settled document, a document part that is no URL names a settled document. -/
theorem exists_absoluteDocument? {current : String} (settled : IsSettled current)
    (base : Option Url) (clear : '#' ∉ document.toList) (path : isUrl document = false) :
    ∃ named, absoluteDocument? document (some current) base = some named ∧ IsSettled named := by
  unfold absoluteDocument?
  split
  · exact ⟨current, rfl, settled⟩
  split
  -- With a URL ruled out, what is absolute is an absolute path.
  · have no_url : url? document = none := by simpa [isUrl] using path
    exact ⟨_, rfl, by simpa only [normalize, no_url] using isSettled_normalizePath clear⟩
  · exact ⟨_, rfl, isSettled_resolveBeside settled clear⟩

/-! ### Pointers -/

theorem absoluteDocument?_of_isSettled (settled : IsSettled document) (current : Option String)
    (base : Option Url) : absoluteDocument? document current base = some document := by
  have solid : document.isEmpty = false := by
    refine Bool.eq_false_iff.mpr fun empty => ?_
    have slash := settled.head?_eq
    simp [String.isEmpty_iff.mp empty] at slash
  have same : normalize document = document := by
    simp only [normalize, settled.url?_eq, normalizePath, settled.normal.normalize_eq,
      String.ofList_toList]
  simp [absoluteDocument?, solid, settled.normal.absolute, same]

/-- The parts of a pointer, put together again. -/
theorem join_splitPointer (pointer : String) :
    (if hasFragment pointer then
        (splitPointer pointer).1 ++ "#" ++ (splitPointer pointer).2
      else (splitPointer pointer).1) = pointer := by
  have whole := splitPointer_append pointer
  cases rest : pointer.toList.dropWhile (· ≠ '#') with
  | nil =>
    have clear : '#' ∉ pointer.toList := fun hash => by
      simpa using List.dropWhile_eq_nil_iff.mp rest '#' hash
    rw [if_neg (by simpa [hasFragment] using clear), splitPointer_of_not_mem clear]
  | cons c fragment =>
    have sign := List.head?_dropWhile_not (· ≠ '#') pointer.toList
    rw [rest] at sign
    obtain rfl : c = '#' := by simpa using sign
    rw [rest] at whole
    have hash : '#' ∈ pointer.toList := by simp [← whole]
    have second : (splitPointer pointer).2.toList = fragment := by
      simp only [splitPointer, rest, List.drop_one, List.tail_cons, String.toList_ofList]
    rw [if_pos (by simpa [hasFragment] using hash), ← String.toList_inj, String.toList_append,
      String.toList_append, second]
    simpa using whole

/-- A pointer to a settled document is absolute wherever it is read. -/
theorem absolutePointer_of_isSettled {pointer : String}
    (settled : IsSettled (splitPointer pointer).1) (current : Option String) (base : Option Url) :
    absolutePointer pointer current base = pointer := by
  simp only [absolutePointer, absoluteDocument?_of_isSettled settled]
  exact join_splitPointer pointer

/-- In a document with a normal path without hash signs, a pointer whose document part is no URL is
made absolute. It keeps its hash sign, if it has one, and its fragment; its document part is a
normal path; and making it absolute again, in any document or none and with any base URL or none,
changes nothing. -/
theorem absolutePointer_settled (pointer current : String) (base : Option Url)
    (absolute : Path.isAbsolute current.toList = true) (same : normalize current = current)
    (clear : '#' ∉ current.toList) (path : isUrl (splitPointer pointer).1 = false) :
    let made := absolutePointer pointer (some current) base
    hasFragment made = hasFragment pointer ∧
      (splitPointer made).2 = (splitPointer pointer).2 ∧
      Path.IsNormal (splitPointer made).1.toList ∧
      ∀ other again, absolutePointer made other again = made := by
  intro made
  have settled : IsSettled current := by
    have fixed : Path.normalize current.toList = current.toList := by
      rw [normalize, url?_eq_none (Path.isAbsolute_iff.mp absolute)] at same
      simpa [normalizePath] using congrArg String.toList same
    exact ⟨Path.isNormal_iff.mpr ⟨absolute, fixed⟩, clear⟩
  obtain ⟨document, named, document_settled⟩ :=
    exists_absoluteDocument? settled base (hash_not_mem_splitPointer pointer) path
  have made_eq : made = if hasFragment pointer then document ++ "#" ++ (splitPointer pointer).2
      else document := by
    simp only [made, absolutePointer, named]
  -- The document part ends where it was put in front of the hash sign.
  have parts : splitPointer made = (document, (splitPointer pointer).2) ∧
      hasFragment made = hasFragment pointer := by
    rw [made_eq]
    cases there : hasFragment pointer with
    | true =>
      rw [if_pos rfl]
      exact ⟨splitPointer_hash document_settled.clear _, by simp [hasFragment]⟩
    | false =>
      have none_there : '#' ∉ pointer.toList := by simpa [hasFragment] using there
      rw [if_neg Bool.false_ne_true, splitPointer_of_not_mem none_there]
      exact ⟨splitPointer_of_not_mem document_settled.clear,
        by simpa [hasFragment] using document_settled.clear⟩
  refine ⟨parts.2, by rw [parts.1], by rw [parts.1]; exact document_settled.normal, ?_⟩
  exact absolutePointer_of_isSettled (by rw [parts.1]; exact document_settled)

/-- A relative path with detours, which leads above the directory of the document. -/
theorem absolutePointer_settled_detour :
    absolutePointer "../x//../b/./c.yaml#/d#e" (some "/api/a.yaml") none = "/b/c.yaml#/d#e" ∧
      Path.IsNormal "/b/c.yaml".toList ∧
      ∀ other again, absolutePointer "/b/c.yaml#/d#e" other again = "/b/c.yaml#/d#e" := by
  have made : absolutePointer "../x//../b/./c.yaml#/d#e" (some "/api/a.yaml") none =
      "/b/c.yaml#/d#e" := by decide +kernel
  have document : (splitPointer "/b/c.yaml#/d#e").1 = "/b/c.yaml" := by decide +kernel
  obtain ⟨_, _, normal, stays⟩ := absolutePointer_settled "../x//../b/./c.yaml#/d#e" "/api/a.yaml"
    none (by decide +kernel) (by decide +kernel) (by decide +kernel) (by decide +kernel)
  rw [made] at normal stays
  exact ⟨made, document ▸ normal, stays⟩

end DocRefs.Location
