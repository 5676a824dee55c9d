import DocRefs.Proofs.Index.Finding
import DocRefs.Proofs.Location.Normal
import DocRefs.Resolve

/-!
# What an index lists

A pointer into the document itself is looked for in the tables of the categories and then among the
places. Main result: `listed?_build`. Whatever a category has for such a pointer is the place that
the pointer names, so the categories add nothing to the places.
-/
namespace DocRefs.Index

/-- What the categories, or else the places, have for a pointer into the document. -/
def listed? (ix : Index) (pointer : String) : Option Reference :=
  (ix.findInCategories? pointer).or (ix.places.get? (Location.splitPointer pointer).2)

section Answers

variable {ix : Index} {pointer : String} (registry : Registry) (context : Context)

theorem answer?_of_local (inside : ix.isLocal (Location.splitPointer pointer).1 = true) :
    ix.answer? registry pointer context =
      ((ix.mapped.get? pointer).or (ix.listed? pointer)).map (⟨·, none, context⟩) := by
  unfold answer? listed? resolve?
  simp only [inside, if_true, ← Option.or_assoc]
  cases (ix.mapped.get? pointer).or (ix.findInCategories? pointer) <;> rfl

theorem answer?_of_not_local (outside : ix.isLocal (Location.splitPointer pointer).1 = false) :
    ix.answer? registry pointer context = ix.findElsewhere? registry pointer := by
  simp [answer?, resolve?, outside]

end Answers

/-! ### Categories -/

theorem get?_categoryTable? {catalog : Catalog} {category : LookupCategory} {pointer : String}
    {table : Table Reference} {r : Reference} (known : categoryTable? catalog category = some table)
    (found : table.get? pointer = some r) :
    ∃ fragment, catalog.places.get? fragment = some r ∧ r.definition = pointer := by
  simp only [categoryTable?, Option.bind_eq_bind, Option.bind_eq_some_iff, Option.pure_def,
    Option.some.injEq] at known
  obtain ⟨holder, _, rfl⟩ := known
  obtain ⟨⟨key, _⟩, _, entry⟩ := List.mem_filterMap.mp (Table.mem_of_get?_ofList found)
  obtain ⟨other, there, same⟩ := Option.bind_eq_some_iff.mp entry
  obtain ⟨rfl, rfl⟩ := Prod.mk.inj (Option.some.inj same)
  exact ⟨_, there, rfl⟩

section Build

variable {config : Config} {given : Option String} {registry : Option Registry} {root : Node}
  {pointer : String}

/-- A pointer to a place of the document that leads into the document leads to that place. -/
theorem fragment_pointerTo {fragment : String}
    (inside : (Catalog.ofDocument (given.map Location.normalize) root).isLocal
      (Location.splitPointer (pointerTo (given.map Location.normalize) fragment)).1 = true) :
    (Location.splitPointer (pointerTo (given.map Location.normalize) fragment)).2 = fragment := by
  have place : (Catalog.ofDocument (given.map Location.normalize) root).location =
      given.map Location.normalize := rfl
  unfold pointerTo at *
  cases path : given with
  | none =>
    have clear : '#' ∉ "".toList := by simp
    simp only [Option.map_none, Option.getD_none, Location.splitPointer_hash clear]
  | some path' =>
    simp only [path, Option.map_some, Option.getD_some] at inside place ⊢
    by_cases hash : '#' ∈ (Location.normalize path').toList
    · rw [String.append_assoc] at inside ⊢
      -- Such a document part is neither empty nor the whole location, so the pointer leads away.
      have some_document := Location.splitPointer_ne_empty (Location.head?_normalize path') hash
        ("#" ++ fragment)
      have clear := Location.hash_not_mem_splitPointer
        (Location.normalize path' ++ ("#" ++ fragment))
      have same : Location.normalize path' = (Location.splitPointer
          (Location.normalize path' ++ ("#" ++ fragment))).1 := by
        simpa [Catalog.isLocal, place, some_document] using inside
      rw [← same] at clear
      exact absurd hash clear
    · rw [Location.splitPointer_hash hash]

/-- What a category has for a pointer is the place that the pointer names. -/
theorem place_of_findInCategories? {r : Reference}
    (inside : (build config (given.map Location.normalize) registry root).isLocal
      (Location.splitPointer pointer).1 = true)
    (found : (build config (given.map Location.normalize) registry root).findInCategories?
      pointer = some r) :
    (build config (given.map Location.normalize) registry root).places.get?
      (Location.splitPointer pointer).2 = some r := by
  obtain ⟨category, _, there⟩ := List.exists_of_findSome?_eq_some found
  obtain ⟨table, listed, entry⟩ := Option.bind_eq_some_iff.mp there
  obtain ⟨other, _, same⟩ := List.mem_filterMap.mp (Table.mem_of_get?_ofList listed)
  obtain ⟨table', known, pair⟩ := Option.map_eq_some_iff.mp same
  obtain ⟨_, rfl⟩ := Prod.mk.inj pair
  obtain ⟨fragment, place, definition⟩ := get?_categoryTable? known entry
  obtain ⟨node, key, rfl⟩ := ofPlace_of_get? place
  rw [← definition] at inside ⊢
  have same := fragment_pointerTo inside
  rw [Reference.ofPlace, same]
  exact place

theorem listed?_build
    (inside : (build config (given.map Location.normalize) registry root).isLocal
      (Location.splitPointer pointer).1 = true) :
    (build config (given.map Location.normalize) registry root).listed? pointer =
      (build config (given.map Location.normalize) registry root).places.get?
        (Location.splitPointer pointer).2 := by
  unfold listed?
  cases found : (build config (given.map Location.normalize) registry root).findInCategories?
      pointer with
  | none => exact Option.none_or
  | some r => rw [Option.some_or, place_of_findInCategories? inside found]

end Build

end DocRefs.Index
