import DocRefs.Proofs.Index.Registered
import DocRefs.Proofs.Location.Absolute

/-!
# Registries as maps

Documents are added to a registry one after another, as trees or as texts, and some additions fail.
Main result: `answers_by_normal_form`. The registry answers like a map from the normal forms of
locations to the indexes that were added last. One addition changes the map at one normal form or
not at all (`Addition.get?_leave`); a look-up, which tries the text as it is first, is one in the
map, since normal forms are their own normal forms (`Registry.Stable.indexAt?_eq`).
-/
namespace DocRefs

/-! ### Additions -/

/-- What a document is made from. -/
inductive DocumentSource where
  | tree (root : Node)
  /-- A text that is read when `free` is the next identity. -/
  | text (text : String) (free : NodeId)

/-- A document that is to be added at a location. -/
structure Addition where
  location : String
  source : DocumentSource

namespace Addition

/-- The root of the document, or why there is none. -/
def root (a : Addition) : Except RefError Node :=
  match a.source with
  | .tree root => .ok root
  | .text text free => ((Node.parseNamed a.location text).run free).1

/-- The registry with the document and the document's index, or why it is not added. -/
def outcome (a : Addition) (r : Registry) : Except RefError (Registry × Index) :=
  match a.source with
  | .tree root => r.addDocument a.location root
  | .text text free => ((r.addSource a.location text).run free).1

/-- The registry that an addition leaves. -/
def leave (a : Addition) (r : Registry) : Registry :=
  match a.outcome r with
  | .ok (next, _) => next
  | .error _ => r

theorem outcome_eq (a : Addition) (r : Registry) :
    a.outcome r = a.root >>= r.addDocument a.location := by
  unfold outcome root
  cases a.source with
  | tree root => rfl
  | text text free => rfl

theorem exists_of_outcome {a : Addition} {r next : Registry} {ix : Index}
    (added : a.outcome r = .ok (next, ix)) :
    ∃ root, a.root = .ok root ∧ r.addDocument a.location root = .ok (next, ix) := by
  rw [outcome_eq] at added
  cases there : a.root with
  | error e => simp [there, bind, Except.bind] at added
  | ok root => exact ⟨root, rfl, by simpa [there, bind, Except.bind] using added⟩

/-- Whether a document is added does not depend on the registry. -/
theorem outcome_isOk_iff (a : Addition) (r : Registry) :
    (∃ pair, a.outcome r = .ok pair) ↔
      a.location.toList.all Text.isBlank = false ∧ ∃ root, a.root = .ok root := by
  rw [outcome_eq]
  cases a.root with
  | error e => simp [bind, Except.bind]
  | ok root =>
    simp only [bind, Except.bind, Registry.addDocument]
    split
    next blank => simp [blank]
    next written => simpa using written

theorem leave_of_ok {a : Addition} {r next : Registry} {ix : Index}
    (added : a.outcome r = .ok (next, ix)) : a.leave r = next := by
  rw [leave, added]

theorem leave_of_error {a : Addition} {r : Registry} {e : RefError}
    (failed : a.outcome r = .error e) : a.leave r = r := by
  rw [leave, failed]

/-- An addition changes what is under one normal form. -/
theorem get?_leave {a : Addition} {r next : Registry} {ix : Index}
    (added : a.outcome r = .ok (next, ix)) (location : String) :
    (a.leave r).documents.get? location =
      if location = Location.normalize a.location then some ix
      else r.documents.get? location := by
  obtain ⟨root, _, added_root⟩ := exists_of_outcome added
  rw [leave_of_ok added, (Registry.addDocument_eq_ok added_root).1, Table.get?_insert]

end Addition

/-! ### Runs -/

namespace Registry

/-- The registry after some additions. -/
def afterAll (r : Registry) (additions : List Addition) : Registry :=
  additions.foldl (fun r a => a.leave r) r

/-- The locations and indexes of the documents that are added, in order. -/
def addedBy (r : Registry) : List Addition → List (String × Index)
  | [] => []
  | a :: rest =>
    match a.outcome r with
    | .ok (next, ix) => (a.location, ix) :: next.addedBy rest
    | .error _ => r.addedBy rest

/-- The index that was added last at a location with the same normal form. -/
def lastAt? (added : List (String × Index)) (location : String) : Option Index :=
  (added.reverse.find? fun entry =>
    Location.normalize entry.1 = Location.normalize location).map (·.2)

variable {r : Registry} {additions : List Addition}

@[simp] theorem afterAll_nil : r.afterAll [] = r := rfl

theorem afterAll_cons (a : Addition) :
    r.afterAll (a :: additions) = (a.leave r).afterAll additions := rfl

theorem afterAll_append (before after : List Addition) :
    r.afterAll (before ++ after) = (r.afterAll before).afterAll after :=
  List.foldl_append

theorem addedBy_of_ok {a : Addition} {next : Registry} {ix : Index}
    (added : a.outcome r = .ok (next, ix)) :
    r.addedBy (a :: additions) = (a.location, ix) :: (a.leave r).addedBy additions := by
  rw [addedBy, added, Addition.leave_of_ok added]

theorem addedBy_of_error {a : Addition} {e : RefError} (failed : a.outcome r = .error e) :
    r.addedBy (a :: additions) = (a.leave r).addedBy additions := by
  rw [addedBy, failed, Addition.leave_of_error failed]

/-- What was added last under a normal form is there, or else what was there before. -/
theorem get?_afterAll (location : String) :
    (r.afterAll additions).documents.get? location =
      (((r.addedBy additions).reverse.find? fun entry =>
        Location.normalize entry.1 = location).map (·.2)).or (r.documents.get? location) := by
  induction additions generalizing r with
  | nil => rfl
  | cons a rest ih =>
    rw [afterAll_cons, ih]
    cases result : a.outcome r with
    | error e => rw [addedBy_of_error result, Addition.leave_of_error result]
    | ok pair =>
      obtain ⟨next, ix⟩ := pair
      rw [addedBy_of_ok result, Addition.get?_leave result, List.reverse_cons, List.find?_append]
      -- The first addition counts only if none of the later ones has the normal form.
      cases (((a.leave r).addedBy rest).reverse.find? fun entry =>
          decide (Location.normalize entry.1 = location)) with
      | some later => rfl
      | none =>
        by_cases here : location = Location.normalize a.location
        · simp [here]
        · simp [here, eq_comm (b := location)]

/-- What is added is added by one of the additions. -/
theorem exists_addition_of_mem {entry : String × Index} (member : entry ∈ r.addedBy additions) :
    ∃ a ∈ additions, entry.1 = a.location ∧
      entry.2.location = some (Location.normalize a.location) := by
  -- Each addition starts from another registry, so the registry varies.
  induction additions generalizing r with
  | nil => simp [addedBy] at member
  | cons a rest ih =>
    cases result : a.outcome r with
    | error e =>
      rw [addedBy_of_error result] at member
      obtain ⟨other, listed, same⟩ := ih member
      exact ⟨other, List.mem_cons_of_mem a listed, same⟩
    | ok pair =>
      rw [addedBy_of_ok result] at member
      rcases List.mem_cons.mp member with rfl | later
      · obtain ⟨root, _, added⟩ := Addition.exists_of_outcome result
        exact ⟨a, List.mem_cons_self, rfl, (addDocument_eq_ok added).2.1⟩
      · obtain ⟨other, listed, same⟩ := ih later
        exact ⟨other, List.mem_cons_of_mem a listed, same⟩

/-! ### Keys -/

/-- Every index is kept under the location that it says, and that is its own normal form. -/
def Stable (r : Registry) : Prop :=
  ∀ location ix, r.documents.get? location = some ix →
    ix.location = some location ∧ Location.normalize location = location

theorem Stable.indexAt?_eq (stable : r.Stable) (location : String) :
    r.indexAt? location = r.documents.get? (Location.normalize location) := by
  unfold indexAt?
  cases there : r.documents.get? location with
  | none => rfl
  | some ix =>
    -- The text is a key, so its normal form is the same text.
    rw [(stable location ix there).2, there]
    rfl

theorem stable_afterAll (new : r.documents = .empty)
    (rewritten : ∀ a ∈ additions, ∀ url, Location.url? a.location = some url →
      Location.normalize url.text = url.text) : (r.afterAll additions).Stable := by
  intro location ix there
  rw [get?_afterAll, new, Table.get?_empty, Option.or_none] at there
  obtain ⟨entry, found, rfl⟩ := Option.map_eq_some_iff.mp there
  have member := List.mem_reverse.mp (List.mem_of_find?_eq_some found)
  -- The key is the normal form of what was given, and so its own.
  obtain ⟨a, listed, given, place⟩ := exists_addition_of_mem member
  have key : Location.normalize a.location = location := by
    simpa [given] using List.find?_some found
  constructor
  · rw [place, key]
  · rw [← key, Location.normalize_normalize (rewritten a listed)]

/-! ### Lists of locations -/

theorem length_locations (r : Registry) : r.locations.length = r.documents.size := by
  -- Sorting drops what is repeated, and no key of a table is.
  have same : (Text.sorted r.documents.keys).Perm r.documents.keys :=
    (List.perm_ext_iff_of_nodup ((Text.pairwise_sorted _).imp String.ne_of_lt)
      r.documents.distinct).mpr fun _ => Text.mem_sorted
  simpa [locations, Table.keys, Table.size] using same.length_eq

theorem mem_locations_iff (r : Registry) (location : String) :
    location ∈ r.locations ↔ (r.documents.get? location).isSome = true := by
  rw [locations, Text.mem_sorted, Table.mem_keys_iff]

end Registry

/-- Whatever is added to a new registry, it answers for a location with the index that was added
last at a location of the same normal form, and that index is at the normal form. The locations are
those normal forms in order. An addition fails only by its own fault, and leaves everything as it
is. -/
theorem answers_by_normal_form (key : RegistryKey) (config : Config) (additions : List Addition)
    (rewritten : ∀ a ∈ additions, ∀ url, Location.url? a.location = some url →
      Location.normalize url.text = url.text) :
    let start : Registry := { key, config }
    let r := start.afterAll additions
    let added := start.addedBy additions
    (∀ location, r.indexAt? location = Registry.lastAt? added location ∧
      ((r.indexAt? location).isSome = true ↔
        ∃ entry ∈ added, Location.normalize entry.1 = Location.normalize location) ∧
      ∀ ix, r.indexAt? location = some ix → ix.location = some (Location.normalize location)) ∧
    (r.locations.Pairwise (· < ·) ∧
      (∀ location, location ∈ r.locations ↔
        ∃ entry ∈ added, Location.normalize entry.1 = location) ∧
      r.documents.size = r.locations.length) ∧
    (∀ before a after, additions = before ++ a :: after →
      ((∃ pair, a.outcome (start.afterAll before) = .ok pair) ↔
        a.location.toList.all Text.isBlank = false ∧ ∃ root, a.root = .ok root) ∧
      ∀ e, a.outcome (start.afterAll before) = .error e →
        start.afterAll (before ++ [a]) = start.afterAll before ∧
          start.afterAll (before ++ after) = r) := by
  intro start r added
  -- Everything follows from what is kept under normal forms, by their texts.
  have stable : r.Stable := Registry.stable_afterAll rfl rewritten
  have last (location : String) : r.documents.get? location =
      (added.reverse.find? fun entry => Location.normalize entry.1 = location).map (·.2) := by
    simp [r, added, start, Registry.get?_afterAll]
  have known (location : String) : (r.documents.get? location).isSome = true ↔
      ∃ entry ∈ added, Location.normalize entry.1 = location := by
    simp [last, List.find?_isSome]
  refine ⟨fun location => ?_, ⟨?_, fun location => ?_, ?_⟩, ?_⟩
  · rw [stable.indexAt?_eq]
    exact ⟨last _, known _, fun ix there => (stable _ ix there).1⟩
  · exact Text.pairwise_sorted _
  · rw [Registry.mem_locations_iff]
    exact known location
  · exact (Registry.length_locations r).symm
  · intro before a after split
    refine ⟨a.outcome_isOk_iff _, fun e failed => ?_⟩
    -- The additions after it start from the registry that was there before.
    have same := Addition.leave_of_error failed
    constructor
    · rw [Registry.afterAll_append, Registry.afterAll_cons, same]
      rfl
    · simp only [r, split]
      rw [Registry.afterAll_append, Registry.afterAll_append, Registry.afterAll_cons, same]

/-- Two spellings of one path and one of a URL, between them a blank location and a text that is no
document. -/
def mixed : List Addition := [
  ⟨"/specs/./pet.yaml", .text "old: {}" ⟨1⟩⟩,
  ⟨" ", .tree (.mapping { id := ⟨10⟩, tag := CoreTag.map } [])⟩,
  ⟨"http://HOST/a/../b.yaml", .tree (.mapping { id := ⟨11⟩, tag := CoreTag.map } [])⟩,
  ⟨"/specs/toys.yaml", .text "[" ⟨12⟩⟩,
  ⟨"/specs/x/../pet.yaml", .text "new: {}" ⟨20⟩⟩]

theorem answers_by_normal_form_mixed :
    let r := Registry.afterAll { key := ⟨0⟩ } mixed
    r.locations = ["/specs/pet.yaml", "http://host/b.yaml"] ∧ r.documents.size = 2 ∧
      r.indexAt? "/specs/toys.yaml" = none ∧
      ∃ ix, r.indexAt? "/specs//pet.yaml" = some ix ∧ ix.location = some "/specs/pet.yaml" ∧
        ix.places.contains "/new" = true := by
  intro r
  have texts : ∀ a ∈ mixed, (Location.url? a.location).all (fun url =>
      decide (Location.normalize url.text = url.text)) = true := by decide +kernel
  obtain ⟨answers, ⟨_, _, size⟩, _⟩ :=
    answers_by_normal_form ⟨0⟩ {} mixed fun a member url found => by
      simpa [found] using texts a member
  have listed : r.locations = ["/specs/pet.yaml", "http://host/b.yaml"] := by decide +kernel
  have lost : (r.indexAt? "/specs/toys.yaml").isNone = true := by decide +kernel
  have newest : (r.indexAt? "/specs//pet.yaml").any (·.places.contains "/new") = true := by
    decide +kernel
  obtain ⟨_, _, placed⟩ := answers "/specs//pet.yaml"
  have normal : Location.normalize "/specs//pet.yaml" = "/specs/pet.yaml" := by decide +kernel
  refine ⟨listed, ?_, by simpa using lost, ?_⟩
  · rw [size, listed]
    rfl
  · cases there : r.indexAt? "/specs//pet.yaml" with
    | none => simp [there] at newest
    | some ix => exact ⟨ix, rfl, by rw [placed ix there, normal], by simpa [there] using newest⟩

end DocRefs
