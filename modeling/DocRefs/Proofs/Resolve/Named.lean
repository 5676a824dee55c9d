import DocRefs.Proofs.Index.Registered
import DocRefs.Proofs.Location.Absolute
import DocRefs.Proofs.Resolve.Searched

/-!
# The documents that pointers name

Where a pointer names a document, the place should be in that document. Tables answer only for the
documents that they belong to, but what is left to a search is looked for in the document that was
asked, under whatever document the pointer names. Main result: `located_named_iff`. The
invariant of the walk is `Stand.AtHome`: its document is registered, and its context names it.
-/
namespace DocRefs

/-- The context is empty or names the document at a location. -/
def Context.Names (context : Context) (location : String) : Prop :=
  ∀ document, context.document = some document →
    document = location ∨ '#' ∉ document.toList ∧ Location.normalize document = location

/-- The URLs among the locations are read back as they are written. -/
def Registry.Rereads (registry : Registry) : Prop :=
  ∀ url : Location.Url, registry.documents.contains url.text = true →
    Location.normalize url.text = url.text

theorem Registry.rereads_of_keys {registry : Registry}
    (stable : registry.documents.keys.all (fun location =>
      decide (Location.normalize location = location)) = true) : registry.Rereads := by
  intro url listed
  obtain ⟨ix, there⟩ := Option.isSome_iff_exists.mp listed
  have key := List.mem_map_of_mem (f := (·.1)) ((registry.documents.mem_entries_iff _ ix).mpr there)
  simpa using List.all_eq_true.mp stable _ key

theorem Registry.Made.normalize_location {registry : Registry} (made : registry.Made)
    (rereads : registry.Rereads) {location : String} {ix : Index}
    (there : registry.documents.get? location = some ix) :
    Location.normalize location = location := by
  obtain ⟨_, _, given, rfl⟩ := made.registered there
  refine Location.normalize_normalize fun url found => rereads url ?_
  have here : Location.normalize given = url.text := by simp [Location.normalize, found]
  rw [← here, Table.contains, there]
  rfl

/-- The place is in the document that its pointer names. -/
def Located.Named (l : Located) : Prop :=
  l.index.location = some (Location.normalize (Location.splitPointer l.pointer).1)

/-- The pointer leads into the place's own document, or the registry knows it. -/
def Located.Known (registry : Registry) (l : Located) : Prop :=
  l.index.isLocal (Location.splitPointer l.pointer).1 = true ∨
    (registry.find? l.pointer).isSome = true

/-- The walk is in a registered document, which its context names. -/
def Stand.AtHome (registry : Registry) (location : String) (s : Stand) : Prop :=
  registry.documents.get? location = some s.index ∧ s.context.Names location

section AtHome

variable {registry : Registry} {location : String} {s : Stand} {l : Located} {pointer : String}

theorem Stand.AtHome.next (home : s.AtHome registry location) (next : s.next? registry = some l) :
    ∃ other, l.stand.AtHome registry other := by
  obtain ⟨pointer, answer, _, known, rfl⟩ := Stand.next?_eq_some_iff.mp next
  rcases Index.answer?_eq_some known with ⟨_, own, same⟩ | ⟨_, owner, found, other, context⟩
  · exact ⟨location, by simpa [AtHome, own, same] using home⟩
  · obtain ⟨there, _⟩ := Registry.find?_eq_some_iff.mp found
    have clear := Location.hash_not_mem_splitPointer pointer
    rcases Registry.get?_of_indexAt? there with exact' | normal
    · refine ⟨_, by simpa [other] using exact', fun document named => .inl ?_⟩
      simpa [context, eq_comm] using named
    · refine ⟨_, by simpa [other] using normal, fun document named => .inr ?_⟩
      obtain rfl : (Location.splitPointer pointer).1 = document := by simpa [context] using named
      exact ⟨clear, rfl⟩

theorem Route.atHome {route : List Located} (walk : Route registry s route)
    (home : s.AtHome registry location) : ∃ other, (s.after route).AtHome registry other := by
  induction walk generalizing location with
  | stay s => exact ⟨location, home⟩
  | hop next later ih =>
    obtain ⟨_, there⟩ := home.next next
    simpa using ih there

/-- A pointer without document is only made where no document is the name of the own one. -/
theorem Stand.AtHome.normalize_empty (made : registry.Made) (home : s.AtHome registry location)
    (reads : s.pointer? = some pointer) (empty : (Location.splitPointer pointer).1 = "") :
    Location.normalize "" = location := by
  obtain ⟨place, _, given, rfl⟩ := made.registered home.1
  obtain ⟨written, _, _, rfl⟩ := Stand.pointer?_eq_some_iff.mp reads
  -- The document that the pointer is made in cannot open.
  have closed {current : String} (read_in : s.context.document.or s.index.location = some current) :
      ¬ Location.Opens current := by
    intro opens
    rw [Index.pointerIn, read_in] at empty
    exact Location.document_absolutePointer_ne _ opens empty
  have opens := Location.opens_normalize given
  cases document : s.context.document with
  | none => exact absurd opens (closed (by simp [document, place]))
  | some current =>
    have shut : ¬ Location.Opens current := closed (by simp [document])
    rcases home.2 current document with rfl | ⟨clear, normal⟩
    · exact absurd opens shut
    · cases solid : current.isEmpty with
      | true => rw [← normal, String.isEmpty_iff.mp solid]
      | false => exact absurd (Location.opens_of_hash_not_mem clear solid) shut

theorem Stand.AtHome.normalize_local (made : registry.Made) (rereads : registry.Rereads)
    (home : s.AtHome registry location) (reads : s.pointer? = some pointer)
    (inside : s.index.isLocal (Location.splitPointer pointer).1 = true) :
    Location.normalize (Location.splitPointer pointer).1 = location := by
  rcases Bool.or_eq_true_iff.mp inside with empty | own
  · have empty := String.isEmpty_iff.mp empty
    rw [empty]
    exact home.normalize_empty made reads empty
  · have place := (made.registered home.1).place
    obtain rfl : location = (Location.splitPointer pointer).1 := by simpa [place] using own
    exact made.normalize_location rereads home.1

theorem Registry.Made.location_of_indexAt? (made : registry.Made) (rereads : registry.Rereads)
    {document : String} {owner : Index} (there : registry.indexAt? document = some owner) :
    owner.location = some (Location.normalize document) := by
  rcases Registry.get?_of_indexAt? there with exact' | normal
  · rw [made.normalize_location rereads exact']
    exact (made.registered exact').place
  · exact (made.registered normal).place

/-- The tables know places only in the document that the pointer names. -/
theorem Stand.AtHome.named_of_next (made : registry.Made) (rereads : registry.Rereads)
    (home : s.AtHome registry location) (next : s.next? registry = some l) :
    l.Named ∧ l.Known registry := by
  obtain ⟨pointer, answer, reads, known, rfl⟩ := Stand.next?_eq_some_iff.mp next
  rcases Index.answer?_eq_some known with ⟨inside, own, _⟩ | ⟨_, owner, found, other, _⟩
  · refine ⟨?_, .inl (by simpa [own] using inside)⟩
    rw [Located.Named, home.normalize_local made rereads reads inside]
    simpa [own] using (made.registered home.1).place
  · obtain ⟨there, _⟩ := Registry.find?_eq_some_iff.mp found
    refine ⟨?_, .inr (by simp [found])⟩
    simpa [Located.Named, other] using made.location_of_indexAt? rereads there

/-- A pointer that names a registered document is left to a search only if that document has nothing
under its fragment. -/
theorem Stand.AtHome.find?_of_unknown (made : registry.Made) (home : s.AtHome registry location)
    (reads : s.pointer? = some pointer) (unknown : s.next? registry = none)
    (outside : s.index.isLocal (Location.splitPointer pointer).1 = false) :
    registry.find? pointer = none := by
  cases found : registry.find? pointer with
  | none => rfl
  | some pair =>
    have member := (made.registered home.1).member
    simp [next?, reads, Index.answer?, Index.resolve?, Index.findElsewhere?, outside, member,
      found] at unknown

theorem Index.find?_of_search? {ix : Index} {found : Node}
    (search : ix.search? pointer = some found) :
    (ix.find? (Location.splitPointer pointer).2).isSome = true := by
  unfold search? at search
  dsimp only at search
  split at search
  · simp at search
  · simp [Catalog.find?, search]

/-- What a search finds is in the document that the pointer names only if that is the document
itself. -/
theorem Stand.AtHome.named_of_search (made : registry.Made) (rereads : registry.Rereads)
    (home : s.AtHome registry location) (unknown : s.next? registry = none)
    (found : s.searched? = some l) :
    l.Named ↔ l.Known registry := by
  obtain ⟨pointer, node, reads, search, rfl⟩ := Stand.searched?_eq_some_iff.mp found
  obtain ⟨place, _, _⟩ := made.registered home.1
  cases inside : s.index.isLocal (Location.splitPointer pointer).1 with
  | true => simp [Located.Named, Located.Known, place, inside,
      home.normalize_local made rereads reads inside]
  | false =>
    have lost := home.find?_of_unknown made reads unknown inside
    refine iff_of_false (fun named => ?_) (by simp [Located.Known, inside, lost])
    have named : location = Location.normalize (Location.splitPointer pointer).1 := by
      simpa [Located.Named, place] using named
    -- The registry would have found the place in the document itself.
    have there : registry.indexAt? (Location.splitPointer pointer).1 = some s.index := by
      cases other : registry.documents.get? (Location.splitPointer pointer).1 with
      | some ix =>
        rw [made.normalize_location rereads other] at named
        simp [Catalog.isLocal, place, named] at inside
      | none => rw [Registry.indexAt?, other, ← named, home.1]; rfl
    obtain ⟨r, known⟩ := Option.isSome_iff_exists.mp (Index.find?_of_search? search)
    have answered := Registry.find?_eq_some_iff.mpr ⟨there, known⟩
    simp [lost] at answered

theorem Stand.next?_eq_none_of_lost (reads : s.pointer? = some pointer)
    (outside : s.index.isLocal (Location.splitPointer pointer).1 = false)
    (lost : registry.find? pointer = none) : s.next? registry = none := by
  simp [next?, reads, Index.answer?, Index.resolve?, Index.findElsewhere?, outside, lost]

end AtHome

/-- In a made registry whose URLs are read back as they are written, the place that a reference in a
registered document leads to is in the document that its pointer names exactly if that pointer leads
into the place's own document or the registry knows it. Any other place was found by a search of the
document that was asked. So a first pointer that the registry does not know leads nowhere only if
the asking document has nothing under its fragment either. -/
theorem located_named_iff (registry : Registry) (made : registry.Made) (rereads : registry.Rereads)
    (location : String) (ix : Index) (home : registry.documents.get? location = some ix)
    (context : Context) (own : context.Names location) (n : Node) :
    (∀ l, locate registry n ix context = .ok (some l) →
      (l.Named ↔ l.Known registry) ∧ (l.Named ∨ l.index.search? l.pointer = some l.node)) ∧
    (∀ written pointer, (Stand.mk n ix context).written? = some written →
      (Stand.mk n ix context).pointer? = some pointer →
      ix.isLocal (Location.splitPointer pointer).1 = false → registry.find? pointer = none →
        (ix.search? pointer = none →
          locate registry n ix context = .error (.notFound written.text written.position)) ∧
        (∀ found, ix.search? pointer = some found → locate registry n ix context =
          .ok (some { node := found, index := ix, context, pointer }))) := by
  have start : (Stand.mk n ix context).AtHome registry location := ⟨home, own⟩
  constructor
  · intro l located
    -- The walk stays at home, so the place is in question at its last hop only.
    obtain ⟨route, written, walk, _, _, reads, last⟩ :=
      exists_route_of_locateWithin (s := ⟨n, ix, context⟩) located
    obtain ⟨_, there⟩ := walk.atHome start
    have step := Stand.step_hop registry reads
    rw [last] at step
    cases step with
    | rests next _ =>
      obtain ⟨named, known⟩ := there.named_of_next made rereads next
      exact ⟨iff_of_true named known, .inl named⟩
    | flagged next _ _ =>
      obtain ⟨named, known⟩ := there.named_of_next made rereads next
      exact ⟨iff_of_true named known, .inl named⟩
    | searched unknown found =>
      refine ⟨there.named_of_search made rereads unknown found, .inr ?_⟩
      obtain ⟨_, _, _, search, rfl⟩ := Stand.searched?_eq_some_iff.mp found
      exact search
  · intro written pointer reads named outside lost
    have unknown := Stand.next?_eq_none_of_lost named outside lost
    constructor
    · intro nothing
      obtain ⟨other, same, text, _⟩ := Stand.pointer?_eq_some_iff.mp named
      obtain rfl : other = written := Option.some.inj (same.symm.trans reads)
      have unseen : (Stand.mk n ix context).searched? = none := by
        simp [Stand.searched?, named, nothing]
      exact locateWithin_of_error 99 reads (Stand.hop_of_lost unknown unseen reads text)
    · intro found search
      have seen := Stand.searched?_eq_some_iff.mpr ⟨pointer, found, named, search, rfl⟩
      exact locateWithin_of_rest 99 reads (Stand.hop_of_searched unknown seen reads)

/-- `start` leads into the document beside its own. -/
def linked : Registry := .ofDocuments [
  ("http://host/a.yaml", Build.runNew <| Build.object [("start", Build.reference "b.yaml#/next")]),
  ("http://host/b.yaml", Build.runNew <| Build.object [("next", Build.object [])])]

/-- The pointer of a location, and where the document is that it is in. -/
def whereabouts? : Except RefError (Option Located) → Option (String × Option String)
  | .ok (some l) => some (l.pointer, l.index.location)
  | _ => none

theorem exists_of_whereabouts? {result : Except RefError (Option Located)} {pointer : String}
    {location : Option String} (there : whereabouts? result = some (pointer, location)) :
    ∃ l, result = .ok (some l) ∧ l.pointer = pointer ∧ l.index.location = location := by
  unfold whereabouts? at there
  split at there
  next l =>
    obtain ⟨pointer, location⟩ := Prod.mk.inj (Option.some.inj there)
    exact ⟨l, rfl, pointer, location⟩
  · simp at there

theorem located_named_linked :
    let s := linked.standAt "http://host/a.yaml" "/start"
    ∃ l, locate linked s.node s.index {} = .ok (some l) ∧ l.pointer = "http://host/b.yaml#/next" ∧
      l.Named := by
  intro s
  have home : linked.documents.get? "http://host/a.yaml" = some s.index := by rfl
  have rereads : linked.Rereads := Registry.rereads_of_keys (by decide +kernel)
  have made : linked.Made := Registry.made_ofDocuments _
  have own : ({} : Context).Names "http://host/a.yaml" := fun _ absent => by simp at absent
  obtain ⟨places, _⟩ :=
    located_named_iff linked made rereads "http://host/a.yaml" s.index home {} own s.node
  have there : whereabouts? (locate linked s.node s.index {}) =
      some ("http://host/b.yaml#/next", some "http://host/b.yaml") := by decide +kernel
  obtain ⟨l, located, pointer, _⟩ := exists_of_whereabouts? there
  have known : l.Known linked := by
    refine .inr ?_
    rw [pointer]
    decide +kernel
  exact ⟨l, located, pointer, (places l located).1.mpr known⟩

/-- `entry` leads into a document that is not registered. -/
def unlinked : Registry := .ofDocuments [
  ("/api.yaml", Build.runNew <| Build.object [
    ("pet", Build.object []),
    ("entry", Build.reference "models.yaml#/pet")])]

theorem located_in_other_document :
    let s := unlinked.standAt "/api.yaml" "/entry"
    unlinked.indexAt? "/models.yaml" = none ∧
      ∃ l, locate unlinked s.node s.index {} = .ok (some l) ∧ l.pointer = "/models.yaml#/pet" ∧
        ¬ l.Named := by
  intro s
  have there : whereabouts? (locate unlinked s.node s.index {}) =
      some ("/models.yaml#/pet", some "/api.yaml") := by decide +kernel
  obtain ⟨l, located, pointer, place⟩ := exists_of_whereabouts? there
  refine ⟨by rfl, l, located, pointer, fun named => ?_⟩
  rw [Located.Named, pointer, place] at named
  exact absurd named (by decide +kernel)

end DocRefs
