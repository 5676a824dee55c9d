import DocRefs.Proofs.Index.Place
import DocRefs.Proofs.Resolve.Named

/-!
# Locations that can be read on

A location carries an index and a context, in which the references below its node are read. Main
result: `located_coherent`. The index is registered, the context leads to its document, and the node
is in it, over any chain of hops and however the last one was answered. What a walk keeps is
`Stand.AtHome`; the node is looked at in the last hop only (`Stand.reaches_of_next?`).
-/
namespace DocRefs

/-- References below the node are read in the registered document that the node is in. -/
structure Located.Coherent (registry : Registry) (l : Located) : Prop where
  registered : ∃ location, registry.documents.get? location = some l.index ∧
    l.index.location = some location ∧
    ∃ path, l.context.document.or l.index.location = some path ∧
      Location.normalize path = location
  inside : l.index.root.Reaches l.node

/-! ### Nodes that the tables know -/

namespace Index

variable {config : Config} {location : Option String} {earlier : Option Registry} {root : Node}
  {pointer : String} {r : Reference}

theorem reaches_of_mapped
    (inside : (build config location earlier root).isLocal (Location.splitPointer pointer).1 = true)
    (found : (build config location earlier root).mapped.get? pointer = some r) :
    root.Reaches r.node := by
  rw [mapped_build, Table.get?_mapValues] at found
  obtain ⟨first, known, rfl⟩ := Option.map_eq_some_iff.mp found
  obtain ⟨_, _, place, there, node⟩ := firstMapped_local inside known
  have reached : root.Reaches first.node := node ▸ Catalog.reaches_of_find? there
  split <;> exact reached

theorem reaches_of_findInCategories?
    (found : (build config location earlier root).findInCategories? pointer = some r) :
    root.Reaches r.node := by
  obtain ⟨category, _, there⟩ := List.exists_of_findSome?_eq_some found
  obtain ⟨table, listed, entry⟩ := Option.bind_eq_some_iff.mp there
  obtain ⟨other, _, same⟩ := List.mem_filterMap.mp (Table.mem_of_get?_ofList listed)
  obtain ⟨table', known, pair⟩ := Option.map_eq_some_iff.mp same
  obtain ⟨_, rfl⟩ := Prod.mk.inj pair
  obtain ⟨_, place, _⟩ := get?_categoryTable? known entry
  exact Catalog.reaches_of_get? place

/-- Whichever table answers for the document itself, the node is in it. -/
theorem reaches_of_answer? {registry : Registry} {context : Context} {answer : Answer}
    (inside : (build config location earlier root).isLocal (Location.splitPointer pointer).1 = true)
    (known : (build config location earlier root).answer? registry pointer context = some answer) :
    root.Reaches answer.reference.node := by
  simp only [answer?, resolve?, inside, if_true] at known
  split at known
  next r found =>
    rw [← Option.some.inj known]
    rcases Option.or_eq_some_iff.mp found with mapped | ⟨_, listed⟩
    · exact reaches_of_mapped inside mapped
    · exact reaches_of_findInCategories? listed
  · obtain ⟨r, place, rfl⟩ := Option.map_eq_some_iff.mp known
    exact Catalog.reaches_of_get? place

theorem reaches_of_search? {ix : Index} {found : Node} (search : ix.search? pointer = some found) :
    ix.root.Reaches found := by
  unfold search? at search
  dsimp only at search
  split at search
  · simp at search
  · exact (Node.reaches_unwrapDocument _).trans (Node.reaches_atSegments? search)

end Index

/-! ### Walks -/

section AtHome

variable {registry : Registry} {location : String} {s : Stand} {l : Located}

theorem Registry.Made.reaches_of_find? (made : registry.Made) {ix : Index}
    (there : registry.documents.get? location = some ix) {fragment : String} {r : Reference}
    (found : ix.find? fragment = some r) : ix.root.Reaches r.node := by
  obtain ⟨root, earlier, _, built⟩ := made.indexes there
  rw [built] at found ⊢
  exact Catalog.reaches_of_find? found

theorem Stand.reaches_of_next? (made : registry.Made) (home : s.AtHome registry location)
    (next : s.next? registry = some l) : l.index.root.Reaches l.node := by
  obtain ⟨pointer, answer, _, known, rfl⟩ := Stand.next?_eq_some_iff.mp next
  rcases Index.answer?_eq_some known with ⟨inside, own, _⟩ | ⟨_, owner, found, other, _⟩
  · obtain ⟨root, earlier, _, built⟩ := made.indexes home.1
    simp only [own, Option.getD_none]
    rw [built] at inside known ⊢
    exact Index.reaches_of_answer? inside known
  · obtain ⟨there, place⟩ := Registry.find?_eq_some_iff.mp found
    simp only [other, Option.getD_some]
    rcases Registry.get?_of_indexAt? there with exact' | normal
    · exact made.reaches_of_find? exact' place
    · exact made.reaches_of_find? normal place

/-- Wherever a walk comes to rest, it could go on from there. -/
theorem Stand.AtHome.located (made : registry.Made) {hops : Nat} (home : s.AtHome registry location)
    (found : locateWithin registry hops s.node s.index s.context = .ok (some l)) :
    (∃ other, l.stand.AtHome registry other) ∧ l.index.root.Reaches l.node := by
  obtain ⟨route, written, walk, _, _, reads, last⟩ := exists_route_of_locateWithin found
  obtain ⟨_, there⟩ := walk.atHome home
  have step := Stand.step_hop registry reads
  rw [last] at step
  cases step with
  | rests next _ => exact ⟨there.next next, Stand.reaches_of_next? made there next⟩
  | flagged next _ _ =>
    -- The flag does not move the location.
    have onward := there.next next
    have inside := Stand.reaches_of_next? made there next
    exact ⟨onward, inside⟩
  | searched unknown found =>
    -- What is searched for is in the document that was asked, and is read as that is.
    obtain ⟨_, _, _, search, rfl⟩ := Stand.searched?_eq_some_iff.mp found
    exact ⟨⟨_, there⟩, Index.reaches_of_search? search⟩

theorem Stand.AtHome.chased (made : registry.Made) {hops : Nat} (home : s.AtHome registry location)
    (found : chaseWithin registry hops s.node s.index s.context = .ok (some l)) :
    (∃ other, l.stand.AtHome registry other) ∧ l.index.root.Reaches l.node := by
  induction hops generalizing s location with
  | zero => simp [chaseWithin] at found
  | succ hops ih =>
    rw [Index.chaseWithin_succ] at found
    cases first : locateWithin registry (hops + 1) s.node s.index s.context with
    | error e => simp [first, Index.error_chaseOn] at found
    | ok here? =>
      rw [first, Index.ok_chaseOn] at found
      cases here? with
      | none => simp [Index.chaseOn] at found
      | some here =>
        obtain ⟨⟨other, there⟩, inside⟩ := home.located made first
        by_cases rest : (here.onCycle || !here.node.isRef) = true
        · rw [Index.chaseOn, if_pos rest] at found
          obtain rfl : here = l := Option.some.inj (Except.ok.inj found)
          exact ⟨⟨other, there⟩, inside⟩
        · rw [Index.chaseOn, if_neg rest] at found
          exact ih there found

theorem Located.coherent_of_atHome (made : registry.Made) (rereads : registry.Rereads)
    (home : l.stand.AtHome registry location) (inside : l.index.root.Reaches l.node) :
    l.Coherent registry := by
  obtain ⟨there, own⟩ := home
  have place := (made.registered there).place
  have normal := made.normalize_location rereads there
  refine ⟨⟨location, there, place, ?_⟩, inside⟩
  cases document : l.context.document with
  | none => exact ⟨location, place, normal⟩
  | some path =>
    refine ⟨path, rfl, ?_⟩
    rcases own path document with rfl | ⟨_, same⟩
    · exact normal
    · exact same

end AtHome

/-- In a made registry whose URLs are read back as they are written, begin a location or a chase in
a registered document, in a context that is empty or names it. What it comes to is in a registered
document too, the path that references are read in there names that document, and the document's
root reaches the node. -/
theorem located_coherent (registry : Registry) (made : registry.Made) (rereads : registry.Rereads)
    (location : String) (ix : Index) (home : registry.documents.get? location = some ix)
    (context : Context) (own : context.Names location) (n : Node) (l : Located) :
    (locate registry n ix context = .ok (some l) → l.Coherent registry) ∧
    (∀ taken, chase registry n ix context taken = .ok (some l) → l.Coherent registry) := by
  have start : (Stand.mk n ix context).AtHome registry location := ⟨home, own⟩
  constructor
  · intro located
    obtain ⟨⟨_, there⟩, inside⟩ := start.located made located
    exact Located.coherent_of_atHome made rereads there inside
  · intro taken chased
    obtain ⟨⟨_, there⟩, inside⟩ := start.chased made chased
    exact Located.coherent_of_atHome made rereads there inside

/-- `start` leads into a folder below, and from there back up to `end`. -/
def folders : Registry := .ofDocuments [
  ("/specs/api.yaml", Build.runNew <| Build.object [
    ("start", Build.reference "common/pet.yaml#/next"),
    ("end", Build.object [])]),
  ("/specs/common/pet.yaml", Build.runNew <| Build.object [
    ("next", Build.reference "../api.yaml#/end")])]

theorem located_coherent_folders :
    let s := folders.standAt "/specs/api.yaml" "/start"
    ∃ l, locate folders s.node s.index ⟨some "/specs/api.yaml"⟩ = .ok (some l) ∧
      l.pointer = "/specs/api.yaml#/end" ∧ l.Coherent folders := by
  intro s
  have home : folders.documents.get? "/specs/api.yaml" = some s.index := by rfl
  have rereads : folders.Rereads := Registry.rereads_of_keys (by decide +kernel)
  have made : folders.Made := Registry.made_ofDocuments _
  have own : (⟨some "/specs/api.yaml"⟩ : Context).Names "/specs/api.yaml" :=
    fun _ named => .inl (Option.some.inj named).symm
  have there : whereabouts? (locate folders s.node s.index ⟨some "/specs/api.yaml"⟩) =
      some ("/specs/api.yaml#/end", some "/specs/api.yaml") := by decide +kernel
  obtain ⟨l, located, pointer, _⟩ := exists_of_whereabouts? there
  obtain ⟨locating, _⟩ := located_coherent folders made rereads "/specs/api.yaml" s.index home
    ⟨some "/specs/api.yaml"⟩ own s.node l
  exact ⟨l, located, pointer, locating located⟩

end DocRefs
