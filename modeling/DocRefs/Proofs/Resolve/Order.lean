import DocRefs.Proofs.Index.Earlier
import DocRefs.Proofs.Index.Registered
import DocRefs.Proofs.Resolve.Mirror
import DocRefs.Proofs.Resolve.Named

/-!
# Orders of registration

Main result: `walks_of_perm`. In whatever order documents with different locations are registered,
their references lead to the same places, although an index maps what lies in other documents only
if those are there before it. Nothing that a walk asks of an index depends on that
(`Index.alike_build`), so the walks in both registries run side by side (`Registry.mirror_of_perm`).
-/
namespace DocRefs

/-! ### Registration -/

namespace Registry

/-- Registers documents one after another. -/
def addDocuments (r : Registry) : List (String × Node) → Except RefError Registry
  | [] => .ok r
  | (location, root) :: rest => do
    let (next, _) ← r.addDocument location root
    next.addDocuments rest

theorem addDocuments_cons_eq_ok_iff {r next : Registry} {location : String} {root : Node}
    {rest : List (String × Node)} :
    r.addDocuments ((location, root) :: rest) = .ok next ↔
      ∃ first ix, r.addDocument location root = .ok (first, ix) ∧
        first.addDocuments rest = .ok next := by
  rw [addDocuments]
  rcases r.addDocument location root with e | ⟨first, ix⟩ <;> simp [bind, Except.bind]

theorem exists_addDocument_iff (r : Registry) (location : String) (root : Node) :
    (∃ next ix, r.addDocument location root = .ok (next, ix)) ↔
      location.toList.all Text.isBlank = false := by
  unfold addDocument
  cases location.toList.all Text.isBlank <;> simp

/-- Nothing but a location refuses a document. -/
theorem exists_addDocuments_iff (r : Registry) (documents : List (String × Node)) :
    (∃ next, r.addDocuments documents = .ok next) ↔
      ∀ document ∈ documents, document.1.toList.all Text.isBlank = false := by
  induction documents generalizing r with
  | nil => exact ⟨by simp, fun _ => ⟨r, rfl⟩⟩
  | cons document rest ih =>
    obtain ⟨location, root⟩ := document
    rw [List.forall_mem_cons]
    simp only [addDocuments_cons_eq_ok_iff]
    constructor
    · rintro ⟨next, first, ix, one, later⟩
      exact ⟨(r.exists_addDocument_iff location root).mp ⟨first, ix, one⟩,
        (ih first).mp ⟨next, later⟩⟩
    · rintro ⟨written, all⟩
      obtain ⟨first, ix, one⟩ := (r.exists_addDocument_iff location root).mpr written
      obtain ⟨next, later⟩ := (ih first).mpr all
      exact ⟨next, first, ix, one, later⟩

/-- What a registry holds when documents have been added to another one. -/
structure Gathers (r : Registry) (documents : List (String × Node)) (next : Registry) : Prop where
  key : next.key = r.key
  held : ∀ location ix, next.documents.get? location = some ix →
    r.documents.get? location = some ix ∨ ∃ document ∈ documents,
      Location.normalize document.1 = location ∧ r.Indexes location document.2 ix
  kept : ∀ location, (r.documents.get? location).isSome = true →
    (next.documents.get? location).isSome = true
  there : ∀ document ∈ documents,
    (next.documents.get? (Location.normalize document.1)).isSome = true

theorem gathers_of_addDocuments {r next : Registry} {documents : List (String × Node)}
    (added : r.addDocuments documents = .ok next) : r.Gathers documents next := by
  induction documents generalizing r with
  | nil =>
    obtain rfl := Except.ok.inj added
    exact ⟨rfl, fun _ _ => .inl, fun _ => id, by simp⟩
  | cons document rest ih =>
    obtain ⟨location, root⟩ := document
    obtain ⟨first, ix, one, later⟩ := addDocuments_cons_eq_ok_iff.mp added
    have indexes := indexes_of_addDocument one
    obtain ⟨rfl, _, _⟩ := addDocument_eq_ok one
    have gathers := ih later
    have inserted (place : String) := Table.get?_insert r.documents (Location.normalize location)
      place ix
    refine ⟨gathers.key, ?_, ?_, ?_⟩
    · intro place other found
      rcases gathers.held place other found with old | ⟨document, member, same, of_document⟩
      · rw [inserted] at old
        split at old
        next same =>
          obtain rfl := Option.some.inj old
          exact .inr ⟨(location, root), by simp, same.symm, same ▸ indexes⟩
        · exact .inl old
      · exact .inr ⟨document, List.mem_cons_of_mem _ member, same, of_document⟩
    · intro place there
      refine gathers.kept place ?_
      rw [inserted]
      split
      · rfl
      · exact there
    · refine List.forall_mem_cons.mpr ⟨gathers.kept _ ?_, gathers.there⟩
      simp [inserted]

end Registry

/-! ### Indexes of one document -/

theorem Index.alike_build (config : Config) (location : Option String)
    (earlier other : Option Registry) (root : Node) :
    (build config location earlier root).Alike (build config location other root) where
  catalog := rfl
  baseUrl := rfl
  mapped _ inside := mapped_eq earlier other inside
  listed _ _ := by
    rw [listed?, listed?, findInCategories?, findInCategories?]
    rfl
  findings := findings_eq earlier other

/-- The indexes are of one document and belong to the two registries. -/
structure Registry.Kin (r other : Registry) (a b : Index) : Prop where
  alike : a.Alike b
  config : a.config = b.config
  member : a.registry = some r.key
  member' : b.registry = some other.key

section Perm

variable {key key' : RegistryKey} {config : Config} {documents others : List (String × Node)}
  {r other : Registry}

/-- Where both registries have an index, it is that of one document. -/
theorem Registry.kin_of_perm (same : documents.Perm others)
    (distinct : (documents.map fun document => Location.normalize document.1).Nodup)
    (added : addDocuments { key, config } documents = .ok r)
    (added' : addDocuments { key := key', config } others = .ok other) {location : String}
    {a b : Index} (there : r.documents.get? location = some a)
    (there' : other.documents.get? location = some b) : r.Kin other a b := by
  have gathers := gathers_of_addDocuments added
  have gathers' := gathers_of_addDocuments added'
  obtain ⟨document, member, place, earlier, own, rfl⟩ :=
    (gathers.held location a there).resolve_left (by simp)
  obtain ⟨document', member', place', earlier', own', rfl⟩ :=
    (gathers'.held location b there').resolve_left (by simp)
  obtain rfl : document = document' :=
    List.inj_on_of_nodup_map distinct member (same.mem_iff.mpr member') (place.trans place'.symm)
  refine ⟨Index.alike_build _ _ _ _ _, rfl, ?_, ?_⟩
  · exact congrArg some (own.trans gathers.key.symm)
  · exact congrArg some (own'.trans gathers'.key.symm)

theorem Registry.there_of_perm (same : documents.Perm others)
    (added : addDocuments { key, config } documents = .ok r)
    (added' : addDocuments { key := key', config } others = .ok other) {location : String}
    {a : Index} (there : r.documents.get? location = some a) :
    ∃ b, other.documents.get? location = some b := by
  obtain ⟨document, member, rfl, _⟩ :=
    ((gathers_of_addDocuments added).held location a there).resolve_left (by simp)
  exact Option.isSome_iff_exists.mp
    ((gathers_of_addDocuments added').there document (same.mem_iff.mp member))

theorem Registry.mirror_of_perm (same : documents.Perm others)
    (distinct : (documents.map fun document => Location.normalize document.1).Nodup)
    (added : addDocuments { key, config } documents = .ok r)
    (added' : addDocuments { key := key', config } others = .ok other) :
    Mirror (r.Kin other) r other where
  alike kin := kin.alike
  member kin := by simp [kin.member, kin.member']
  documents location := by
    cases there : r.documents.get? location with
    | some a =>
      obtain ⟨b, there'⟩ := there_of_perm same added added' there
      rw [there']
      exact .some (kin_of_perm same distinct added added' there there')
    | none =>
      cases there' : other.documents.get? location with
      | none => exact .none
      | some b =>
        obtain ⟨a, found⟩ := there_of_perm same.symm added' added there'
        simp [there] at found

/-! ### What is said of a place -/

/-- The locations say the same, and are in the same document. -/
structure Located.Same (l m : Located) : Prop where
  node : l.node = m.node
  document : l.index.location = m.index.location
  context : l.context = m.context
  pointer : l.pointer = m.pointer
  onCycle : l.onCycle = m.onCycle
  circular : l.circular = m.circular

theorem Located.Mirrors.same {R : Index → Index → Prop} {l m : Located}
    (alike : ∀ {a b}, R a b → a.Alike b)
    (policy : ∀ {a b}, R a b → a.config.allowCircular = b.config.allowCircular)
    (places : l.Mirrors R m) : l.Same m where
  node := places.node
  document := (alike places.index).location
  context := places.context
  pointer := places.pointer
  onCycle := places.onCycle
  circular := by
    obtain ⟨report, -, left, right⟩ := places.circular
    rw [left, right, Index.reports, Index.reports, policy places.index]

/-- Where corresponding indexes have one policy, walks in both end alike. -/
theorem Mirrored.same {R : Index → Index → Prop} {x y : Except RefError (Option Located)}
    (alike : ∀ {a b}, R a b → a.Alike b)
    (policy : ∀ {a b}, R a b → a.config.allowCircular = b.config.allowCircular)
    (walks : Mirrored R x y) : Alongside (Option.Rel Located.Same) x y := by
  cases walks with
  | fails e => exact .fails e
  | succeeds places =>
    cases places with
    | none => exact .succeeds .none
    | some places => exact .succeeds (.some (places.same alike policy))

theorem Registry.Kin.policy {a b : Index} (kin : r.Kin other a b) :
    a.config.allowCircular = b.config.allowCircular := by rw [kin.config]

/-- Documents with different locations can be registered in any order. Under every location there is
an index in both registries or in neither, and from there each reference leads to the same place, or
fails with the same error, in both. -/
theorem walks_of_perm (same : documents.Perm others)
    (distinct : (documents.map fun document => Location.normalize document.1).Nodup)
    (added : Registry.addDocuments { key, config } documents = .ok r) :
    ∃ other, Registry.addDocuments { key := key', config } others = .ok other ∧
      (∀ location, r.documents.get? location = none ↔ other.documents.get? location = none) ∧
      ∀ location a b, r.documents.get? location = some a → other.documents.get? location = some b →
        ∀ n context taken,
          Alongside (Option.Rel Located.Same) (locate r n a context) (locate other n b context) ∧
          Alongside (Option.Rel Located.Same) (chase r n a context taken)
            (chase other n b context taken) := by
  obtain ⟨other, added'⟩ := (Registry.exists_addDocuments_iff { key := key', config } others).mpr
    fun document member => (Registry.exists_addDocuments_iff _ _).mp ⟨r, added⟩ document
      (same.mem_iff.mpr member)
  have mirror := Registry.mirror_of_perm same distinct added added'
  refine ⟨other, added', fun location => ?_, fun location a b there there' n context taken => ?_⟩
  · have places := mirror.documents location
    generalize r.documents.get? location = x at places ⊢
    generalize other.documents.get? location = y at places ⊢
    cases places <;> simp
  · have kin := Registry.kin_of_perm same distinct added added' there there'
    constructor
    · exact (mirror.locate kin n context).same Registry.Kin.alike Registry.Kin.policy
    · exact (mirror.chase kin n context taken).same Registry.Kin.alike Registry.Kin.policy

end Perm

/-- The registry of documents that are registered one after another. -/
def Registry.gathered (documents : List (String × Node)) : Registry :=
  (addDocuments { key := ⟨0⟩ } documents).toOption.getD default

theorem Registry.addDocuments_gathered {documents : List (String × Node)}
    (written : ∀ document ∈ documents, document.1.toList.all Text.isBlank = false) :
    addDocuments { key := ⟨0⟩ } documents = .ok (gathered documents) := by
  obtain ⟨r, added⟩ := (exists_addDocuments_iff { key := ⟨0⟩ } documents).mpr written
  rw [gathered, added]
  rfl

/-- The first document leads into the second one, which comes after it. -/
def successive : List (String × Node) := [
  ("/api.yaml", Build.runNew <| Build.object [("pet", Build.reference "models.yaml#/pet")]),
  ("/models.yaml", Build.runNew <| Build.object [("pet", Build.object [])])]

theorem walks_of_perm_successive :
    let r := Registry.gathered successive
    let other := Registry.gathered successive.reverse
    let s := r.standAt "/api.yaml" "/pet"
    let t := other.standAt "/api.yaml" "/pet"
    s.index.mapped.size = 0 ∧ t.index.mapped.size = 1 ∧
      whereabouts? (locate r s.node s.index {}) =
        some ("/models.yaml#/pet", some "/models.yaml") ∧
      Alongside (Option.Rel Located.Same) (locate r s.node s.index {})
        (locate other s.node t.index {}) := by
  intro r other s t
  have added : Registry.addDocuments { key := ⟨0⟩ } successive = .ok r :=
    Registry.addDocuments_gathered (by decide +kernel)
  have added' : Registry.addDocuments { key := ⟨0⟩ } successive.reverse = .ok other :=
    Registry.addDocuments_gathered (by decide +kernel)
  obtain ⟨other', registered, _, walks⟩ :=
    walks_of_perm successive.reverse_perm.symm (by decide +kernel) added
  obtain rfl : other = other' := Except.ok.inj (added'.symm.trans registered)
  have there : r.documents.get? "/api.yaml" = some s.index := by rfl
  have there' : other.documents.get? "/api.yaml" = some t.index := by rfl
  exact ⟨by decide +kernel, by decide +kernel, by decide +kernel,
    (walks "/api.yaml" s.index t.index there there' s.node {} 0).1⟩

end DocRefs
