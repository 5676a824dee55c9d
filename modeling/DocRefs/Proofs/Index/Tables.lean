import DocRefs.Proofs.Fragment.Written
import DocRefs.Proofs.Index.Place
import DocRefs.Proofs.Node.Listing
import DocRefs.Proofs.Resolve.Walk

/-!
# Tables and walks

Main result: `tables_of_walk`. In a document whose keys can be read back from their written form,
the references of its index are the sites of the tree in document order, and the tables say of each
what a walk along its fragment says. A pointer is looked for among the places first, under its
fragment as it is written; the path to a place leads there too (`Place.At.walked`).
-/
namespace DocRefs

/-! ### Sites of a tree -/

/-- The reference entry of a mapping, if its value is a scalar. -/
def Node.site? (n : Node) : Option RefSite :=
  match n.findKey? referenceKey with
  | some (key, value) => if value.isScalar then some ⟨n, key, value⟩ else none
  | none => none

/-- The site at a position of a tree. -/
def Node.siteAt? (root : Node) (position : List Nat) : Option RefSite :=
  (root.at? position).bind Node.site?

namespace RefSite

theorem ofMapping_eq (n : Node) : ofMapping n = n.site?.toList := by
  unfold ofMapping Node.site?
  rcases n.findKey? referenceKey with _ | ⟨key, value⟩
  · rfl
  · dsimp only
    split <;> rfl

theorem below_eq_values (n : Node) : below n = n.site?.toList ++ n.values.flatMap below := by
  have pairs_eq (pairs : List (Node × Node)) :
      belowPairs pairs = (pairs.map (·.2)).flatMap below := by
    induction pairs with
    | nil => rfl
    | cons pair rest ih => rw [belowPairs, ih, List.map_cons, List.flatMap_cons]
  have items_eq (items : List Node) : belowItems items = items.flatMap below := by
    induction items with
    | nil => rfl
    | cons item rest ih => rw [belowItems, ih, List.flatMap_cons]
  cases n with
  | mapping info pairs => rw [below, pairs_eq, ofMapping_eq, Node.values]
  | sequence info items => rw [below, items_eq]; rfl
  | document info root => simp [below, Node.site?, Node.findKey?, Node.pairs, Node.values]
  | scalar info text => rfl
  | aliasTo info target => rfl

/-- The sites below a node are those of the nodes that are listed. -/
theorem below_eq_listing (n : Node) : below n = n.listing.filterMap fun row => row.2.site? := by
  induction n using Node.induction_values with
  | step n ih =>
    have items (ns : List Node)
        (each : ∀ m ∈ ns, below m = m.listing.filterMap fun row => row.2.site?) (i : Nat) :
        (Node.listingItems i ns).filterMap (fun row => row.2.site?) = ns.flatMap below := by
      induction ns generalizing i with
      | nil => rfl
      | cons m ns ih_ns =>
        obtain ⟨first, later⟩ := List.forall_mem_cons.mp each
        rw [Node.listingItems, List.filterMap_append, List.filterMap_map, ih_ns later,
          List.flatMap_cons, first]
        rfl
    rw [below_eq_values, Node.listing_eq, List.filterMap_cons, items _ ih]
    cases n.site? <;> rfl

end RefSite

/-! ### Trees that can be read back -/

/-- The keys are different and can be read back, and the items have indices that can be. -/
structure Node.Plain (n : Node) : Prop where
  distinct : (n.pairs.map (·.1.text)).Nodup
  readable : ∀ pair ∈ n.pairs, Fragment.Readable pair.1.text
  /-- An index is a number of 64 bits, so no sequence has more items. -/
  short : n.items.length ≤ 2 ^ 64

/-- So it is at every position of the tree. -/
def Node.PlainBelow (root : Node) : Prop :=
  ∀ position n, root.at? position = some n → n.Plain

theorem Node.PlainBelow.here {n : Node} (plain : n.PlainBelow) : n.Plain := plain [] n rfl

theorem Node.PlainBelow.value {n v : Node} (plain : n.PlainBelow) (member : v ∈ n.values) :
    v.PlainBelow := by
  obtain ⟨i, there⟩ := List.mem_iff_getElem?.mp member
  exact fun position m found => plain (i :: position) m (by rw [Node.at?, there]; exact found)

/-- The path to a place leads there. -/
theorem Place.At.walked {fragment : String} {key : Option Node} {n : Node} {place : Place}
    (place_at : Place.At fragment key n place) (plain : n.PlainBelow) :
    ∃ path, place.fragment = fragment ++ Fragment.ofSegments path ∧
      (∀ segment ∈ path, Fragment.Readable segment) ∧
      n.atSegments? path = some place.node.resolveAlias := by
  induction place_at with
  | here fragment key n => exact ⟨[], by simp [Fragment.ofSegments], by simp, rfl⟩
  | @value fragment key info pairs k v place member _ ih =>
    obtain ⟨path, written, readable, walked⟩ :=
      ih (plain.value (List.mem_map_of_mem (f := (·.2)) member))
    refine ⟨k.text :: path, ?_, ?_, ?_⟩
    · rw [written, Fragment.ofSegments_cons]
      simp only [String.append_assoc]
    · exact List.forall_mem_cons.mpr ⟨plain.here.readable (k, v) member, readable⟩
    · have there : (Node.mapping info pairs).findKey? k.text = some (k, v) :=
        (Node.findKey?_eq_some_iff plain.here.distinct).mpr ⟨member, rfl⟩
      calc (k.text :: path).foldlM Node.child? (.mapping info pairs)
        _ = path.foldlM Node.child? v.resolveAlias := by
            rw [List.foldlM_cons, Node.child?, there]
            rfl
        _ = some place.node.resolveAlias := walked
  | @item fragment key info items position n place there _ ih =>
    obtain ⟨path, written, readable, walked⟩ := ih (plain.value (List.mem_of_getElem? there))
    refine ⟨toString position :: path, ?_, ?_, ?_⟩
    · rw [written, Fragment.ofSegments_cons, Fragment.escape_toString]
      simp only [String.append_assoc]
    · exact List.forall_mem_cons.mpr ⟨Fragment.readable_toString position, readable⟩
    · have bound : position < items.length := (List.getElem?_eq_some_iff.mp there).1
      have fits : position < 2 ^ 64 := Nat.lt_of_lt_of_le bound plain.here.short
      calc (toString position :: path).foldlM Node.child? (.sequence info items)
        _ = path.foldlM Node.child? n.resolveAlias := by
            rw [List.foldlM_cons, Node.child?, Node.itemAt?_toString fits, there]
            rfl
        _ = some place.node.resolveAlias := walked

/-! ### What the catalogue knows -/

namespace Catalog

variable {location : Option String} {root : Node} {fragment : String} {r : Reference}

/-- The table of places does not contradict the walk. -/
theorem atFragment?_of_get? (plain : root.unwrapDocument.PlainBelow)
    (found : (ofDocument location root).places.get? fragment = some r) :
    root.atFragment? fragment = some r.node.resolveAlias := by
  obtain ⟨place, rfl, node, place_at⟩ := exists_place_of_get? found
  obtain ⟨path, written, readable, walked⟩ := place_at.walked plain
  rw [Node.atFragment?, written, String.empty_append, Fragment.segments_ofSegments readable, node]
  exact walked

theorem find?_eq : (ofDocument location root).find? fragment =
    ((ofDocument location root).places.get? fragment).or ((root.atFragment? fragment).map fun n =>
      .ofPlace location (Fragment.ofSegments (Fragment.segments fragment)) n none) := by
  simp only [find?, Node.atFragment?, Option.map_eq_bind]
  rfl

theorem find?_eq_some (plain : root.unwrapDocument.PlainBelow)
    (found : (ofDocument location root).find? fragment = some r) :
    ∃ n, root.atFragment? fragment = some n ∧ (r.node = n ∨ r.node.resolveAlias = n) := by
  rw [find?_eq] at found
  rcases Option.or_eq_some_iff.mp found with place | ⟨_, walked⟩
  · exact ⟨_, atFragment?_of_get? plain place, .inr rfl⟩
  · obtain ⟨n, there, rfl⟩ := Option.map_eq_some_iff.mp walked
    exact ⟨n, there, .inl rfl⟩

theorem isNone_find? (plain : root.unwrapDocument.PlainBelow) (fragment : String) :
    ((ofDocument location root).find? fragment).isNone = (root.atFragment? fragment).isNone := by
  cases found : (ofDocument location root).find? fragment with
  | some r =>
    obtain ⟨n, walked, _⟩ := find?_eq_some plain found
    simp [walked]
  | none =>
    rw [find?_eq] at found
    have nowhere := (Option.or_eq_none_iff.mp found).2
    simp [Option.map_eq_none_iff.mp nowhere]

end Catalog

/-! ### What the index knows -/

/-- The reference as it was before cycles were looked for. -/
def Reference.unflagged (r : Reference) : Reference := { r with circular := false }

@[simp] theorem Reference.unflagged_onCycle (r : Reference) :
    r.onCycle.unflagged = r.unflagged := rfl

@[simp] theorem Reference.raw_unflagged (r : Reference) : r.unflagged.raw = r.raw := rfl

@[simp] theorem Reference.definition_unflagged (r : Reference) :
    r.unflagged.definition = r.definition := rfl

theorem Reference.unflagged_of_circular {r : Reference} (plain : r.circular = false) :
    r.unflagged = r := by
  rw [unflagged, ← plain]

theorem RefSite.circular_toReference (site : RefSite) (location : Option String)
    (base : Option Location.Url) : (site.toReference location base).circular = false := rfl

namespace Index

variable (config : Config) (location : Option String) (registry : Option Registry) (root : Node)

/-- The references of a document, before cycles are looked for. -/
def firstSites : List Reference :=
  (RefSite.below root.unwrapDocument).map fun site => site.toReference location config.baseUrl

/-- The references of an index are those sites, some of them flagged. -/
theorem sites_build : ∃ flag : Reference → Reference, (∀ r, flag r = r ∨ flag r = r.onCycle) ∧
    (build config location registry root).sites = (firstSites config location root).map flag := by
  refine ⟨_, fun r => ?_, rfl⟩
  dsimp only
  split
  · exact .inr rfl
  · exact .inl rfl

/-- The reference has no text, or leads nowhere in the document itself. -/
def leadsNowhere (catalog : Catalog) (site : Reference) : Bool :=
  site.raw.isEmpty || (catalog.isLocal (Location.splitPointer site.definition).1 &&
    (catalog.find? (Location.splitPointer site.definition).2).isNone)

theorem outcome_eq_unresolved_iff {catalog : Catalog} {site : Reference} :
    outcome catalog registry site = .unresolved ↔ leadsNowhere catalog site = true := by
  unfold outcome leadsNowhere
  dsimp only
  split
  next empty => simp [empty]
  next written =>
    split
    next inside =>
      cases catalog.find? (Location.splitPointer site.definition).2 <;> simp [written, inside]
    next outside =>
      cases registry.bind (·.find? site.definition) <;> simp [written, outside]

theorem unresolved_build : (build config location registry root).unresolved =
    (firstSites config location root).filter (leadsNowhere (Catalog.ofDocument location root)) := by
  have each (sites : List Reference) :
      unresolvedOf (sites.map fun site =>
        (site, outcome (Catalog.ofDocument location root) registry site)) =
          sites.filter (leadsNowhere (Catalog.ofDocument location root)) := by
    rw [unresolvedOf, List.filterMap_map, ← List.filterMap_eq_filter]
    refine List.filterMap_congr fun site _ => ?_
    have decides : outcome (Catalog.ofDocument location root) registry site = .unresolved ↔ _ :=
      outcome_eq_unresolved_iff registry
    dsimp only [Function.comp_apply]
    split
    next unresolved => simp [Option.guard, decides.mp unresolved]
    next other =>
      have leads := mt decides.mpr other
      simp [Option.guard, leads]
  exact each (firstSites config location root)

section Outcomes

variable {config location root}

theorem unflagged_sites : (build config location registry root).sites.map Reference.unflagged =
    firstSites config location root := by
  obtain ⟨flag, flags, sites⟩ := sites_build config location registry root
  rw [sites, List.map_map]
  refine (List.map_congr_left fun first member => ?_).trans (List.map_id _)
  obtain ⟨site, _, rfl⟩ := List.mem_map.mp member
  have plain := Reference.unflagged_of_circular (site.circular_toReference location config.baseUrl)
  rcases flags (site.toReference location config.baseUrl) with same | same <;> simp [same, plain]

theorem mem_firstSites_iff {first : Reference} : first ∈ firstSites config location root ↔
    ∃ site ∈ (build config location registry root).sites, site.unflagged = first := by
  rw [← unflagged_sites registry, List.mem_map]

/-- What a pointer is mapped to when no other documents are there. -/
theorem get?_firstMapped_iff {pointer : String} {r : Reference} :
    (firstMapped config location none root).get? pointer = some r ↔
      (∃ first ∈ firstSites config location root, first.definition = pointer ∧
          first.raw.isEmpty = false) ∧
        (Catalog.ofDocument location root).isLocal (Location.splitPointer pointer).1 = true ∧
        ∃ place, (Catalog.ofDocument location root).find? (Location.splitPointer pointer).2 =
          some place ∧ { place with definition := pointer } = r := by
  rw [firstMapped, get?_mappedOf_iff, target?]
  refine and_congr Iff.rfl ?_
  split
  next inside => simp [inside, Option.map_eq_some_iff]
  next outside => simp [outside]

end Outcomes

/-! ### The tables -/

section Tables

variable {config location root}

theorem map_some_filterMap {α β : Type} (f : α → Option β) (xs : List α) :
    (xs.filterMap f).map some = (xs.filter fun x => (f x).isSome).map f := by
  induction xs with
  | nil => rfl
  | cons x xs ih => cases found : f x <;> simp [found, ih]

/-- The sites are at ascending positions, and at all positions where the tree has one. -/
theorem sites_listed : ∃ positions : List (List Nat), positions.Pairwise (· < ·) ∧
    (∀ position, position ∈ positions ↔
      (root.unwrapDocument.siteAt? position).isSome = true) ∧
    (build config location registry root).sites.map (fun site => some site.unflagged) =
      positions.map fun position => (root.unwrapDocument.siteAt? position).map
        (·.toReference location config.baseUrl) := by
  let rows := root.unwrapDocument.listing.filter fun row => row.2.site?.isSome
  have at_row {row : List Nat × Node} (member : row ∈ rows) :
      root.unwrapDocument.siteAt? row.1 = row.2.site? := by
    rw [Node.siteAt?, Node.mem_listing_iff.mp (List.mem_filter.mp member).1]
    rfl
  refine ⟨rows.map (·.1), ?_, fun position => ?_, ?_⟩
  · exact List.pairwise_map.mpr (root.unwrapDocument.ordered_listing.filter _)
  · constructor
    · intro member
      obtain ⟨row, listed, rfl⟩ := List.mem_map.mp member
      rw [at_row listed]
      exact (List.mem_filter.mp listed).2
    · intro there
      obtain ⟨site, found⟩ := Option.isSome_iff_exists.mp there
      obtain ⟨n, at_position, of_node⟩ := Option.bind_eq_some_iff.mp found
      refine List.mem_map.mpr ⟨(position, n), List.mem_filter.mpr ⟨?_, by simp [of_node]⟩, rfl⟩
      exact Node.mem_listing_iff.mpr at_position
  · calc (build config location registry root).sites.map (fun site => some site.unflagged)
      _ = (firstSites config location root).map some := by
          rw [← unflagged_sites registry, List.map_map]
          rfl
      _ = ((root.unwrapDocument.listing.filterMap fun row => row.2.site?).map some).map
            (Option.map (·.toReference location config.baseUrl)) := by
          rw [firstSites, RefSite.below_eq_listing, List.map_map, List.map_map]
          rfl
      _ = rows.map fun row => row.2.site?.map (·.toReference location config.baseUrl) := by
          rw [map_some_filterMap, List.map_map]
          rfl
      _ = (rows.map (·.1)).map fun position => (root.unwrapDocument.siteAt? position).map
            (·.toReference location config.baseUrl) := by
          rw [List.map_map]
          exact List.map_congr_left fun row member => by rw [Function.comp_apply, at_row member]

/-- A pointer without document part leads into the document itself. -/
theorem inside_of_own (clear : ∀ path, location = some path → '#' ∉ path.toList)
    {site : Reference} (member : site ∈ (build config location registry root).sites)
    (own : (Location.splitPointer site.raw).1 = "") :
    (build config location registry root).isLocal
        (Location.splitPointer site.definition).1 = true ∧
      (Location.splitPointer site.definition).2 = (Location.splitPointer site.raw).2 := by
  obtain ⟨written, _, first⟩ :=
    List.mem_map.mp ((mem_firstSites_iff registry).mpr ⟨site, member, rfl⟩)
  have raw : written.value.text = site.raw := congrArg Reference.raw first
  have definition : Location.absolutePointer site.raw location config.baseUrl =
      site.definition := by
    rw [← raw]
    exact congrArg Reference.definition first
  rw [← definition, Location.splitPointer_absolutePointer own clear]
  refine ⟨?_, rfl⟩
  rw [isLocal_build]
  cases location <;> simp [Catalog.isLocal, Catalog.ofDocument]

variable (plain : root.unwrapDocument.PlainBelow)

include plain

/-- A site whose walk comes to a node is mapped to that node, which may still be an alias there. -/
theorem mapped_of_walk {site : Reference}
    (member : site ∈ (build config location none root).sites) (written : site.raw ≠ "")
    (inside : (build config location none root).isLocal
      (Location.splitPointer site.definition).1 = true) {n : Node}
    (walked : root.atFragment? (Location.splitPointer site.definition).2 = some n) :
    ∃ r, (build config location none root).mapped.get? site.definition = some r ∧
      r.definition = site.definition ∧ (r.node = n ∨ r.node.resolveAlias = n) := by
  have listed : site.unflagged ∈ firstSites config location root :=
    (mem_firstSites_iff none).mpr ⟨site, member, rfl⟩
  cases found : (Catalog.ofDocument location root).find?
      (Location.splitPointer site.definition).2 with
  | none =>
    have nowhere : ((Catalog.ofDocument location root).find?
        (Location.splitPointer site.definition).2).isNone = _ := Catalog.isNone_find? plain _
    rw [walked, found] at nowhere
    simp at nowhere
  | some place =>
    obtain ⟨m, there, node⟩ := Catalog.find?_eq_some plain found
    obtain rfl : n = m := Option.some.inj (walked.symm.trans there)
    have leads : (firstMapped config location none root).get? site.definition =
        some { place with definition := site.definition } :=
      get?_firstMapped_iff.mpr ⟨⟨site.unflagged, listed, rfl, by simpa using written⟩, inside,
        place, found, rfl⟩
    rw [mapped_build, Table.get?_mapValues, leads]
    refine ⟨_, rfl, ?_⟩
    split
    · exact ⟨rfl, node⟩
    · exact ⟨rfl, node⟩

/-- Nothing else is mapped. -/
theorem site_of_mapped {pointer : String} {r : Reference}
    (found : (build config location none root).mapped.get? pointer = some r) :
    ∃ site ∈ (build config location none root).sites, site.definition = pointer ∧ site.raw ≠ "" ∧
      (build config location none root).isLocal (Location.splitPointer pointer).1 = true ∧
      (root.atFragment? (Location.splitPointer pointer).2).isSome = true := by
  rw [mapped_build, Table.get?_mapValues] at found
  obtain ⟨first, leads, _⟩ := Option.map_eq_some_iff.mp found
  obtain ⟨⟨_, listed, rfl, written⟩, inside, place, there, _⟩ := get?_firstMapped_iff.mp leads
  obtain ⟨site, member, rfl⟩ := (mem_firstSites_iff none).mp listed
  obtain ⟨n, walked, _⟩ := Catalog.find?_eq_some plain there
  refine ⟨site, member, rfl, by simpa using written, inside, ?_⟩
  exact Option.isSome_iff_exists.mpr ⟨n, walked⟩

/-- In the order of the sites those without text are unresolved, and those whose walk in the
document itself comes to nothing. -/
theorem unresolved_eq : (build config location registry root).unresolved =
    ((build config location registry root).sites.filter fun site => site.raw.isEmpty ||
      (build config location registry root).isLocal (Location.splitPointer site.definition).1 &&
        (root.atFragment? (Location.splitPointer site.definition).2).isNone).map
          Reference.unflagged := by
  have same (site : Reference) : leadsNowhere (Catalog.ofDocument location root) site =
      (site.raw.isEmpty ||
        (Catalog.ofDocument location root).isLocal (Location.splitPointer site.definition).1 &&
          (root.atFragment? (Location.splitPointer site.definition).2).isNone) := by
    rw [leadsNowhere, Catalog.isNone_find? plain]
  rw [unresolved_build, ← unflagged_sites registry, List.filter_map]
  exact congrArg (List.map Reference.unflagged) (List.filter_congr fun site _ => same site)

end Tables

open Location in
/-- A document whose keys can be read back is indexed alone, at no location or at one without hash
sign. Then

- its references are the sites of the tree, each once and in document order;
- a pointer without document part leads into the document itself, by its own fragment;
- a reference with text that leads into the document is mapped to the node that the walk along its
  fragment comes to, or to an alias of it;
- nothing else is mapped;
- the references without text, and those into the document whose walk comes to nothing, are
  unresolved, in the order of the references, and no others. -/
theorem tables_of_walk (config : Config) (location : Option String)
    (clear : ∀ path, location = some path → '#' ∉ path.toList) (root : Node)
    (plain : root.unwrapDocument.PlainBelow) :
    let ix := build config location none root
    let inside (pointer : String) : Bool := ix.isLocal (splitPointer pointer).1
    let walk (pointer : String) : Option Node := root.atFragment? (splitPointer pointer).2
    (∃ positions : List (List Nat), positions.Pairwise (· < ·) ∧
      (∀ position, position ∈ positions ↔
        (root.unwrapDocument.siteAt? position).isSome = true) ∧
      ix.sites.map (fun site => some site.unflagged) =
        positions.map fun position => (root.unwrapDocument.siteAt? position).map
          (·.toReference location config.baseUrl)) ∧
    (∀ site ∈ ix.sites, (splitPointer site.raw).1 = "" → inside site.definition = true ∧
      (splitPointer site.definition).2 = (splitPointer site.raw).2) ∧
    (∀ site ∈ ix.sites, site.raw ≠ "" → inside site.definition = true →
      ∀ n, walk site.definition = some n → ∃ r, ix.mapped.get? site.definition = some r ∧
        r.definition = site.definition ∧ (r.node = n ∨ r.node.resolveAlias = n)) ∧
    (∀ pointer r, ix.mapped.get? pointer = some r → ∃ site ∈ ix.sites,
      site.definition = pointer ∧ site.raw ≠ "" ∧ inside pointer = true ∧
        (walk pointer).isSome = true) ∧
    ix.unresolved = (ix.sites.filter fun site => site.raw.isEmpty ||
      inside site.definition && (walk site.definition).isNone).map Reference.unflagged := by
  refine ⟨sites_listed none, ?_, ?_, ?_, unresolved_eq none plain⟩
  · exact fun site member own => inside_of_own none clear member own
  · exact fun site member written inside n walked =>
      mapped_of_walk plain member written inside walked
  · exact fun pointer r found => site_of_mapped plain found

end Index

instance (segment : String) : Decidable (Fragment.Readable segment) :=
  decidable_of_iff (segment ≠ "" ∧ '%' ∉ segment.toList)
    ⟨fun ⟨written, plain⟩ => ⟨written, plain⟩, fun ⟨written, plain⟩ => ⟨written, plain⟩⟩

instance (n : Node) : Decidable n.Plain :=
  decidable_of_iff ((n.pairs.map (·.1.text)).Nodup ∧
      (∀ pair ∈ n.pairs, Fragment.Readable pair.1.text) ∧ n.items.length ≤ 2 ^ 64)
    ⟨fun ⟨distinct, readable, short⟩ => ⟨distinct, readable, short⟩,
      fun ⟨distinct, readable, short⟩ => ⟨distinct, readable, short⟩⟩

theorem Node.plainBelow_of_listing {root : Node} (all : ∀ row ∈ root.listing, row.2.Plain) :
    root.PlainBelow :=
  fun position n found => all (position, n) (Node.mem_listing_iff.mpr found)

/-- The same item under its written fragment, behind an alias and with another index, and references
that lead nowhere. -/
def spelled : Node := Build.runNew do
  let items ← Build.sequence [← Build.string "one"]
  Build.object [
    ("a/b", pure items),
    ("copy", Build.aliasTo items),
    ("hit", Build.reference "#/a~1b/0"),
    ("slow", Build.reference "#/copy/00"),
    ("missing", Build.reference "#/none"),
    ("blank", Build.reference ""),
    ("away", Build.reference "other.yaml#/x")]

theorem Index.tables_of_walk_spelled :
    let ix := build {} none none spelled
    ix.sites.map (·.raw) = ["#/a~1b/0", "#/copy/00", "#/none", "", "other.yaml#/x"] ∧
      ix.mapped.keys = ["#/copy/00", "#/a~1b/0"] ∧
      ix.unresolved.map (·.raw) = ["#/none", ""] ∧
      ix.unresolved = (ix.sites.filter fun site => site.raw.isEmpty ||
        ix.isLocal (Location.splitPointer site.definition).1 &&
          (spelled.atFragment? (Location.splitPointer site.definition).2).isNone).map
            Reference.unflagged := by
  intro ix
  have plain : spelled.unwrapDocument.PlainBelow :=
    Node.plainBelow_of_listing (by decide +kernel)
  obtain ⟨_, _, _, _, unresolved⟩ := tables_of_walk {} none (by simp) spelled plain
  exact ⟨by decide +kernel, by decide +kernel, by decide +kernel, unresolved⟩

end DocRefs
