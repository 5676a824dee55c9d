import DocRefs.Node.Build
import DocRefs.Proofs.Index.Listed

/-!
# Walks through one document

The plain walk takes the text of a reference, makes it absolute, and goes on from the node that this
pointer designates in the document. It looks into no table and knows of no cycle. Resolution takes
the same hops as long as its tables know the pointers and no finding knows the places.
-/
namespace DocRefs

/-- One hop of the plain walk, with the place that it comes to. -/
structure Hop where
  pointer : String
  place : Node

namespace Index

/-- The node of the document itself that an absolute pointer designates. -/
def designated? (ix : Index) (pointer : String) : Option Node :=
  if ix.isLocal (Location.splitPointer pointer).1 then
    (ix.find? (Location.splitPointer pointer).2).map (·.node)
  else none

/-- The hop from a reference into the document itself; an empty text names nothing. -/
def plainHop? (ix : Index) (n : Node) : Option Hop := do
  let written ← n.refText?
  if written.isEmpty then none
  else
    let place ← ix.designated? (ix.absolute written)
    return ⟨ix.absolute written, place⟩

/-- The first hop leads on from the node, and every other one from the place before it. -/
inductive Trail (ix : Index) : Node → List Hop → Prop
  | stay (n : Node) : Trail ix n []
  | hop {n : Node} {h : Hop} {rest : List Hop} (plain : ix.plainHop? n = some h)
      (later : Trail ix h.place rest) : Trail ix n (h :: rest)

theorem Trail.head {ix : Index} {n : Node} {h : Hop} {rest : List Hop}
    (trail : ix.Trail n (h :: rest)) : ix.plainHop? n = some h := by
  cases trail with
  | hop plain later => exact plain

theorem Trail.tail {ix : Index} {n : Node} {h : Hop} {rest : List Hop}
    (trail : ix.Trail n (h :: rest)) : ix.Trail h.place rest := by
  cases trail with
  | hop plain later => exact later

/-- The first hops of the walk from a node. -/
def plainWalk (ix : Index) : Nat → Node → List Hop
  | 0, _ => []
  | hops + 1, n =>
    match ix.plainHop? n with
    | none => []
    | some h => h :: ix.plainWalk hops h.place

theorem trail_plainWalk (ix : Index) (hops : Nat) (n : Node) :
    ix.Trail n (ix.plainWalk hops n) := by
  induction hops generalizing n with
  | zero => exact .stay n
  | succ hops ih =>
    unfold plainWalk
    split
    · exact .stay n
    next h plain => exact .hop plain (ih h.place)

/-- The pointer is mapped, or its fragment is written like that of a place. -/
def Knows (ix : Index) (pointer : String) : Prop :=
  ix.mapped.contains pointer = true ∨
    ix.places.contains (Location.splitPointer pointer).2 = true

/-- The pointer is known, or it has a path that can be searched for. -/
def Finds (ix : Index) (pointer : String) : Prop :=
  ix.Knows pointer ∨ Fragment.segments (Location.splitPointer pointer).2 ≠ []

instance (ix : Index) (pointer : String) : Decidable (ix.Knows pointer) :=
  inferInstanceAs (Decidable (_ ∨ _))

instance (ix : Index) (pointer : String) : Decidable (ix.Finds pointer) :=
  inferInstanceAs (Decidable (_ ∨ _))

/-- The place of a hop, when resolution rests there. -/
def restingAt (ix : Index) (h : Hop) : Located :=
  { node := h.place, index := ix, context := {}, pointer := h.pointer }

theorem not_knows_iff {ix : Index} {pointer : String} :
    ¬ ix.Knows pointer ↔ ix.mapped.get? pointer = none ∧
      ix.places.get? (Location.splitPointer pointer).2 = none := by
  simp [Knows, Table.contains]

theorem designated?_eq_some {ix : Index} {pointer : String} {place : Node}
    (there : ix.designated? pointer = some place) :
    ix.isLocal (Location.splitPointer pointer).1 = true ∧
      ∃ r, ix.find? (Location.splitPointer pointer).2 = some r ∧ r.node = place := by
  unfold designated? at there
  split at there
  next inside =>
    obtain ⟨r, found, node⟩ := Option.map_eq_some_iff.mp there
    exact ⟨inside, r, found, node⟩
  · simp at there

theorem plainHop?_eq_some {ix : Index} {n : Node} {h : Hop} (plain : ix.plainHop? n = some h) :
    ∃ key written, n.refEntry? = some (key, written) ∧ written.text.isEmpty = false ∧
      h.pointer = ix.absolute written.text ∧ ix.designated? h.pointer = some h.place := by
  unfold plainHop? at plain
  simp only [Option.bind_eq_bind, Option.bind_eq_some_iff, Option.ite_none_left_eq_some] at plain
  obtain ⟨text, reads, some_text, place, there, same⟩ := plain
  obtain ⟨⟨key, written⟩, entry, rfl⟩ := Option.map_eq_some_iff.mp reads
  obtain rfl := Option.some.inj same
  dsimp only at some_text there ⊢
  exact ⟨key, written, entry, by simpa using some_text, rfl, there⟩

theorem isRef_of_plainHop? {ix : Index} {n : Node} {h : Hop} (plain : ix.plainHop? n = some h) :
    n.isRef = true := by
  obtain ⟨key, written, entry, _⟩ := plainHop?_eq_some plain
  simp [Node.isRef, entry]

/-! ### What has a finding -/

/-- A node has a finding if a pointer on a first loop leads to it, or if it is a reference and its
own pointer is on one. -/
theorem findingFor?_isSome_iff {config : Config} {location : Option String}
    {registry : Option Registry} {root : Node} (n : Node) :
    ((build config location registry root).findingFor? n).isSome = true ↔
      (∃ pointer, (build config location registry root).references.OnFirstLoop pointer ∧
        ∃ r, (firstMapped config location registry root).get? pointer = some r ∧
          r.node.isSame n = true) ∨
      ∃ text, n.refText? = some text ∧
        (build config location registry root).references.OnFirstLoop
          ((build config location registry root).absolute text) := by
  rw [findingFor?, Option.isSome_or, Bool.or_eq_true, List.find?_isSome]
  refine or_congr ?_ ?_
  · refine Iff.trans ?_ (exists_journey_iff fun r => r.node.isSame n = true)
    refine exists_congr fun f => and_congr_right fun listed => ?_
    exact Finding.containsNode_iff (loop_mem_of_mem_findings listed) n
  · cases written : n.refText? with
    | none => simp
    | some text =>
      simp only [Option.bind_eq_bind, Option.bind_some, List.find?_isSome, Option.some.injEq,
        exists_eq_left', ← mem_journey_iff]
      refine exists_congr fun f => and_congr_right fun listed => ?_
      exact Finding.containsDefinition_iff (loop_mem_of_mem_findings listed) _

/-! ### What the tables answer -/

section Alone

variable {config : Config} {root : Node} {pointer : String} {place : Node}

theorem node_of_mapped {r : Reference}
    (there : (ofDocument config root).designated? pointer = some place)
    (found : (ofDocument config root).mapped.get? pointer = some r) : r.node = place := by
  obtain ⟨inside, target, leads, node⟩ := designated?_eq_some there
  rw [ofDocument, mapped_build, Table.get?_mapValues] at found
  obtain ⟨first, known, rfl⟩ := Option.map_eq_some_iff.mp found
  obtain ⟨_, _, other, same, first_node⟩ := firstMapped_local inside known
  obtain rfl : other = target := Option.some.inj (same.symm.trans leads)
  split <;> simp [Reference.onCycle, first_node, node]

theorem listed?_ofDocument
    (inside : (ofDocument config root).isLocal (Location.splitPointer pointer).1 = true) :
    (ofDocument config root).listed? pointer =
      (ofDocument config root).places.get? (Location.splitPointer pointer).2 :=
  listed?_build inside

/-- A known pointer is answered with the node that it designates. -/
theorem answer?_of_knows (registry : Registry) (context : Context)
    (there : (ofDocument config root).designated? pointer = some place)
    (known : (ofDocument config root).Knows pointer) :
    ∃ r, (ofDocument config root).answer? registry pointer context = some ⟨r, none, context⟩ ∧
      r.node = place := by
  obtain ⟨inside, target, leads, node⟩ := designated?_eq_some there
  have node_of_place {r : Reference} (found : (ofDocument config root).places.get?
      (Location.splitPointer pointer).2 = some r) : r.node = place := by
    have same : r = target := by simpa [Catalog.find?, found] using leads
    rw [same, node]
  rw [answer?_of_local registry context inside, listed?_ofDocument inside]
  -- The tables are asked in turn; each of them holds the place itself or a copy of it.
  cases mapped : (ofDocument config root).mapped.get? pointer with
  | some r => exact ⟨r, rfl, node_of_mapped there mapped⟩
  | none =>
    have placed : (ofDocument config root).places.contains
        (Location.splitPointer pointer).2 = true := by
      simpa [Knows, Table.contains, mapped] using known
    obtain ⟨r, found⟩ := Option.isSome_iff_exists.mp placed
    exact ⟨r, by rw [Option.none_or, found]; rfl, node_of_place found⟩

theorem answer?_of_not_knows (registry : Registry) (context : Context)
    (there : (ofDocument config root).designated? pointer = some place)
    (unknown : ¬ (ofDocument config root).Knows pointer) :
    (ofDocument config root).answer? registry pointer context = none := by
  obtain ⟨mapped, placed⟩ := not_knows_iff.mp unknown
  have inside := (designated?_eq_some there).1
  rw [answer?_of_local registry context inside, listed?_ofDocument inside, mapped, placed]
  rfl

theorem search?_of_not_knows
    (there : (ofDocument config root).designated? pointer = some place)
    (unknown : ¬ (ofDocument config root).Knows pointer)
    (path : Fragment.segments (Location.splitPointer pointer).2 ≠ []) :
    (ofDocument config root).search? pointer = some place := by
  obtain ⟨_, placed⟩ := not_knows_iff.mp unknown
  obtain ⟨_, target, found, rfl⟩ := designated?_eq_some there
  -- Without an entry of its own the fragment designates what its path leads to.
  simp only [Catalog.find?, placed, Option.none_or, Option.bind_eq_bind,
    Option.bind_eq_some_iff] at found
  obtain ⟨node, walked, same⟩ := found
  rw [← Option.some.inj same]
  simp [search?, path, walked, Reference.ofPlace]

/-! ### Single hops -/

section Hops

variable {n : Node} {h : Hop} (registry : Registry) (hops : Nat)

theorem pointerIn_empty (ix : Index) (text : String) : ix.pointerIn {} text = ix.absolute text := by
  simp [pointerIn, absolute]

/-- A hop to a known pointer arrives at its place, and only a finding keeps it from going on. -/
theorem hop_of_knows (plain : (ofDocument config root).plainHop? n = some h)
    (known : (ofDocument config root).Knows h.pointer) :
    ∃ key written, n.refEntry? = some (key, written) ∧
      (ofDocument config root).hop registry {} written =
        match if h.place.isRef then (ofDocument config root).findingFor? h.place else none with
        | none => .ok ((ofDocument config root).restingAt h, h.place.isRef)
        | some finding => .ok ({ (ofDocument config root).restingAt h with
            onCycle := true
            circular := if config.allowCircular then none
              else some (.circular finding.path written.position) }, false) := by
  obtain ⟨key, written, entry, some_text, pointer, there⟩ := plainHop?_eq_some plain
  obtain ⟨r, answers, node⟩ := answer?_of_knows registry {} there known
  refine ⟨key, written, entry, ?_⟩
  rw [pointer] at answers
  have allow : (ofDocument config root).config.allowCircular = config.allowCircular := rfl
  cases reference : h.place.isRef with
  | false =>
    simp [hop, some_text, pointerIn_empty, answers, arrive, node, restingAt, pointer, reference]
  | true =>
    cases found : (ofDocument config root).findingFor? h.place <;>
      simp [hop, some_text, pointerIn_empty, answers, arrive, node, restingAt, pointer,
        reference, found, allow]

theorem locateWithin_passing (plain : (ofDocument config root).plainHop? n = some h)
    (known : (ofDocument config root).Knows h.pointer) (reference : h.place.isRef = true)
    (clear : (ofDocument config root).findingFor? h.place = none) :
    locateWithin registry (hops + 1) n (ofDocument config root) {} =
      locateWithin registry hops h.place (ofDocument config root) {} := by
  obtain ⟨key, written, entry, goes⟩ := hop_of_knows registry plain known
  simp [locateWithin, entry, goes, reference, clear, restingAt]

theorem locateWithin_flagged (plain : (ofDocument config root).plainHop? n = some h)
    (known : (ofDocument config root).Knows h.pointer) (reference : h.place.isRef = true)
    (flagged : ((ofDocument config root).findingFor? h.place).isSome = true) :
    ∃ l, locateWithin registry (hops + 1) n (ofDocument config root) {} = .ok (some l) ∧
      l.onCycle = true ∧ (l.circular.isSome = true ↔ config.allowCircular = false) := by
  obtain ⟨key, written, entry, goes⟩ := hop_of_knows registry plain known
  obtain ⟨finding, found⟩ := Option.isSome_iff_exists.mp flagged
  simp only [reference, if_true, found] at goes
  simp only [locateWithin, entry, goes]
  refine ⟨_, rfl, rfl, ?_⟩
  cases config.allowCircular <;> simp

/-- Resolution rests at a place that is no reference, and at any that has to be searched for. -/
theorem locateWithin_resting (plain : (ofDocument config root).plainHop? n = some h)
    (finds : (ofDocument config root).Finds h.pointer)
    (rests : (ofDocument config root).Knows h.pointer → h.place.isRef = false) :
    locateWithin registry (hops + 1) n (ofDocument config root) {} =
      .ok (some ((ofDocument config root).restingAt h)) := by
  by_cases known : (ofDocument config root).Knows h.pointer
  · obtain ⟨key, written, entry, goes⟩ := hop_of_knows registry plain known
    simp [locateWithin, entry, goes, rests known]
  · obtain ⟨key, written, entry, some_text, pointer, there⟩ := plainHop?_eq_some plain
    have unanswered := answer?_of_not_knows registry {} there known
    have search := search?_of_not_knows there known (finds.resolve_left known)
    rw [pointer] at unanswered search
    simp [locateWithin, entry, hop, some_text, pointerIn_empty, unanswered, search, restingAt,
      pointer]

theorem locateWithin_lost (plain : (ofDocument config root).plainHop? n = some h)
    (lost : ¬ (ofDocument config root).Finds h.pointer) :
    ∃ e, locateWithin registry (hops + 1) n (ofDocument config root) {} = .error e := by
  obtain ⟨unknown, no_path⟩ := not_or.mp lost
  obtain ⟨key, written, entry, some_text, pointer, there⟩ := plainHop?_eq_some plain
  have unanswered := answer?_of_not_knows registry {} there unknown
  rw [pointer] at unanswered no_path
  exact ⟨.notFound written.text written.position, by
    simp [locateWithin, entry, hop, some_text, pointerIn_empty, unanswered, search?,
      not_not.mp no_path]⟩

end Hops

end Alone

end Index

/-! ### Small documents -/

namespace Build

/-- A mapping with strings as keys. -/
def object (entries : List (String × Build Node)) : Build Node := do
  mapping (← entries.mapM fun (key, value) => return (← string key, ← value))

def reference (text : String) : Build Node := object [(referenceKey, string text)]

end Build

def Registry.alone : Registry := { key := ⟨0⟩ }

/-- Where a walk from a pointer starts. -/
def Index.placeAt (ix : Index) (pointer : String) : Node := (ix.designated? pointer).getD default

end DocRefs
