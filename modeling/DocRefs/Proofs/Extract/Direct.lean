import DocRefs.Proofs.Extract.Reported
import DocRefs.Proofs.Node.Merged

/-!
# Extraction by label and extraction of a node

A map under a label builds its entries side by side, one from a node builds them one after another.
However the entries are scheduled their outcomes are those of the pairs in document order
(`Slots.outcomes_eq`), so both forms come to the same. Main result: `labelled_as_direct`.
-/
namespace DocRefs

/-! ### Work that is done side by side -/

namespace Slots

variable {α β : Type} {f : α → β} {items : List α} {slots next : List (α × Option β)}

/-- One empty slot for each item. -/
def start (items : List α) : List (α × Option β) := items.map fun item => (item, none)

/-- Some item whose slot is empty is finished. -/
inductive Fill (f : α → β) : List (α × Option β) → List (α × Option β) → Prop
  | mk (before : List (α × Option β)) (item : α) (after : List (α × Option β)) :
    Fill f (before ++ (item, none) :: after) (before ++ (item, some (f item)) :: after)

/-- All slots are full. -/
def Done (slots : List (α × Option β)) : Prop := ∀ slot ∈ slots, slot.2.isSome = true

/-- What is in the slots, in the order of the items. -/
def outcomes (slots : List (α × Option β)) : List β := slots.filterMap (·.2)

/-- The slots are those of the items, and nothing else than their results is in them. -/
structure Right (f : α → β) (items : List α) (slots : List (α × Option β)) : Prop where
  items : slots.map (·.1) = items
  results : ∀ slot ∈ slots, ∀ result, slot.2 = some result → result = f slot.1

theorem right_start (f : α → β) (items : List α) : Right f items (start items) where
  items := by simp [start, Function.comp_def]
  results := by simp [start]

theorem Right.fill (right : Right f items slots) (step : Fill f slots next) :
    Right f items next := by
  obtain ⟨before, item, after⟩ := step
  constructor
  case items => simpa using right.items
  case results =>
    intro slot member result full
    -- The slot that is filled has the result of its item, and the others are as they were.
    rcases List.mem_append.mp member with earlier | here
    · exact right.results slot (List.mem_append_left _ earlier) result full
    · rcases List.mem_cons.mp here with rfl | later
      · exact (Option.some.inj full).symm
      · exact right.results slot (by simp [later]) result full

theorem Right.run (right : Right f items slots) (run : Relation.ReflTransGen (Fill f) slots next) :
    Right f items next := by
  induction run with
  | refl => exact right
  | tail _ step ih => exact ih.fill step

/-- In whatever order the items are finished, the results are theirs in their own order. -/
theorem outcomes_eq (run : Relation.ReflTransGen (Fill f) (start items) slots) (done : Done slots) :
    outcomes slots = items.map f := by
  obtain ⟨rfl, results⟩ := (right_start f items).run run
  -- Slot by slot: what is full holds the result of its own item.
  rw [outcomes, List.map_map, ← List.filterMap_eq_map]
  refine List.filterMap_congr fun slot member => ?_
  obtain ⟨result, full⟩ := Option.isSome_iff_exists.mp (done slot member)
  rw [full, results slot member result full]
  rfl

theorem Fill.cons (slot : α × Option β) (step : Fill f slots next) :
    Fill f (slot :: slots) (slot :: next) := by
  obtain ⟨before, item, after⟩ := step
  exact .mk (slot :: before) item after

/-- Whatever has been finished, the rest can be. -/
theorem exists_done (f : α → β) (slots : List (α × Option β)) :
    ∃ next, Relation.ReflTransGen (Fill f) slots next ∧ Done next := by
  induction slots with
  | nil => exact ⟨[], .refl, by simp [Done]⟩
  | cons slot rest ih =>
    obtain ⟨next, run, done⟩ := ih
    -- The slots behind this one can be filled first.
    have lifted : Relation.ReflTransGen (Fill f) (slot :: rest) (slot :: next) :=
      run.lift (slot :: ·) fun _ _ step => step.cons slot
    obtain ⟨item, content⟩ := slot
    cases content with
    | some result => exact ⟨_, lifted, List.forall_mem_cons.mpr ⟨rfl, done⟩⟩
    | none => exact ⟨_, lifted.tail (.mk [] item next), List.forall_mem_cons.mpr ⟨rfl, done⟩⟩

/-- What finishing the items side by side can come to. -/
def Comes (f : α → β) (items : List α) (results : List β) : Prop :=
  ∃ slots, Relation.ReflTransGen (Fill f) (start items) slots ∧ Done slots ∧
    outcomes slots = results

theorem comes_iff {results : List β} : Comes f items results ↔ results = items.map f := by
  constructor
  · rintro ⟨slots, run, done, rfl⟩
    exact outcomes_eq run done
  · rintro rfl
    obtain ⟨slots, run, done⟩ := exists_done f (start items)
    exact ⟨slots, run, done, outcomes_eq run done⟩

end Slots

section

variable {ρ : Type} [Buildable ρ]

/-! ### Maps under a label -/

/-- What has no pairs gives an empty map, and only the way to it can have failed. -/
theorem buildEntries_of_not_mapping (mark : String) (extensions : Bool) (key : Option Node)
    {entry : Entry} (other : entry.node.isMapping = false) :
    buildEntries (ρ := ρ) mark extensions key entry =
      ⟨⟨.empty, key, some entry.node⟩, entry.circular⟩ := by
  have none_kept : keptPairs mark extensions entry.node = [] := by
    rw [keptPairs, Node.effectivePairs_of_not_mapping other]
    rfl
  rw [buildEntries, none_kept]
  cases circular : entry.circular <;> rfl

section

variable {s : Setting} {label : String} {n key node : Node}
  (there : n.resolveAlias.labelled? label = some (key, node)) (extensions : Bool)

include there

theorem extractMap_of_lost {e : RefError} (failed : Entry.resolve s node .inMap = .error e) :
    extractMap (ρ := ρ) s label n extensions = .error e := by
  simp [extractMap, there, failed, bind, Except.bind]

/-- Leaving early where there is no mapping gives what building from no pairs does. -/
theorem extractMap_of_reached {entry : Entry} (reached : Entry.resolve s node .inMap = .ok entry) :
    extractMap (ρ := ρ) s label n extensions =
      .ok (buildEntries s.index.config.extensionPrefix extensions (some key) entry) := by
  cases shape : entry.node.isMapping with
  | true => simp [extractMap, there, reached, shape, bind, Except.bind, pure, Except.pure]
  | false =>
    rw [buildEntries_of_not_mapping _ _ _ shape]
    simp [extractMap, there, reached, shape, bind, Except.bind, pure, Except.pure]

end

/-- What building the entries of some pairs side by side can come to. -/
def BuiltTogether (s : Setting) (pairs : List (Node × Node))
    (outcomes : List (Outcome (FromKey String × FromNode ρ))) : Prop :=
  ∃ slots, Relation.ReflTransGen (Slots.Fill fun pair => buildEntry s pair.1 pair.2)
    (Slots.start pairs) slots ∧ Slots.Done slots ∧ Slots.outcomes slots = outcomes

theorem builtTogether_iff {s : Setting} {pairs : List (Node × Node)}
    {outcomes : List (Outcome (FromKey String × FromNode ρ))} :
    BuiltTogether s pairs outcomes ↔
      outcomes = pairs.map fun pair => buildEntry s pair.1 pair.2 :=
  Slots.comes_iff

/-- The results of extracting the map under a label when its entries are built side by side. -/
inductive ExtractsMap (s : Setting) (label : String) (n : Node) (extensions : Bool) :
    Except RefError (Partial (ExtractedMap ρ)) → Prop
  | absent (missing : n.resolveAlias.labelled? label = none) :
    ExtractsMap s label n extensions (.ok (.ok {}))
  | lost {key node : Node} {e : RefError}
    (there : n.resolveAlias.labelled? label = some (key, node))
    (failed : Entry.resolve s node .inMap = .error e) : ExtractsMap s label n extensions (.error e)
  | other {key node : Node} {entry : Entry}
    (there : n.resolveAlias.labelled? label = some (key, node))
    (reached : Entry.resolve s node .inMap = .ok entry) (shape : entry.node.isMapping = false) :
    ExtractsMap s label n extensions (.ok ⟨⟨.empty, some key, some entry.node⟩, entry.circular⟩)
  | built {key node : Node} {entry : Entry}
    {outcomes : List (Outcome (FromKey String × FromNode ρ))}
    (there : n.resolveAlias.labelled? label = some (key, node))
    (reached : Entry.resolve s node .inMap = .ok entry) (shape : entry.node.isMapping = true)
    (together : BuiltTogether entry.setting
      (keptPairs s.index.config.extensionPrefix extensions entry.node) outcomes) :
    ExtractsMap s label n extensions
      (.ok ⟨⟨.ofList (Outcome.built outcomes), some key, some entry.node⟩,
        Outcome.error? entry.circular outcomes⟩)

/-- There is one result, which does not depend on the schedule. -/
theorem extractsMap_iff {s : Setting} {label : String} {n : Node} {extensions : Bool}
    {result : Except RefError (Partial (ExtractedMap ρ))} :
    ExtractsMap s label n extensions result ↔ result = extractMap s label n extensions := by
  constructor
  · intro extracts
    cases extracts with
    | absent missing => simp [extractMap, missing]
    | lost there failed => rw [extractMap_of_lost there extensions failed]
    | other there reached shape =>
      rw [extractMap_of_reached there extensions reached, buildEntries_of_not_mapping _ _ _ shape]
    | built there reached shape together =>
      rw [extractMap_of_reached there extensions reached, builtTogether_iff.mp together]
      rfl
  · rintro rfl
    cases there : n.resolveAlias.labelled? label with
    | none =>
      rw [extractMap, there]
      exact .absent there
    | some pair =>
      cases reached : Entry.resolve s pair.2 .inMap with
      | error e =>
        rw [extractMap_of_lost there extensions reached]
        exact .lost there reached
      | ok entry =>
        rw [extractMap_of_reached there extensions reached]
        -- Any finished schedule will do, and there is one.
        cases shape : entry.node.isMapping with
        | false =>
          rw [buildEntries_of_not_mapping _ _ _ shape]
          exact .other there reached shape
        | true => exact .built there reached shape (builtTogether_iff.mpr rfl)

/-! ### What both forms extract -/

/-- The map without the key that it was found under. -/
def ExtractedMap.unkeyed (m : ExtractedMap ρ) : ExtractedMap ρ := { m with key := none }

/-- The built value with its pointer. -/
def FromPair.raw (p : FromPair ρ) : RawObject ρ := ⟨p.value, p.reference⟩

/-- The labelled map is the direct one of what the label stands for. -/
theorem extractMap_unkeyed {s : Setting} {label : String} {n key node v : Node}
    (there : n.resolveAlias.labelled? label = some (key, node))
    (content : v.resolveAlias.unwrapDocument = node) (extensions : Bool) :
    (extractMap (ρ := ρ) s label n extensions).map (Partial.map ExtractedMap.unkeyed) =
      extractMapFrom s v extensions := by
  rw [extractMapFrom, content]
  -- Both forms resolve the same node, and differ in the key that they keep.
  cases reached : Entry.resolve s node .inMap with
  | error e =>
    rw [extractMap_of_lost there extensions reached]
    rfl
  | ok entry =>
    rw [extractMap_of_reached there extensions reached]
    rfl

theorem extractObject_raw {s : Setting} {label : String} {n key node v : Node}
    (there : n.resolveAlias.labelled? label = some (key, node)) (direct : v.resolveAlias = node) :
    (extractObject (ρ := ρ) s label n).map (Partial.map FromPair.raw) =
      extractObjectFrom s (some key) v := by
  rw [extractObject, there, extractObjectFrom, direct]
  dsimp only
  cases reached : Entry.resolve s node .inObject with
  | error e => rfl
  | ok entry =>
    cases made : entry.build (ρ := ρ) (some key) with
    | error e => simp [made, bind, Except.bind, Except.map]
    | ok value =>
      simp [made, bind, Except.bind, pure, Except.pure, Except.map, Partial.map, FromPair.raw]

theorem Node.resolveAlias_of_short {n : Node} (short : n.aliasChain ≤ aliasHops) :
    n.resolveAlias.resolveAlias = n.resolveAlias :=
  resolveAlias_of_not_alias (by rw [resolveAlias, follow_eq_behind short]; exact isAlias_behind n)

theorem Node.labelled?_of_isRef {n : Node} (reference : n.isRef = true) (label : String) :
    ∃ key, n.resolveAlias.labelled? label = some (key, n.resolveAlias) ∧
      n.resolveAlias.unwrapDocument = n.resolveAlias := by
  have solid := isAlias_resolveAlias_of_isRef reference
  obtain ⟨pair, entry⟩ := Option.isSome_iff_exists.mp reference
  have same : n.resolveAlias.refEntry? = some pair := by
    rw [← entry, refEntry?, refEntry?, resolveAlias_of_not_alias solid]
  refine ⟨pair.1, by simp [labelled?, same], unwrapDocument_of_not_document ?_⟩
  -- What has a reference entry is a mapping.
  cases resolved : n.resolveAlias with
  | document info root => simp [resolved, refEntry?, pairs] at entry
  | _ => rfl

/-- A label in a root that is no reference stands for a value that is no document, and before the
value there are no more aliases than are followed. Then extracting under the label gives the same as
extracting from the value:

- for a map, however its entries are scheduled, the same failure, or the same entries in the same
  order with the same node and the same error;
- for an object the same failure, or the same value with the same pointer and the same error.

Where the root is a reference any label gives the map of the root. -/
theorem labelled_as_direct (s : Setting) (root : Node) (label : String) (extensions : Bool) :
    (∃ result, ExtractsMap (ρ := ρ) s label root extensions result) ∧
    (root.isRef = false → ∀ key value, root.resolveAlias.findKey? label = some (key, value) →
      value.aliasChain ≤ aliasHops → value.resolveAlias.isDocument = false →
        (∀ result, ExtractsMap (ρ := ρ) s label root extensions result →
          result.map (Partial.map ExtractedMap.unkeyed) =
            extractMapFrom s value.resolveAlias extensions) ∧
        (extractObject (ρ := ρ) s label root).map (Partial.map FromPair.raw) =
          extractObjectFrom s (some key) value.resolveAlias) ∧
    (root.isRef = true → ∀ result, ExtractsMap (ρ := ρ) s label root extensions result →
      result.map (Partial.map ExtractedMap.unkeyed) = extractMapFrom s root extensions) := by
  refine ⟨⟨_, extractsMap_iff.mpr rfl⟩, fun plain key value found short other => ?_,
    fun reference result extracts => ?_⟩
  · have there := Node.labelled?_eq_some plain found
    -- The value has been followed to its end, so following it again changes nothing.
    have direct : value.resolveAlias.resolveAlias = value.resolveAlias :=
      Node.resolveAlias_of_short short
    constructor
    · intro result extracts
      rw [extractsMap_iff.mp extracts]
      exact extractMap_unkeyed there
        (by rw [direct, Node.unwrapDocument_of_not_document other]) extensions
    · exact extractObject_raw there direct
  · obtain ⟨key, there, content⟩ := Node.labelled?_of_isRef reference label
    rw [extractsMap_iff.mp extracts]
    exact extractMap_unkeyed there content extensions

end

/-- The keys of the built entries, and the error. -/
def keysOf (result : Except RefError (Partial (ExtractedMap Word))) :
    Except RefError (List String × Option RefError) :=
  result.map fun p => (p.value.keys, p.error)

theorem labelled_as_direct_laden :
    let start := laden.pairUnder "start"
    (∀ result, ExtractsMap (ρ := Word) .laden "start" laden true result →
      keysOf result = .ok (["$ref", "list", "gaps"], some (.inMap (.notFound "#/nowhere" {}))) ∧
        result.map (Partial.map ExtractedMap.unkeyed) =
          extractMapFrom .laden start.2.resolveAlias true) ∧
    (extractObject (ρ := Word) .laden "start" laden).map (Partial.map FromPair.raw) =
      extractObjectFrom .laden (some start.1) start.2.resolveAlias ∧
    ∀ result, ExtractsMap (ρ := Word) .laden "any" start.2 false result →
      result.map (Partial.map ExtractedMap.unkeyed) = extractMapFrom .laden start.2 false := by
  intro start
  have plain : laden.isRef = false := by decide +kernel
  have found : laden.resolveAlias.findKey? "start" = some (start.1, start.2) := by
    rw [Prod.eta]
    exact laden.findKey?_pairUnder "start" (by decide +kernel)
  have short : start.2.aliasChain ≤ aliasHops := by decide +kernel
  have content : start.2.resolveAlias.isDocument = false := by decide +kernel
  have keys : keysOf (extractMap .laden "start" laden true) =
      .ok (["$ref", "list", "gaps"], some (.inMap (.notFound "#/nowhere" {}))) := by
    decide +kernel
  obtain ⟨_, labelled, _⟩ := labelled_as_direct (ρ := Word) .laden laden "start" true
  obtain ⟨_, _, reference⟩ := labelled_as_direct (ρ := Word) .laden start.2 "any" false
  obtain ⟨maps, objects⟩ := labelled plain start.1 start.2 found short content
  refine ⟨fun result extracts => ⟨?_, maps result extracts⟩, objects,
    reference (by decide +kernel)⟩
  rw [extractsMap_iff.mp extracts, keys]

end DocRefs
