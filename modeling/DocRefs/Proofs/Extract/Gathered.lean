import DocRefs.Proofs.Extract.Direct

/-!
# What is gathered from elements

Each element of a sequence or a mapping is built on its own. What is built is kept in order,
whatever becomes of the others (`Reading.gathers_iff`), and one thing that went wrong is reported, a
failure before any cycle (`Reading.reports_iff`). Main result: `gathered_from_elements`.
-/
namespace DocRefs

section

variable {ρ : Type} [Buildable ρ]

/-! ### One value -/

theorem buildValue_eq_ok_iff {s : Setting} {key : Option Node} {n : Node} {value : ρ} :
    buildValue s key n = .ok value ↔
      ∃ filled, populate Buildable.fields n Buildable.initial = .ok filled ∧
        Buildable.build s key n filled = .ok value := by
  rw [buildValue]
  cases result : (populate Buildable.fields n Buildable.initial : Partial ρ).toExcept with
  | error e =>
    refine iff_of_false (by simp [bind, Except.bind]) ?_
    rintro ⟨filled, fills, _⟩
    rw [Partial.toExcept_eq_ok_iff.mpr fills] at result
    cases result
  | ok filled =>
    have fills := Partial.toExcept_eq_ok_iff.mp result
    constructor
    · exact fun builds => ⟨filled, fills, builds⟩
    · rintro ⟨other, fills_other, builds⟩
      cases fills.symm.trans fills_other
      exact builds

theorem buildValue_eq_error_iff {s : Setting} {key : Option Node} {n : Node} {e : RefError} :
    (buildValue s key n : Except RefError ρ) = .error e ↔
      (∃ partly : ρ, populate Buildable.fields n Buildable.initial = .failing partly e) ∨
      ∃ filled : ρ, populate Buildable.fields n Buildable.initial = .ok filled ∧
        Buildable.build s key n filled = .error e := by
  rw [buildValue]
  cases populate Buildable.fields n (Buildable.initial : ρ) with
  | mk value error =>
    cases error with
    | none => simp [Partial.toExcept, Partial.ok, Partial.failing, bind, Except.bind]
    | some e' => simp [Partial.toExcept, Partial.ok, Partial.failing, bind, Except.bind]

/-- A value with where it was built from, after it has taken note of the pointer. -/
def Entry.noted (entry : Entry) (key : Node) (value : ρ) : FromNode ρ where
  value := entry.reference.elim value fun reference =>
    Buildable.setReference reference (some key) value
  node := some entry.node
  reference := entry.reference

theorem Entry.buildFromNode_eq (entry : Entry) (key : Node) :
    entry.buildFromNode (ρ := ρ) (some key) =
      (buildValue entry.setting (some key) entry.node).map (entry.noted key) := by
  cases made : buildValue (ρ := ρ) entry.setting (some key) entry.node with
  | error e => simp [buildFromNode, build, made, bind, Except.bind, Except.map]
  | ok value =>
    simp only [buildFromNode, build, made, noted, bind, Except.bind, pure, Except.pure, Except.map]
    cases entry.reference <;> rfl

end

/-! ### What is found first -/

section

variable {α β γ : Type}

/-- Something is found at an element, and nothing at those before it. -/
def FoundFirst (Found : α → β → Prop) (elements : List α) (b : β) : Prop :=
  ∃ front a back, elements = front ++ a :: back ∧ (∀ c ∈ front, ∀ b', ¬ Found c b') ∧ Found a b

def FoundNowhere (Found : α → β → Prop) (elements : List α) : Prop :=
  ∀ a ∈ elements, ∀ b, ¬ Found a b

variable {find : α → Option β} {Found : α → β → Prop} (agrees : ∀ a b, find a = some b ↔ Found a b)
  {elements : List α}

include agrees

theorem findSome?_eq_some_iff_foundFirst {b : β} :
    elements.findSome? find = some b ↔ FoundFirst Found elements b := by
  simp only [List.findSome?_eq_some_iff, FoundFirst, ← agrees, Option.eq_none_iff_forall_ne_some,
    ne_eq]
  constructor
  · rintro ⟨front, a, back, split, found, none_before⟩
    exact ⟨front, a, back, split, none_before, found⟩
  · rintro ⟨front, a, back, split, none_before, found⟩
    exact ⟨front, a, back, split, found, none_before⟩

theorem findSome?_eq_none_iff_foundNowhere :
    elements.findSome? find = none ↔ FoundNowhere Found elements := by
  rw [List.findSome?_eq_none_iff, FoundNowhere]
  simp only [← agrees, Option.eq_none_iff_forall_ne_some, ne_eq]

end

namespace Outcome

variable {α β : Type}

def failure? : Outcome α → Option RefError
  | .ok _ => none
  | .error e => some e

def cycle? : Outcome α → Option RefError
  | .ok (_, circular) => circular
  | .error _ => none

theorem firstFailure?_map (f : β → Outcome α) (elements : List β) :
    firstFailure? (elements.map f) = elements.findSome? fun a => (f a).failure? := by
  rw [firstFailure?, List.findSome?_map]
  rfl

theorem firstCycle?_map (f : β → Outcome α) (elements : List β) :
    firstCycle? (elements.map f) = elements.findSome? fun a => (f a).cycle? := by
  rw [firstCycle?, List.findSome?_map]
  rfl

theorem error?_map_congr {γ : Type} {f : β → Outcome α} {g : β → Outcome γ}
    (failures : ∀ a, (f a).failure? = (g a).failure?) (cycles : ∀ a, (f a).cycle? = (g a).cycle?)
    (before : Option RefError) (elements : List β) :
    error? before (elements.map f) = error? before (elements.map g) := by
  simp only [error?, firstFailure?_map, firstCycle?_map, failures, cycles]

end Outcome

/-! ### One element -/

/-- How elements are followed, and under which keys values are built from them. -/
structure Reading (α : Type) where
  follow : α → Except RefError Entry
  key : α → Node

namespace Reading

/-- The elements of a sequence under a key, read where `entry` leads. -/
def ofSequence (entry : Entry) (key : Node) : Reading Node where
  follow element := Entry.chase entry.setting element.resolveAlias .inArray
  key _ := key

/-- The pairs of a mapping, read where `entry` leads. -/
def ofMapping (entry : Entry) : Reading (Node × Node) where
  follow pair := Entry.resolve entry.setting pair.2.resolveAlias .inMap
  key pair := pair.1

section

variable {α : Type} {ρ : Type} [Buildable ρ]

/-- The element is followed, fields are filled from where it leads, and the hook finishes the value.
With it goes the cycle on the way, if there is one. -/
inductive Makes (r : Reading α) (a : α) : FromNode ρ → Option RefError → Prop
  | mk {entry : Entry} {filled value : ρ} (followed : r.follow a = .ok entry)
    (fills : populate Buildable.fields entry.node Buildable.initial = .ok filled)
    (builds : Buildable.build entry.setting (some (r.key a)) entry.node filled = .ok value) :
    Makes r a (entry.noted (r.key a) value) entry.circular

variable (ρ) in
/-- One of the three steps fails. -/
inductive Fails (r : Reading α) (a : α) : RefError → Prop
  | lost {e : RefError} (lost : r.follow a = .error e) : Fails r a e
  | unfilled {entry : Entry} {partly : ρ} {e : RefError} (followed : r.follow a = .ok entry)
    (stops : populate Buildable.fields entry.node Buildable.initial = .failing partly e) :
    Fails r a e
  | refused {entry : Entry} {filled : ρ} {e : RefError} (followed : r.follow a = .ok entry)
    (fills : populate Buildable.fields entry.node Buildable.initial = .ok filled)
    (refuses : Buildable.build entry.setting (some (r.key a)) entry.node filled = .error e) :
    Fails r a e

variable (ρ) in
/-- What becomes of an element. -/
def outcome (r : Reading α) (a : α) : Outcome (FromNode ρ) :=
  (r.follow a).bind fun entry =>
    (entry.buildFromNode (some (r.key a))).map fun built => (built, entry.circular)

variable {r : Reading α} {a : α}

theorem outcome_eq_ok_iff {made : FromNode ρ} {circular : Option RefError} :
    r.outcome ρ a = .ok (made, circular) ↔ r.Makes a made circular := by
  constructor
  · intro built
    cases followed : r.follow a with
    | error e => simp [outcome, followed, Except.bind] at built
    | ok entry =>
      cases value_made : buildValue (ρ := ρ) entry.setting (some (r.key a)) entry.node with
      | error e =>
        simp [outcome, followed, Entry.buildFromNode_eq, value_made, Except.bind, Except.map]
          at built
      | ok value =>
        obtain ⟨rfl, rfl⟩ : entry.noted (r.key a) value = made ∧ entry.circular = circular := by
          simpa [outcome, followed, Entry.buildFromNode_eq, value_made, Except.bind, Except.map]
            using built
        obtain ⟨filled, fills, builds⟩ := buildValue_eq_ok_iff.mp value_made
        exact .mk followed fills builds
  · rintro ⟨followed, fills, builds⟩
    have value_made := buildValue_eq_ok_iff.mpr ⟨_, fills, builds⟩
    simp [outcome, followed, Entry.buildFromNode_eq, value_made, Except.bind, Except.map]

theorem outcome_eq_error_iff {e : RefError} : r.outcome ρ a = .error e ↔ r.Fails ρ a e := by
  -- Once the element is followed, only building a value can fail.
  have fails_value {entry : Entry} (followed : r.follow a = .ok entry) :
      r.outcome ρ a = .error e ↔
        (buildValue entry.setting (some (r.key a)) entry.node : Except RefError ρ) = .error e := by
    rw [outcome, followed, Except.bind, Entry.buildFromNode_eq]
    cases (buildValue entry.setting (some (r.key a)) entry.node : Except RefError ρ) <;>
      simp [Except.map]
  constructor
  · intro failed
    cases followed : r.follow a with
    | error e' =>
      obtain rfl : e' = e := by simpa [outcome, followed, Except.bind] using failed
      exact .lost followed
    | ok entry =>
      rcases buildValue_eq_error_iff.mp ((fails_value followed).mp failed) with
        ⟨partly, stops⟩ | ⟨filled, fills, refuses⟩
      · exact .unfilled followed stops
      · exact .refused followed fills refuses
  · intro fails
    cases fails with
    | lost lost => rw [outcome, lost, Except.bind]
    | unfilled followed stops =>
      exact (fails_value followed).mpr (buildValue_eq_error_iff.mpr (.inl ⟨_, stops⟩))
    | refused followed fills refuses =>
      exact (fails_value followed).mpr (buildValue_eq_error_iff.mpr (.inr ⟨_, fills, refuses⟩))

/-! ### All elements -/

/-- The values that are built, each with its element: those of the elements that do not fail, in
order. -/
inductive Gathers (r : Reading α) : List α → List (α × FromNode ρ) → Prop
  | none : Gathers r [] []
  | kept {a : α} {rest : List α} {made : FromNode ρ} {circular : Option RefError}
    {gathered : List (α × FromNode ρ)} (makes : r.Makes a made circular)
    (later : Gathers r rest gathered) : Gathers r (a :: rest) ((a, made) :: gathered)
  | left {a : α} {rest : List α} {e : RefError} {gathered : List (α × FromNode ρ)}
    (fails : r.Fails ρ a e) (later : Gathers r rest gathered) : Gathers r (a :: rest) gathered

variable (ρ) in
/-- The element is built past a cycle. -/
def Meets (r : Reading α) (a : α) (cycle : RefError) : Prop :=
  ∃ made : FromNode ρ, r.Makes a made (some cycle)

variable (ρ) in
/-- What is reported of elements that are reached past the cycle `before`, if there is one: the
first failure, or else that cycle, or else the first one that an element meets. -/
inductive Reports (r : Reading α) (before : Option RefError) (elements : List α) :
    Option RefError → Prop
  | failure {e : RefError} (first : FoundFirst (r.Fails ρ) elements e) :
    Reports r before elements (some e)
  | before {cycle : RefError} (fine : FoundNowhere (r.Fails ρ) elements)
    (met : before = some cycle) : Reports r before elements (some cycle)
  | element {cycle : RefError} (fine : FoundNowhere (r.Fails ρ) elements) (clear : before = none)
    (first : FoundFirst (r.Meets ρ) elements cycle) : Reports r before elements (some cycle)
  | nothing (fine : FoundNowhere (r.Fails ρ) elements) (clear : before = none)
    (quiet : FoundNowhere (r.Meets ρ) elements) : Reports r before elements none

section

variable {elements : List α} {gathered : List (α × FromNode ρ)} {e cycle : RefError}

theorem gathers_iff :
    r.Gathers elements gathered ↔
      gathered = elements.filterMap fun a =>
        (r.outcome ρ a).toOption.map fun built => (a, built.1) := by
  constructor
  · intro gathers
    induction gathers with
    | none => rfl
    | kept makes later ih => simp [outcome_eq_ok_iff.mpr makes, ih, Except.toOption]
    | left fails later ih => simp [outcome_eq_error_iff.mpr fails, ih, Except.toOption]
  · rintro rfl
    induction elements with
    | nil => exact .none
    | cons a rest ih =>
      rw [List.filterMap_cons]
      cases became : r.outcome ρ a with
      | error e => exact .left (outcome_eq_error_iff.mp became) ih
      | ok built => exact .kept (outcome_eq_ok_iff.mp became) ih

variable (ρ) in
theorem exists_gathers (r : Reading α) (elements : List α) :
    ∃ gathered : List (α × FromNode ρ), r.Gathers elements gathered :=
  ⟨_, gathers_iff.mpr rfl⟩

theorem Gathers.built_outcomes (gathers : r.Gathers elements gathered) :
    Outcome.built (elements.map (r.outcome ρ)) = gathered.map (·.2) := by
  induction gathers with
  | none => rfl
  | kept makes later ih => simpa [Outcome.built, outcome_eq_ok_iff.mpr makes] using ih
  | left fails later ih => simpa [Outcome.built, outcome_eq_error_iff.mpr fails] using ih

theorem failure?_eq_some_iff (a : α) (e : RefError) :
    (r.outcome ρ a).failure? = some e ↔ r.Fails ρ a e := by
  rw [← outcome_eq_error_iff]
  cases r.outcome ρ a <;> simp [Outcome.failure?]

theorem cycle?_eq_some_iff (a : α) (cycle : RefError) :
    (r.outcome ρ a).cycle? = some cycle ↔ r.Meets ρ a cycle := by
  simp only [Meets, ← outcome_eq_ok_iff]
  cases r.outcome ρ a with
  | error e => simp [Outcome.cycle?]
  | ok built => simp [Outcome.cycle?, Prod.ext_iff]

/-- There is one thing to report. -/
theorem reports_iff {before report : Option RefError} :
    r.Reports ρ before elements report ↔
      report = Outcome.error? before (elements.map (r.outcome ρ)) := by
  rw [Outcome.error?, Outcome.firstFailure?_map, Outcome.firstCycle?_map]
  constructor
  · intro reports
    cases reports with
    | failure first =>
      rw [(findSome?_eq_some_iff_foundFirst failure?_eq_some_iff).mpr first]
      rfl
    | before fine met =>
      rw [(findSome?_eq_none_iff_foundNowhere failure?_eq_some_iff).mpr fine, met]
      rfl
    | element fine clear first =>
      rw [(findSome?_eq_none_iff_foundNowhere failure?_eq_some_iff).mpr fine, clear,
        (findSome?_eq_some_iff_foundFirst cycle?_eq_some_iff).mpr first]
      rfl
    | nothing fine clear quiet =>
      rw [(findSome?_eq_none_iff_foundNowhere failure?_eq_some_iff).mpr fine, clear,
        (findSome?_eq_none_iff_foundNowhere cycle?_eq_some_iff).mpr quiet]
      rfl
  · rintro rfl
    -- The cases are those in which each of the two searches finds something or nothing.
    cases failure : elements.findSome? fun a => (r.outcome ρ a).failure? with
    | some e =>
      exact .failure ((findSome?_eq_some_iff_foundFirst failure?_eq_some_iff).mp failure)
    | none =>
      have fine := (findSome?_eq_none_iff_foundNowhere failure?_eq_some_iff).mp failure
      cases before with
      | some cycle => exact .before fine rfl
      | none =>
        cases met : elements.findSome? fun a => (r.outcome ρ a).cycle? with
        | some cycle =>
          exact .element fine rfl ((findSome?_eq_some_iff_foundFirst cycle?_eq_some_iff).mp met)
        | none =>
          exact .nothing fine rfl ((findSome?_eq_none_iff_foundNowhere cycle?_eq_some_iff).mp met)

theorem Gathers.sublist (gathers : r.Gathers elements gathered) :
    (gathered.map (·.1)).Sublist elements := by
  induction gathers with
  | none => exact .slnil
  | kept makes later ih => exact ih.cons_cons _
  | left fails later ih => exact ih.cons _

end

end

end Reading

section

variable {ρ : Type} [Buildable ρ]

/-! ### Sequences -/

/-- The results of extracting the sequence under a label when its elements are built side by
side. -/
inductive ExtractsSequence (s : Setting) (label : String) (n : Node) :
    Except RefError (Partial (ExtractedSequence ρ)) → Prop
  | absent (missing : n.resolveAlias.labelled? label = none) :
    ExtractsSequence s label n (.ok (.ok {}))
  | lost {key node : Node} {e : RefError}
    (there : n.resolveAlias.labelled? label = some (key, node))
    (failed : Entry.chase s node .inArray = .error e) : ExtractsSequence s label n (.error e)
  | other {key node : Node} {entry : Entry} {e : RefError}
    (there : n.resolveAlias.labelled? label = some (key, node))
    (reached : Entry.chase s node .inArray = .ok entry)
    (nothing : sequenceAt label entry = .error e) : ExtractsSequence s label n (.error e)
  | built {key node sequence : Node} {entry : Entry} {outcomes : List (Outcome (FromNode ρ))}
    (there : n.resolveAlias.labelled? label = some (key, node))
    (reached : Entry.chase s node .inArray = .ok entry)
    (found : sequenceAt label entry = .ok sequence)
    (together : Slots.Comes (buildElement entry.setting key) sequence.items outcomes) :
    ExtractsSequence s label n
      (.ok ⟨⟨Outcome.built outcomes, some key, some sequence⟩,
        Outcome.error? entry.circular outcomes⟩)

theorem extractsSequence_iff {s : Setting} {label : String} {n : Node}
    {result : Except RefError (Partial (ExtractedSequence ρ))} :
    ExtractsSequence s label n result ↔ result = extractSequence s label n := by
  constructor
  · intro extracts
    cases extracts with
    | absent missing => rw [extractSequence, missing]
    | lost there failed => simp [extractSequence, there, failed, bind, Except.bind]
    | other there reached nothing =>
      simp [extractSequence, there, reached, nothing, bind, Except.bind]
    | built there reached found together =>
      rw [Slots.comes_iff.mp together]
      simp [extractSequence, there, reached, found, bind, Except.bind, pure, Except.pure]
  · rintro rfl
    cases there : n.resolveAlias.labelled? label with
    | none =>
      rw [extractSequence, there]
      exact .absent there
    | some pair =>
      rw [extractSequence, there]
      dsimp only
      cases reached : Entry.chase s pair.2 .inArray with
      | error e => exact .lost there reached
      | ok entry =>
        cases found : sequenceAt label entry with
        | error e =>
          simp only [bind, Except.bind, found]
          exact .other there reached found
        | ok sequence =>
          simp only [bind, Except.bind, found]
          exact .built there reached found (Slots.comes_iff.mpr rfl)

theorem buildElement_eq (entry : Entry) (key : Node) :
    buildElement entry.setting key = (Reading.ofSequence entry key).outcome ρ := by
  funext element
  rw [buildElement, Reading.outcome, Reading.ofSequence]
  dsimp only
  cases Entry.chase entry.setting element.resolveAlias .inArray with
  | error e => rfl
  | ok reached =>
    simp only [bind, Except.bind]
    cases reached.buildFromNode (ρ := ρ) (some key) <;> rfl

/-- The items and the report are what is gathered from the elements. -/
structure ItemsGathered (entry : Entry) (key : Node) (elements : List Node)
    (p : Partial (ExtractedSequence ρ)) : Prop where
  items : ∃ gathered, (Reading.ofSequence entry key).Gathers elements gathered ∧
    p.value.items = gathered.map (·.2)
  report : (Reading.ofSequence entry key).Reports ρ entry.circular elements p.error

theorem itemsGathered_built (entry : Entry) (key sequence : Node) :
    ItemsGathered (ρ := ρ) entry key sequence.items
      ⟨⟨Outcome.built (sequence.items.map (buildElement entry.setting key)), some key,
        some sequence⟩,
      Outcome.error? entry.circular
        (sequence.items.map (buildElement (ρ := ρ) entry.setting key))⟩ := by
  rw [buildElement_eq]
  constructor
  case items =>
    obtain ⟨gathered, gathers⟩ := (Reading.ofSequence entry key).exists_gathers ρ sequence.items
    exact ⟨gathered, gathers, gathers.built_outcomes⟩
  case report => exact Reading.reports_iff.mpr rfl

/-! ### Maps -/

/-- The entries and the report are what is gathered from the pairs; where a key is written twice,
the entries are not asked for. -/
structure EntriesGathered (entry : Entry) (pairs : List (Node × Node))
    (p : Partial (ExtractedMap ρ)) : Prop where
  entries : (pairs.map (·.1.text)).Nodup →
    ∃ gathered, (Reading.ofMapping entry).Gathers pairs gathered ∧
      p.value.entries.toList =
        gathered.map fun built => ({ value := built.1.1.text, node := some built.1.1 }, built.2)
  report : (Reading.ofMapping entry).Reports ρ entry.circular pairs p.error

/-- The entry of a map for what is built from a pair. -/
def entryOf (pair : Node × Node) (made : FromNode ρ) : FromKey String × FromNode ρ :=
  ({ value := pair.1.text, node := some pair.1 }, made)

theorem buildEntry_eq (entry : Entry) (pair : Node × Node) :
    buildEntry entry.setting pair.1 pair.2 =
      ((Reading.ofMapping entry).outcome ρ pair).map fun built =>
        (entryOf pair built.1, built.2) := by
  rw [buildEntry, Reading.outcome, Reading.ofMapping]
  dsimp only
  cases Entry.resolve entry.setting pair.2.resolveAlias .inMap with
  | error e => rfl
  | ok reached =>
    simp only [bind, Except.bind]
    cases reached.buildFromNode (ρ := ρ) (some pair.1) <;> rfl

theorem Reading.Gathers.built_entries {entry : Entry} {pairs : List (Node × Node)}
    {gathered : List ((Node × Node) × FromNode ρ)}
    (gathers : (Reading.ofMapping entry).Gathers pairs gathered) :
    Outcome.built (pairs.map fun pair => buildEntry (ρ := ρ) entry.setting pair.1 pair.2) =
      gathered.map fun built => entryOf built.1 built.2 := by
  induction gathers with
  | none => rfl
  | kept makes later ih =>
    simpa [Outcome.built, buildEntry_eq, outcome_eq_ok_iff.mpr makes, Except.map] using ih
  | left fails later ih =>
    simpa [Outcome.built, buildEntry_eq, outcome_eq_error_iff.mpr fails, Except.map] using ih

theorem entriesGathered_buildEntries (mark : String) (extensions : Bool) (key : Option Node)
    (entry : Entry) :
    EntriesGathered entry (keptPairs mark extensions entry.node)
      (buildEntries (ρ := ρ) mark extensions key entry) := by
  generalize kept : keptPairs mark extensions entry.node = pairs
  have made : buildEntries (ρ := ρ) mark extensions key entry =
      ⟨⟨.ofList (Outcome.built (pairs.map fun pair => buildEntry entry.setting pair.1 pair.2)), key,
        some entry.node⟩,
      Outcome.error? entry.circular
        (pairs.map fun pair => buildEntry (ρ := ρ) entry.setting pair.1 pair.2)⟩ := by
    rw [buildEntries, kept]
  rw [made]
  constructor
  case entries =>
    intro distinct
    obtain ⟨gathered, gathers⟩ := (Reading.ofMapping entry).exists_gathers ρ pairs
    refine ⟨gathered, gathers, ?_⟩
    -- No entry is put in place of another one, so the map lists what was built.
    have keys := distinct.sublist (gathers.sublist.map (·.1.text))
    rw [OrderedMap.toList_ofList, gathers.built_entries]
    · rfl
    · rw [gathers.built_entries, DistinctKeys, List.map_map, List.pairwise_map]
      rw [List.map_map, List.Nodup, List.pairwise_map] at keys
      exact keys.imp fun differ => by simpa [entryOf] using differ
  case report =>
    rw [Reading.reports_iff]
    -- The entries differ from the values, but not in what went wrong.
    refine Outcome.error?_map_congr (fun pair => ?_) (fun pair => ?_) _ _
    all_goals
      rw [buildEntry_eq]
      cases (Reading.ofMapping entry).outcome ρ pair <;> rfl

/-! ### The results -/

/-- Whatever becomes of other elements, a sequence has the values of those that are followed, filled
and built, in order. What is reported is the first failure, or else the cycle on the way to the
sequence, or else the first one on the way from an element. The same holds for the entries of a map,
under a label or from a node, where no key is written twice among the pairs that are kept. However
the elements are scheduled there is this one result. -/
theorem gathered_from_elements (s : Setting) (label : String) (n : Node) (extensions : Bool) :
    (∀ key node entry sequence, n.resolveAlias.labelled? label = some (key, node) →
      Entry.chase s node .inArray = .ok entry → sequenceAt label entry = .ok sequence →
        ∃ p : Partial (ExtractedSequence ρ),
          (∀ result, ExtractsSequence s label n result ↔ result = .ok p) ∧
            ItemsGathered entry key sequence.items p) ∧
    (∀ key node entry, n.resolveAlias.labelled? label = some (key, node) →
      Entry.resolve s node .inMap = .ok entry →
        ∃ p : Partial (ExtractedMap ρ),
          (∀ result, ExtractsMap s label n extensions result ↔ result = .ok p) ∧
            EntriesGathered entry
              (keptPairs s.index.config.extensionPrefix extensions entry.node) p) ∧
    ∀ entry, Entry.resolve s n.resolveAlias.unwrapDocument .inMap = .ok entry →
      ∃ p : Partial (ExtractedMap ρ), extractMapFrom s n extensions = .ok p ∧
        EntriesGathered entry
          (keptPairs s.index.config.extensionPrefix extensions entry.node) p := by
  refine ⟨fun key node entry sequence there reached found => ?_,
    fun key node entry there reached => ?_, fun entry reached => ?_⟩
  · refine ⟨_, fun result => ?_, itemsGathered_built entry key sequence⟩
    rw [extractsSequence_iff, extractSequence, there]
    simp only [reached, found, bind, Except.bind, pure, Except.pure]
  · refine ⟨_, fun result => ?_, entriesGathered_buildEntries _ extensions (some key) entry⟩
    rw [extractsMap_iff, extractMap_of_reached there extensions reached]
  · refine ⟨_, ?_, entriesGathered_buildEntries _ extensions none entry⟩
    rw [extractMapFrom, reached]
    rfl

end

/-- What is no reference is read where it is. -/
theorem Entry.through_of_not_ref {s : Setting} {n : Node} (plain : n.refText? = none)
    (wrap : RefError → RefError) (result : Except RefError (Option Located)) :
    Entry.through s n wrap result = .ok { node := n, setting := s } := by
  simp only [Entry.through, plain]

theorem sequenceAt_of_isSequence {entry : Entry} (sequence : entry.node.isSequence = true)
    (label : String) : sequenceAt label entry = .ok entry.node := by
  rw [sequenceAt, if_pos sequence]

theorem Node.labelled?_pairUnder {root : Node} (plain : root.isRef = false) (label : String)
    (there : (root.resolveAlias.findKey? label).isSome = true) :
    root.resolveAlias.labelled? label =
      some ((root.pairUnder label).1, (root.pairUnder label).2.resolveAlias) :=
  labelled?_eq_some plain (by rw [Prod.eta]; exact root.findKey?_pairUnder label there)

/-- A list and a mapping with words, with references into the round of `first` and `second`, and the
list also with references that lead nowhere. -/
def patchy : Node := Build.runNew do
  let items ← [Build.string "one", Build.reference "#/second", Build.reference "#/nowhere",
    Build.string "two", Build.reference "#/absent"].mapM id
  Build.object [
    ("first", Build.reference "#/second"),
    ("second", Build.reference "#/first"),
    ("list", Build.sequence items),
    ("words", Build.object [("one", Build.reference "#/second"), ("two", Build.string "two")])]

def Setting.patchy : Setting := ⟨.alone, Index.ofDocument {} DocRefs.patchy, {}⟩

/-- The texts of the words, and the report. -/
def textsOf (result : Except RefError (Partial (ExtractedSequence Word))) :
    Except RefError (List String × Option RefError) :=
  result.map fun p => (p.value.items.map (·.value.text), p.error)

/-- The list keeps its words and the mapping that is reached past the round, and reports the first
reference that leads nowhere. The map has nothing else to report than the round. -/
theorem gathered_from_elements_patchy :
    let list := patchy.pairUnder "list"
    let words := patchy.pairUnder "words"
    (∃ p : Partial (ExtractedSequence Word),
      (∀ result, ExtractsSequence .patchy "list" patchy result ↔ result = .ok p) ∧
        ItemsGathered { node := list.2.resolveAlias, setting := .patchy } list.1
          list.2.resolveAlias.items p ∧
          textsOf (.ok p) =
            .ok (["one", "", "two"], some (.inArray (.notFound "#/nowhere" {})))) ∧
    ∃ p : Partial (ExtractedMap Word),
      (∀ result, ExtractsMap .patchy "words" patchy true result ↔ result = .ok p) ∧
        EntriesGathered { node := words.2.resolveAlias, setting := .patchy }
          (keptPairs "x-" true words.2.resolveAlias) p ∧
          keysOf (.ok p) = .ok (["one", "two"], some ladenRound) := by
  intro list words
  have plain : patchy.isRef = false := by decide +kernel
  have list_there := Node.labelled?_pairUnder plain "list" (by decide +kernel)
  have words_there := Node.labelled?_pairUnder plain "words" (by decide +kernel)
  have list_read : Entry.chase .patchy list.2.resolveAlias .inArray =
      .ok { node := list.2.resolveAlias, setting := .patchy } := by
    rw [Entry.chase_eq]
    exact Entry.through_of_not_ref (by decide +kernel) _ _
  have words_read : Entry.resolve .patchy words.2.resolveAlias .inMap =
      .ok { node := words.2.resolveAlias, setting := .patchy } := by
    rw [Entry.resolve_eq]
    exact Entry.through_of_not_ref (by decide +kernel) _ _
  have found : sequenceAt "list" { node := list.2.resolveAlias, setting := .patchy } =
      .ok list.2.resolveAlias := sequenceAt_of_isSequence (by decide +kernel) "list"
  obtain ⟨sequences, _⟩ := gathered_from_elements (ρ := Word) .patchy "list" patchy true
  obtain ⟨_, maps, _⟩ := gathered_from_elements (ρ := Word) .patchy "words" patchy true
  constructor
  · obtain ⟨p, results, gathered⟩ := sequences _ _ _ _ list_there list_read found
    refine ⟨p, results, gathered, ?_⟩
    rw [← (results _).mp (extractsSequence_iff.mpr rfl)]
    decide +kernel
  · obtain ⟨p, results, gathered⟩ := maps _ _ _ words_there words_read
    refine ⟨p, results, gathered, ?_⟩
    rw [← (results _).mp (extractsMap_iff.mpr rfl)]
    decide +kernel

end DocRefs
