import DocRefs.Proofs.Extract.Transparent
import DocRefs.Proofs.Resolve.Mirror
import DocRefs.Registry

/-!
# Extraction under either policy

Whether cycles are errors is up to the configuration. Main result: `extract_under_either_policy`.
Where they are not, every extraction does what it does where they are: it fails with the same error
or builds the same, and all that can be missing is the report of a cycle. Indexes that are made
under the two policies differ in nothing else (`Registry.permitting_addDocument`). The walks of both
run side by side (`Setting.mirror`), so the entries that are built from differ in the policy and in
that report (`Entry.Lenient`), and the report comes after every failure (`Outcome.lenient_error?`).
-/
namespace DocRefs

/-! ### The lenient policy -/

/-- The index with cycles allowed. -/
def Index.permitting (ix : Index) : Index :=
  { ix with config := { ix.config with allowCircular := true } }

/-- The registry of the same documents with cycles allowed. -/
def Registry.permitting (r : Registry) : Registry :=
  { r with
    config := { r.config with allowCircular := true }
    documents := r.documents.mapValues fun _ ix => ix.permitting }

def Setting.permitting (s : Setting) : Setting :=
  { s with registry := s.registry.permitting, index := s.index.permitting }

/-- The entry in the lenient setting, where no cycle is reported. -/
def Entry.permitting (entry : Entry) : Entry :=
  { entry with setting := entry.setting.permitting, circular := none }

theorem Index.alike_permitting (ix : Index) : ix.Alike ix.permitting :=
  ⟨rfl, rfl, fun _ _ => rfl, fun _ _ => rfl, rfl⟩

theorem Index.permitting_ofDocument (config : Config) (root : Node) :
    (ofDocument config root).permitting =
      ofDocument { config with allowCircular := true } root := rfl

namespace Registry

theorem get?_permitting (r : Registry) (location : String) :
    r.permitting.documents.get? location = (r.documents.get? location).map Index.permitting :=
  Table.get?_mapValues _ _ _

theorem find?_permitting (r : Registry) (pointer : String) :
    r.permitting.find? pointer =
      (r.find? pointer).map fun (ix, place) => (ix.permitting, place) := by
  have owner (location : String) :
      r.permitting.indexAt? location = (r.indexAt? location).map Index.permitting := by
    simp only [indexAt?, get?_permitting, Option.map_or]
  simp only [find?, owner, Option.bind_eq_bind, Option.bind_map, Option.map_bind]
  refine Option.bind_congr fun ix _ => ?_
  simp [Index.permitting]

/-- Documents added under the lenient policy have the indexes that they have under the other one,
but for the policy. -/
theorem permitting_addDocument (r : Registry) (location : String) (root : Node) :
    r.permitting.addDocument location root =
      (r.addDocument location root).map fun (next, ix) => (next.permitting, ix.permitting) := by
  have outcomes (catalog : Catalog) :
      Index.outcome catalog (some r.permitting) = Index.outcome catalog (some r) := by
    funext site
    simp only [Index.outcome, Option.bind_some, find?_permitting]
    cases r.find? site.definition <;> rfl
  unfold addDocument
  split
  · rfl
  · simp only [Index.build, outcomes]
    simp [Except.map, permitting, Index.permitting, Table.mapValues_insert]

end Registry

/-! ### Settings to read in -/

/-- Entries of an extraction in `s` may be read in `t`: it has the registry, and its index is that
of `s` or of a document in the registry. -/
structure Setting.Reads (s t : Setting) : Prop where
  registry : t.registry = s.registry
  index : t.index = s.index ∨ s.registry.Holds t.index

theorem Setting.reads_self (s : Setting) : s.Reads s := ⟨rfl, .inl rfl⟩

/-- The hook builds the same under either policy, wherever an extraction in `s` may read. -/
def Buildable.Indifferent (ρ : Type) [Buildable ρ] (s : Setting) : Prop :=
  ∀ t, s.Reads t → ∀ key n (value : ρ),
    Buildable.build t.permitting key n value = Buildable.build t key n value

/-- The indexes are those of one document under the two policies, and it can be read in `s`. -/
def Setting.Twin (s : Setting) (a b : Index) : Prop :=
  (a = s.index ∨ s.registry.Holds a) ∧ b = a.permitting

theorem Setting.mirror (s : Setting) : Mirror s.Twin s.registry s.registry.permitting where
  alike := by
    rintro a _ ⟨_, rfl⟩
    exact a.alike_permitting
  member := by
    rintro a _ ⟨_, rfl⟩
    exact Iff.rfl
  documents location := by
    rw [s.registry.get?_permitting]
    cases there : s.registry.documents.get? location with
    | none => exact .none
    | some ix => exact .some ⟨.inr ⟨location, there⟩, rfl⟩

/-! ### What may differ -/

/-- All that is missing from the lenient report is that of a cycle. -/
structure Overlooks (strict lenient : Option RefError) : Prop where
  kept : ∀ e, lenient = some e → strict = some e
  missing : lenient = none → ∀ e, strict = some e → e.isCircular = true

/-- The results have the same value, and the report differs at most in a cycle. -/
structure Partial.Lenient {α : Type} (strict lenient : Partial α) : Prop where
  value : lenient.value = strict.value
  error : Overlooks strict.error lenient.error

/-- The entries differ in the policy and in the report of a cycle. -/
structure Entry.Lenient (s : Setting) (strict lenient : Entry) : Prop where
  same : lenient = strict.permitting
  reads : s.Reads strict.setting
  cycle : ∀ e, strict.circular = some e → e.isCircular = true

/-- The outcomes have the same value, and a cycle of the first one is not reported. -/
structure Outcome.Lenient {α : Type} (strict lenient : α × Option RefError) : Prop where
  same : lenient = (strict.1, none)
  cycle : ∀ e, strict.2 = some e → e.isCircular = true

theorem overlooks_cycle {report : Option RefError}
    (cycle : ∀ e, report = some e → e.isCircular = true) : Overlooks report none :=
  ⟨by simp, fun _ => cycle⟩

theorem Partial.lenient_ok {α : Type} (value : α) : Partial.Lenient (.ok value) (.ok value) :=
  ⟨rfl, overlooks_cycle (by simp [Partial.ok])⟩

namespace Outcome

variable {α : Type} {strict lenient : List (Outcome α)}

theorem lenient_built (alike : List.Forall₂ (Alongside Outcome.Lenient) strict lenient) :
    built lenient = built strict := by
  induction alike with
  | nil => rfl
  | cons head _ ih =>
    simp only [built] at ih
    cases head with
    | fails e => simpa [built] using ih
    | succeeds related => simp [built, related.same, ih]

theorem lenient_firstFailure? (alike : List.Forall₂ (Alongside Outcome.Lenient) strict lenient) :
    firstFailure? lenient = firstFailure? strict := by
  induction alike with
  | nil => rfl
  | cons head _ ih =>
    simp only [firstFailure?] at ih
    cases head with
    | fails e => simp [firstFailure?]
    | succeeds related => simpa [firstFailure?] using ih

theorem lenient_firstCycle? (alike : List.Forall₂ (Alongside Outcome.Lenient) strict lenient) :
    firstCycle? lenient = none ∧ ∀ e, firstCycle? strict = some e → e.isCircular = true := by
  induction alike with
  | nil => simp [firstCycle?]
  | cons head _ ih =>
    simp only [firstCycle?] at ih
    cases head with
    | fails e => simpa [firstCycle?] using ih
    | @succeeds outcome _ related =>
      -- The first outcome with a report is the first one of both lists that could have one.
      obtain ⟨value, report⟩ := outcome
      cases report with
      | none => simpa [firstCycle?, related.same] using ih
      | some cycle =>
        have circular := related.cycle cycle rfl
        simpa [firstCycle?, related.same, circular] using ih.1

/-- Failures are reported first, so that a cycle hides none of them. -/
theorem lenient_error? {before : Option RefError}
    (cycle : ∀ e, before = some e → e.isCircular = true)
    (alike : List.Forall₂ (Alongside Outcome.Lenient) strict lenient) :
    Overlooks (error? before strict) (error? none lenient) := by
  obtain ⟨silent, cycles⟩ := lenient_firstCycle? alike
  simp only [error?, lenient_firstFailure? alike, silent]
  cases firstFailure? strict with
  | some e => exact ⟨by simp, by simp⟩
  | none =>
    simp only [Option.none_or]
    refine overlooks_cycle fun e reported => ?_
    rcases Option.or_eq_some_iff.mp reported with first | ⟨_, later⟩
    · exact cycle e first
    · exact cycles e later

end Outcome

/-! ### Entries -/

section Entries

variable {s t : Setting}

theorem Entry.lenient_here (reads : s.Reads t) (n : Node) :
    Entry.Lenient s { node := n, setting := t } { node := n, setting := t.permitting } :=
  ⟨rfl, reads, by simp⟩

theorem Entry.lenient_ofLocated (reads : s.Reads t) (written : String) {l m : Located}
    (places : l.Mirrors s.Twin m) :
    Entry.Lenient s (ofLocated t written l) (ofLocated t.permitting written m) := by
  obtain ⟨home, twin⟩ := places.index
  obtain ⟨report, cycle, strict, lenient⟩ := places.circular
  refine ⟨?_, ⟨reads.registry, home⟩, ?_⟩
  · have silent : m.circular = none := by simp [lenient, twin, Index.reports, Index.permitting]
    simp [ofLocated, permitting, Setting.permitting, ← places.node, ← places.context, twin, silent]
  · intro e reported
    have there : l.index.reports report = some e := strict.symm.trans reported
    unfold Index.reports at there
    split at there
    · simp at there
    · exact cycle e there

theorem Entry.lenient_through (reads : s.Reads t) (n : Node) (wrap : RefError → RefError)
    {result other : Except RefError (Option Located)} (walks : Mirrored s.Twin result other) :
    Alongside (Entry.Lenient s) (through t n wrap result) (through t.permitting n wrap other) := by
  unfold through
  cases n.refText? with
  | none => exact .succeeds (lenient_here reads n)
  | some written =>
    cases walks with
    | fails e => exact .fails (wrap e)
    | succeeds places =>
      cases places with
      | none => exact .succeeds (lenient_here reads n)
      | some places => exact .succeeds (lenient_ofLocated reads written places)

theorem Setting.Reads.twin (reads : s.Reads t) : s.Twin t.index t.permitting.index :=
  ⟨reads.index, rfl⟩

theorem Entry.lenient_resolve (reads : s.Reads t) (n : Node) (wrap : RefError → RefError) :
    Alongside (Entry.Lenient s) (resolve t n wrap) (resolve t.permitting n wrap) := by
  have walks := s.mirror.locate reads.twin n t.context
  rw [← reads.registry] at walks
  exact lenient_through reads n wrap walks

theorem Entry.lenient_chase (reads : s.Reads t) (n : Node) (wrap : RefError → RefError) :
    Alongside (Entry.Lenient s) (chase t n wrap) (chase t.permitting n wrap) := by
  have walks := s.mirror.chase reads.twin n t.context 0
  rw [← reads.registry] at walks
  exact lenient_through reads n wrap walks

end Entries

/-! ### Builders -/

section Builders

variable {ρ : Type} [Buildable ρ] {s t : Setting} {strict lenient : Entry}

theorem Entry.Lenient.node_eq (entries : Entry.Lenient s strict lenient) :
    lenient.node = strict.node := by rw [entries.same, Entry.permitting]

theorem Entry.Lenient.reference_eq (entries : Entry.Lenient s strict lenient) :
    lenient.reference = strict.reference := by rw [entries.same, Entry.permitting]

theorem Entry.Lenient.setting_eq (entries : Entry.Lenient s strict lenient) :
    lenient.setting = strict.setting.permitting := by rw [entries.same, Entry.permitting]

theorem Entry.Lenient.circular_eq (entries : Entry.Lenient s strict lenient) :
    lenient.circular = none := by rw [entries.same, Entry.permitting]

theorem Entry.Lenient.build_eq (indifferent : Buildable.Indifferent ρ s)
    (entries : Entry.Lenient s strict lenient) (key : Option Node) :
    (lenient.build key : Except RefError ρ) = strict.build key := by
  have hook := indifferent strict.setting entries.reads key strict.node
  simp [Entry.build, buildValue, entries.node_eq, entries.reference_eq, entries.setting_eq, hook]

theorem Entry.Lenient.buildFromNode_eq (indifferent : Buildable.Indifferent ρ s)
    (entries : Entry.Lenient s strict lenient) (key : Option Node) :
    (lenient.buildFromNode key : Except RefError (FromNode ρ)) = strict.buildFromNode key := by
  rw [Entry.buildFromNode, Entry.buildFromNode, entries.build_eq indifferent, entries.node_eq,
    entries.reference_eq]

/-- One value with the reports of both entries. -/
theorem Entry.Lenient.reports {α : Type} (entries : Entry.Lenient s strict lenient) (value : α) :
    Partial.Lenient ⟨value, strict.circular⟩ ⟨value, lenient.circular⟩ where
  value := rfl
  error := by
    rw [entries.circular_eq]
    exact overlooks_cycle entries.cycle

theorem Entry.Lenient.built {α : Type} (indifferent : Buildable.Indifferent ρ s)
    (entries : Entry.Lenient s strict lenient) (key : Option Node) (finish : ρ → α) :
    Alongside Partial.Lenient
      (strict.build key >>= fun value => pure ⟨finish value, strict.circular⟩)
      (lenient.build key >>= fun value => pure ⟨finish value, lenient.circular⟩) := by
  rw [entries.build_eq indifferent]
  refine (Alongside.refl _).bind ?_
  rintro value _ rfl
  exact .succeeds (entries.reports _)

/-- What is built from both entries is one outcome, but for the report. -/
theorem Entry.Lenient.outcome {α : Type} (indifferent : Buildable.Indifferent ρ s)
    (entries : Entry.Lenient s strict lenient) (key : Option Node) (finish : FromNode ρ → α) :
    Alongside Outcome.Lenient
      (strict.buildFromNode key >>= fun built => pure (finish built, strict.circular))
      (lenient.buildFromNode key >>= fun built => pure (finish built, lenient.circular)) := by
  rw [entries.buildFromNode_eq indifferent, entries.circular_eq]
  refine (Alongside.refl _).bind ?_
  rintro built _ rfl
  exact .succeeds ⟨rfl, entries.cycle⟩

theorem lenient_buildElement (indifferent : Buildable.Indifferent ρ s) (reads : s.Reads t)
    (key element : Node) :
    Alongside Outcome.Lenient (buildElement t key element : Outcome (FromNode ρ))
      (buildElement t.permitting key element) :=
  (Entry.lenient_chase reads _ _).bind fun _ _ entries =>
    entries.outcome indifferent (some key) id

theorem lenient_buildEntry (indifferent : Buildable.Indifferent ρ s) (reads : s.Reads t)
    (key value : Node) :
    Alongside Outcome.Lenient (buildEntry t key value : Outcome (FromKey String × FromNode ρ))
      (buildEntry t.permitting key value) :=
  (Entry.lenient_resolve reads _ _).bind fun _ _ entries =>
    entries.outcome indifferent (some key) fun built =>
      ((⟨key.text, some key⟩ : FromKey String), built)

/-- Outcomes for the same things, one after another. -/
theorem Outcome.lenient_map {α β : Type} {f g : α → Outcome β}
    (each : ∀ a, Alongside Outcome.Lenient (f a) (g a)) (things : List α) :
    List.Forall₂ (Alongside Outcome.Lenient) (things.map f) (things.map g) := by
  rw [List.forall₂_map_left_iff, List.forall₂_map_right_iff, List.forall₂_same]
  exact fun a _ => each a

theorem lenient_buildEntries (indifferent : Buildable.Indifferent ρ s) (mark : String)
    (extensions : Bool) (key : Option Node) (entries : Entry.Lenient s strict lenient) :
    Partial.Lenient (buildEntries mark extensions key strict : Partial (ExtractedMap ρ))
      (buildEntries mark extensions key lenient) := by
  have outcomes := Outcome.lenient_map
    (fun pair : Node × Node => lenient_buildEntry indifferent entries.reads pair.1 pair.2)
    (keptPairs mark extensions strict.node)
  simp only [buildEntries, entries.node_eq, entries.setting_eq, entries.circular_eq]
  constructor
  · simp only [Outcome.lenient_built outcomes]
  · exact Outcome.lenient_error? entries.cycle outcomes

theorem Entry.Lenient.sequenceAt_eq (entries : Entry.Lenient s strict lenient) (label : String) :
    sequenceAt label lenient = sequenceAt label strict := by
  rw [sequenceAt, sequenceAt, entries.node_eq, entries.reference_eq]

end Builders

/-! ### Extractions -/

section Extractions

variable {ρ : Type} [Buildable ρ] {s : Setting} (indifferent : Buildable.Indifferent ρ s)
  (label : String) (n : Node) (extensions : Bool)

include indifferent

theorem lenient_extractObjectFrom (key : Option Node) :
    Alongside Partial.Lenient (extractObjectFrom s key n : Except RefError (Partial (RawObject ρ)))
      (extractObjectFrom s.permitting key n) := by
  refine (Entry.lenient_resolve s.reads_self n.resolveAlias .inObject).bind ?_
  intro strict lenient entries
  rw [entries.reference_eq]
  exact entries.built indifferent key fun value =>
    (⟨value, strict.reference⟩ : RawObject ρ)

theorem lenient_extractObject :
    Alongside Partial.Lenient (extractObject s label n : Except RefError (Partial (FromPair ρ)))
      (extractObject s.permitting label n) := by
  unfold extractObject
  cases n.resolveAlias.labelled? label with
  | none => exact .succeeds (Partial.lenient_ok _)
  | some pair =>
    refine (Entry.lenient_resolve s.reads_self pair.2 .inObject).bind ?_
    intro strict lenient entries
    rw [entries.node_eq, entries.reference_eq]
    exact entries.built indifferent (some pair.1) fun value =>
      (⟨value, some pair.1, some strict.node, strict.reference⟩ : FromPair ρ)

theorem lenient_extractSequence :
    Alongside Partial.Lenient
      (extractSequence s label n : Except RefError (Partial (ExtractedSequence ρ)))
      (extractSequence s.permitting label n) := by
  unfold extractSequence
  cases n.resolveAlias.labelled? label with
  | none => exact .succeeds (Partial.lenient_ok _)
  | some pair =>
    refine (Entry.lenient_chase s.reads_self pair.2 .inArray).bind ?_
    intro strict lenient entries
    rw [entries.sequenceAt_eq, entries.setting_eq, entries.circular_eq]
    refine (Alongside.refl _).bind ?_
    rintro sequence _ rfl
    -- The elements are read where the sequence is, so the setting of the entry decides.
    have outcomes := Outcome.lenient_map
      (lenient_buildElement indifferent entries.reads pair.1) sequence.items
    refine .succeeds ⟨?_, Outcome.lenient_error? entries.cycle outcomes⟩
    simp only [Outcome.lenient_built outcomes]

theorem lenient_extractMapFrom :
    Alongside Partial.Lenient
      (extractMapFrom s n extensions : Except RefError (Partial (ExtractedMap ρ)))
      (extractMapFrom s.permitting n extensions) := by
  refine (Entry.lenient_resolve s.reads_self n.resolveAlias.unwrapDocument .inMap).bind ?_
  intro strict lenient entries
  exact .succeeds (lenient_buildEntries indifferent _ extensions none entries)

theorem lenient_extractMap :
    Alongside Partial.Lenient
      (extractMap s label n extensions : Except RefError (Partial (ExtractedMap ρ)))
      (extractMap s.permitting label n extensions) := by
  unfold extractMap
  cases n.resolveAlias.labelled? label with
  | none => exact .succeeds (Partial.lenient_ok _)
  | some pair =>
    refine (Entry.lenient_resolve s.reads_self pair.2 .inMap).bind ?_
    intro strict lenient entries
    rw [entries.node_eq]
    split
    · exact .succeeds (lenient_buildEntries indifferent _ extensions (some pair.1) entries)
    · exact .succeeds (entries.reports _)

/-- Every extraction fails with one error under both policies, or builds the same. If something is
reported where cycles are allowed, the same is reported where they are not; otherwise nothing is, or
a cycle. -/
theorem extract_under_either_policy (key : Option Node) :
    Alongside Partial.Lenient
        (extractObjectFrom s key n : Except RefError (Partial (RawObject ρ)))
        (extractObjectFrom s.permitting key n) ∧
      Alongside Partial.Lenient (extractObject s label n : Except RefError (Partial (FromPair ρ)))
        (extractObject s.permitting label n) ∧
      Alongside Partial.Lenient
        (extractSequence s label n : Except RefError (Partial (ExtractedSequence ρ)))
        (extractSequence s.permitting label n) ∧
      Alongside Partial.Lenient
        (extractMap s label n extensions : Except RefError (Partial (ExtractedMap ρ)))
        (extractMap s.permitting label n extensions) ∧
      Alongside Partial.Lenient
        (extractMapFrom s n extensions : Except RefError (Partial (ExtractedMap ρ)))
        (extractMapFrom s.permitting n extensions) :=
  ⟨lenient_extractObjectFrom indifferent n key, lenient_extractObject indifferent label n,
    lenient_extractSequence indifferent label n, lenient_extractMap indifferent label n extensions,
    lenient_extractMapFrom indifferent n extensions⟩

end Extractions

theorem Word.indifferent (s : Setting) : Buildable.Indifferent Word s := fun _ _ _ _ _ => rfl

/-- The list leads to the round of `first` and `second`. -/
def rounds : Node := Build.runNew do
  let items ← [Build.string "one", Build.reference "#/first", Build.string "two"].mapM id
  Build.object [
    ("first", Build.reference "#/second"),
    ("second", Build.reference "#/first"),
    ("list", Build.sequence items)]

/-- The texts of the words, and whether a cycle is reported. -/
def wordsAndCycle? :
    Except RefError (Partial (ExtractedSequence Word)) → Option (List String × Option Bool)
  | .ok p => some (p.value.items.map (·.value.text), p.error.map (·.isCircular))
  | .error _ => none

theorem extract_under_either_policy_rounds :
    let s : Setting := ⟨.alone, Index.ofDocument {} rounds, {}⟩
    s.permitting.index = Index.ofDocument { allowCircular := true } rounds ∧
      wordsAndCycle? (extractSequence s "list" rounds) =
        some (["one", "", "two"], some true) ∧
      wordsAndCycle? (extractSequence s.permitting "list" rounds) =
        some (["one", "", "two"], none) ∧
      Alongside Partial.Lenient
        (extractSequence s "list" rounds : Except RefError (Partial (ExtractedSequence Word)))
        (extractSequence s.permitting "list" rounds) := by
  intro s
  obtain ⟨_, _, sequences, _⟩ :=
    extract_under_either_policy (Word.indifferent s) "list" rounds false none
  exact ⟨Index.permitting_ofDocument {} rounds, by decide +kernel, by decide +kernel, sequences⟩

end DocRefs
