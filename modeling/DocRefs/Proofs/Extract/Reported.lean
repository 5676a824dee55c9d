import DocRefs.Proofs.Extract.Transparent

/-!
# Reports of cycles

A reference at the top of an extraction may run into a cycle that is not allowed. Main result:
`cycle_reported`. Then the extraction reports that cycle, whichever way of extracting it is, unless
a harder failure comes first (`Extraction.Preempts`): the value is not built, or one of the parts is
not, or there is no sequence. What a walk reports as a cycle is one (`isCircular_of_locateWithin`).
-/
namespace DocRefs

/-! ### What a walk reports -/

section Walks

variable {registry : Registry} {hops : Nat} {s : Stand} {l : Located} {report : RefError}

theorem isCircular_of_locateWithin
    (found : locateWithin registry hops s.node s.index s.context = .ok (some l))
    (told : l.circular = some report) : report.isCircular = true := by
  obtain ⟨route, written, _, _, _, reads, rests⟩ := exists_route_of_locateWithin found
  have step := Stand.step_hop registry reads
  rw [rests] at step
  cases step with
  | rests next plain =>
    obtain ⟨_, _, _, _, rfl⟩ := Stand.next?_eq_some_iff.mp next
    simp at told
  | @flagged l finding next reference known =>
    -- Only here is there a report, and only where cycles are not allowed.
    obtain ⟨_, _, _, _, rfl⟩ := Stand.next?_eq_some_iff.mp next
    simp only [Located.flagged, Option.ite_none_left_eq_some] at told
    rw [← Option.some.inj told.2]
    rfl
  | searched unknown found =>
    obtain ⟨_, _, _, _, rfl⟩ := Stand.searched?_eq_some_iff.mp found
    simp at told

theorem isCircular_of_chaseWithin
    (found : chaseWithin registry hops s.node s.index s.context = .ok (some l))
    (told : l.circular = some report) : report.isCircular = true := by
  induction hops generalizing s with
  | zero => simp [chaseWithin] at found
  | succ hops ih =>
    rw [Index.chaseWithin_succ] at found
    cases first : locateWithin registry (hops + 1) s.node s.index s.context with
    | error e => simp [first, Index.error_chaseOn] at found
    | ok place =>
      rw [first, Index.ok_chaseOn] at found
      cases place with
      | none => simp [Index.chaseOn] at found
      | some here =>
        simp only [Index.chaseOn] at found
        split at found
        · obtain rfl : here = l := by simpa using found
          exact isCircular_of_locateWithin first told
        · exact ih (s := here.stand) found

end Walks

/-! ### Ways to extract -/

/-- A way to extract, with what it asks for. -/
inductive Extraction where
  | objectFrom (key : Option Node)
  | object (label : String)
  | sequence (label : String)
  | mapFrom (extensions : Bool)
  | map (label : String) (extensions : Bool)

/-- What is reported: why nothing is extracted, or what goes with what is. -/
def reported? {α : Type} : Except RefError (Partial α) → Option RefError
  | .ok p => p.error
  | .error e => some e

namespace Extraction

/-- The node that is followed first if it is a reference: the root, or the value under the label. -/
def first? : Extraction → Node → Option Node
  | objectFrom _, n => some n.resolveAlias
  | mapFrom _, n => some n.resolveAlias.unwrapDocument
  | object label, n | sequence label, n | map label _, n =>
    (n.resolveAlias.labelled? label).map (·.2)

/-- Where a reference leads. Those of a sequence are followed to their end. -/
def leads : Extraction → Setting → Node → Except RefError (Option Located)
  | sequence _, s, n => chase s.registry n s.index s.context 0
  | _, s, n => locate s.registry n s.index s.context

/-- How a failure to follow a reference is reported. -/
def wrap : Extraction → RefError → RefError
  | objectFrom _ | object _ => .inObject
  | sequence _ => .inArray
  | mapFrom _ | map _ _ => .inMap

/-- The nodes that values are built from one by one, where `entry` has led. -/
def parts (x : Extraction) (mark : String) (entry : Entry) : List Node :=
  match x with
  | objectFrom _ | object _ => []
  | sequence label =>
    match sequenceAt label entry with
    | .ok found => found.items.map Node.resolveAlias
    | .error _ => []
  | mapFrom extensions | map _ extensions =>
    (keptPairs mark extensions entry.node).map (·.2.resolveAlias)

/-- One value is built, from where the reference leads itself. -/
def single : Extraction → Bool
  | objectFrom _ | object _ => true
  | _ => false

/-- Where a reference leads, as an entry to build from. -/
def enter (x : Extraction) (s : Setting) (n : Node) : Except RefError Entry :=
  Entry.through s n x.wrap (x.leads s n)

section Values

variable (ρ : Type) [Buildable ρ]

/-- What the extraction of values reports. -/
def report? (x : Extraction) (s : Setting) (n : Node) : Option RefError :=
  match x with
  | objectFrom key => reported? (extractObjectFrom s key n : Except _ (Partial (RawObject ρ)))
  | object label => reported? (extractObject s label n : Except _ (Partial (FromPair ρ)))
  | sequence label =>
    reported? (extractSequence s label n : Except _ (Partial (ExtractedSequence ρ)))
  | mapFrom extensions =>
    reported? (extractMapFrom s n extensions : Except _ (Partial (ExtractedMap ρ)))
  | map label extensions =>
    reported? (extractMap s label n extensions : Except _ (Partial (ExtractedMap ρ)))

/-- Filling the fields of a value fails, or its hook does. -/
def Unbuilt (entry : Entry) (e : RefError) : Prop :=
  ∃ key, (buildValue entry.setting key entry.node : Except RefError ρ) = .error e

/-- The failures that come before a cycle on the way to `entry`. -/
inductive Preempts (x : Extraction) (mark : String) (entry : Entry) : RefError → Prop
  | value {e : RefError} (alone : x.single = true) (fails : Unbuilt ρ entry e) :
    Preempts x mark entry e
  | part {n : Node} {reached : Entry} {e : RefError} (member : n ∈ x.parts mark entry)
    (led : x.enter entry.setting n = .ok reached) (fails : Unbuilt ρ reached e) :
    Preempts x mark entry e
  | lost {n : Node} {e : RefError} (member : n ∈ x.parts mark entry)
    (fails : x.leads entry.setting n = .error e) : Preempts x mark entry (x.wrap e)
  | noSequence {label : String} {e : RefError} (sequences : x = sequence label)
    (nothing : sequenceAt label entry = .error e) : Preempts x mark entry e

end Values

end Extraction

/-! ### What comes first -/

section Values

variable {ρ : Type} [Buildable ρ] {entry : Entry} {key : Option Node} {e cycle : RefError}

theorem Extraction.unbuilt_of_build (fails : (entry.build key : Except RefError ρ) = .error e) :
    Extraction.Unbuilt ρ entry e := by
  refine ⟨key, ?_⟩
  cases built : (buildValue entry.setting key entry.node : Except RefError ρ) with
  | error e' => simpa [Entry.build, built, bind, Except.bind] using fails
  | ok value => simp [Entry.build, built, bind, Except.bind, pure, Except.pure] at fails

theorem Extraction.leads_of_enter {x : Extraction} {s : Setting} {n : Node}
    (fails : x.enter s n = .error e) : ∃ cause, x.leads s n = .error cause ∧ e = x.wrap cause := by
  unfold enter Entry.through at fails
  split at fails
  · simp at fails
  · split at fails
    · simp at fails
    · simp at fails
    next cause failed => exact ⟨cause, failed, (Except.error.inj fails).symm⟩

/-- A part fails because its reference leads nowhere, or because no value is built from it. -/
theorem Extraction.preempts_of_part {x : Extraction} {mark : String} {n : Node} {α : Type}
    {finish : Entry → FromNode ρ → α} (member : n ∈ x.parts mark entry)
    (fails : (do
      let reached ← x.enter entry.setting n
      return finish reached (← reached.buildFromNode key) : Except RefError α) = .error e) :
    x.Preempts ρ mark entry e := by
  cases led : x.enter entry.setting n with
  | error e' =>
    obtain rfl : e' = e := by simpa [led, bind, Except.bind] using fails
    obtain ⟨cause, lost, rfl⟩ := Extraction.leads_of_enter led
    exact .lost member lost
  | ok reached =>
    cases built : (reached.build key : Except RefError ρ) with
    | error e' =>
      obtain rfl : e' = e := by
        simpa [led, Entry.buildFromNode, built, bind, Except.bind] using fails
      exact .part member led (Extraction.unbuilt_of_build built)
    | ok value =>
      simp [led, Entry.buildFromNode, built, bind, Except.bind, pure, Except.pure] at fails

/-- Past a cycle, that cycle is reported or one of the failures. -/
theorem Outcome.error?_past_cycle {α : Type} (cycle : RefError) (outcomes : List (Outcome α)) :
    error? (some cycle) outcomes = some cycle ∨
      ∃ e, error? (some cycle) outcomes = some e ∧ .error e ∈ outcomes := by
  unfold error?
  cases failure : firstFailure? outcomes with
  | none => exact .inl rfl
  | some e =>
    obtain ⟨outcome, member, found⟩ := List.exists_of_findSome?_eq_some failure
    refine .inr ⟨e, rfl, ?_⟩
    cases outcome with
    | ok built => simp at found
    | error e' =>
      obtain rfl : e' = e := by simpa using found
      exact member

end Values

/-! ### Extractions past a cycle -/

section Extractions

variable (ρ : Type) [Buildable ρ]

/-- The report is the cycle on the way to `entry`, or a failure that comes before it. -/
def Extraction.Told (x : Extraction) (mark : String) (entry : Entry) (cycle : RefError)
    (report : Option RefError) : Prop :=
  report = some cycle ∨ ∃ e, report = some e ∧ x.Preempts ρ mark entry e

variable {ρ} {x : Extraction} {mark : String} {entry : Entry} {cycle : RefError}

theorem Extraction.told_value {α : Type} (alone : x.single = true) (key : Option Node)
    (finish : ρ → α) (round : entry.circular = some cycle) :
    x.Told ρ mark entry cycle (reported? do
      let value ← entry.build key
      return ⟨finish value, entry.circular⟩) := by
  cases built : (entry.build key : Except RefError ρ) with
  | error e => exact .inr ⟨e, rfl, .value alone (unbuilt_of_build built)⟩
  | ok value => exact .inl round

theorem Extraction.told_parts {α β : Type} {outcomes : List (Outcome α)}
    (fails : ∀ e, .error e ∈ outcomes → x.Preempts ρ mark entry e)
    (round : entry.circular = some cycle) (value : β) :
    x.Told ρ mark entry cycle
      (reported? (.ok ⟨value, Outcome.error? entry.circular outcomes⟩)) := by
  rw [round]
  rcases Outcome.error?_past_cycle cycle outcomes with told | ⟨e, told, member⟩
  · exact .inl told
  · exact .inr ⟨e, told, fails e member⟩

theorem Extraction.told_buildEntries {extensions : Bool} (key : Option Node)
    (parts : x.parts mark entry = (keptPairs mark extensions entry.node).map (·.2.resolveAlias))
    (enters : ∀ t n, x.enter t n = Entry.resolve t n .inMap)
    (round : entry.circular = some cycle) :
    x.Told ρ mark entry cycle
      (reported? (.ok (buildEntries mark extensions key entry : Partial (ExtractedMap ρ)))) := by
  refine told_parts (fun e member => ?_) round _
  obtain ⟨pair, kept, fails⟩ := List.mem_map.mp member
  have listed : pair.2.resolveAlias ∈ x.parts mark entry := by
    rw [parts]
    exact List.mem_map_of_mem kept
  dsimp only at fails
  rw [buildEntry, ← enters] at fails
  exact preempts_of_part listed fails

theorem Extraction.isCircular_of_leads {s : Setting} {n : Node} {l : Located}
    (led : x.leads s n = .ok (some l)) (round : l.circular = some cycle) :
    cycle.isCircular = true := by
  cases x with
  | sequence label => exact isCircular_of_chaseWithin (s := ⟨n, s.index, s.context⟩) led round
  | _ => exact isCircular_of_locateWithin (s := ⟨n, s.index, s.context⟩) led round

theorem Extraction.enter_of_leads {s : Setting} {n : Node} {written : String} {l : Located}
    (text : n.refText? = some written) (led : x.leads s n = .ok (some l)) :
    x.enter s n = .ok (.ofLocated s written l) := by
  simp only [enter, Entry.through, text, led]

end Extractions

/-- Where following the reference at the top runs into a cycle that is not allowed, that cycle is
what the extraction reports, unless a failure comes first: of filling a value or of its hook, of
following the reference of a part, or of finding a sequence at all. -/
theorem cycle_reported {ρ : Type} [Buildable ρ] (x : Extraction) (s : Setting) {n first : Node}
    (there : x.first? n = some first) {written : String} (text : first.refText? = some written)
    {l : Located} (led : x.leads s first = .ok (some l)) {cycle : RefError}
    (round : l.circular = some cycle) :
    cycle.isCircular = true ∧
      x.Told ρ s.index.config.extensionPrefix (.ofLocated s written l) cycle (x.report? ρ s n) := by
  refine ⟨Extraction.isCircular_of_leads led round, ?_⟩
  have entered := Extraction.enter_of_leads text led
  have round : (Entry.ofLocated s written l).circular = some cycle := round
  -- From here on only the entry matters that the reference leads to.
  generalize Entry.ofLocated s written l = entry at entered round ⊢
  cases x with
  | objectFrom key =>
    obtain rfl : n.resolveAlias = first := Option.some.inj there
    have entered : Entry.resolve s n.resolveAlias .inObject = .ok entry := entered
    simp only [Extraction.report?, extractObjectFrom, entered]
    exact Extraction.told_value rfl key
      (fun value => (⟨value, entry.reference⟩ : RawObject ρ)) round
  | object label =>
    obtain ⟨⟨key, _⟩, found, rfl⟩ := Option.map_eq_some_iff.mp there
    have entered : Entry.resolve s _ .inObject = .ok entry := entered
    simp only [Extraction.report?, extractObject, found, entered]
    exact Extraction.told_value rfl (some key)
      (fun value => (⟨value, some key, some entry.node, entry.reference⟩ : FromPair ρ)) round
  | sequence label =>
    obtain ⟨⟨key, _⟩, found, rfl⟩ := Option.map_eq_some_iff.mp there
    have entered : Entry.chase s _ .inArray = .ok entry := entered
    simp only [Extraction.report?, extractSequence, found, entered, bind, Except.bind]
    cases reached : sequenceAt label entry with
    | error e => exact .inr ⟨e, rfl, .noSequence rfl reached⟩
    | ok sequence =>
      refine Extraction.told_parts (fun e member => ?_) round _
      obtain ⟨element, listed, fails⟩ := List.mem_map.mp member
      have listed : element.resolveAlias ∈
          (Extraction.sequence label).parts s.index.config.extensionPrefix entry := by
        simp only [Extraction.parts, reached]
        exact List.mem_map_of_mem listed
      have fails : buildElement entry.setting key element = .error e := fails
      exact Extraction.preempts_of_part listed fails
  | mapFrom extensions =>
    obtain rfl : n.resolveAlias.unwrapDocument = first := Option.some.inj there
    have entered : Entry.resolve s n.resolveAlias.unwrapDocument .inMap = .ok entry := entered
    simp only [Extraction.report?, extractMapFrom, entered]
    exact Extraction.told_buildEntries none rfl (fun _ _ => rfl) round
  | map label extensions =>
    obtain ⟨⟨key, _⟩, found, rfl⟩ := Option.map_eq_some_iff.mp there
    have entered : Entry.resolve s _ .inMap = .ok entry := entered
    simp only [Extraction.report?, extractMap, found, entered]
    cases mapping : entry.node.isMapping with
    | true =>
      simp only [bind, Except.bind, mapping, if_true]
      exact Extraction.told_buildEntries (some key) rfl (fun _ _ => rfl) round
    | false =>
      -- What is no mapping gives an empty map, and the cycle goes with it.
      simp only [bind, Except.bind, mapping]
      exact .inl round

/-- A root that is a reference is followed itself, whatever the label. -/
theorem Extraction.first?_of_isRef {n : Node} (reference : n.isRef = true)
    (plain : n.isAlias = false) (label : String) : (sequence label).first? n = some n := by
  obtain ⟨⟨key, value⟩, entry⟩ := Option.isSome_iff_exists.mp reference
  simp [first?, Node.resolveAlias_of_not_alias plain, Node.labelled?, entry]

/-- The round of `first` and `second`; beside its pointer, `first` has a list, and references that
lead nowhere. -/
def laden : Node := Build.runNew do
  let items ← [Build.string "one", Build.string "two"].mapM id
  let gaps ← [Build.reference "#/nowhere"].mapM id
  Build.object [
    ("first", Build.object [
      (referenceKey, Build.string "#/second"),
      ("list", Build.sequence items),
      ("gaps", Build.sequence gaps),
      ("lost", Build.reference "#/nowhere")]),
    ("second", Build.reference "#/first"),
    ("start", Build.reference "#/first")]

def Setting.laden : Setting := ⟨.alone, Index.ofDocument {} DocRefs.laden, {}⟩

/-- What is reported as a cycle at the end of a walk. -/
def roundOf? : Except RefError (Option Located) → Option RefError
  | .ok (some l) => l.circular
  | _ => none

theorem exists_located_of_roundOf? {result : Except RefError (Option Located)} {cycle : RefError}
    (round : roundOf? result = some cycle) :
    ∃ l, result = .ok (some l) ∧ l.circular = some cycle := by
  unfold roundOf? at round
  split at round
  next l => exact ⟨l, rfl, round⟩
  · simp at round

/-- The round that `start` runs into. -/
def ladenRound : RefError := .circular "first -> second -> first" {}

theorem cycle_reported_laden :
    let start := (laden.pairUnder "start").2
    (∃ l, (Extraction.sequence "list").leads .laden start = .ok (some l) ∧
      l.circular = some ladenRound ∧ ladenRound.isCircular = true ∧
      (Extraction.sequence "list").Told Word "x-" (.ofLocated .laden "#/first" l) ladenRound
        ((Extraction.sequence "list").report? Word .laden start)) ∧
      (Extraction.sequence "list").report? Word .laden start = some ladenRound := by
  intro start
  have round : roundOf? ((Extraction.sequence "list").leads .laden start) = some ladenRound := by
    decide +kernel
  obtain ⟨l, led, round⟩ := exists_located_of_roundOf? round
  have there : (Extraction.sequence "list").first? start = some start :=
    Extraction.first?_of_isRef (by decide +kernel) (by decide +kernel) "list"
  have text : start.refText? = some "#/first" := by decide +kernel
  obtain ⟨circular, told⟩ :=
    cycle_reported (ρ := Word) (.sequence "list") .laden there text led round
  exact ⟨⟨l, led, round, circular, told⟩, by decide +kernel⟩

/-- Past the round, the map and the list `gaps` report the reference that leads nowhere, though no
word fails to be built, and where there is no list at all, that is reported. -/
theorem cycle_not_reported :
    let start := (laden.pairUnder "start").2
    let map := Extraction.map "start" false
    let gaps := Extraction.sequence "gaps"
    let absent := Extraction.sequence "absent"
    (∀ entry e, ¬ Extraction.Unbuilt Word entry e) ∧
      (map.first? laden).map (·.id) = some start.id ∧
      (gaps.first? start).map (·.id) = some start.id ∧
      (absent.first? start).map (·.id) = some start.id ∧
      (roundOf? (map.leads .laden start) = some ladenRound ∧
        map.report? Word .laden laden = some (.inMap (.notFound "#/nowhere" {}))) ∧
      (roundOf? (gaps.leads .laden start) = some ladenRound ∧
        gaps.report? Word .laden start = some (.inArray (.notFound "#/nowhere" {}))) ∧
      (roundOf? (absent.leads .laden start) = some ladenRound ∧
        absent.report? Word .laden start = some (.notAnArray {})) ∧
      (RefError.inMap (.notFound "#/nowhere" {})).isCircular = false ∧
      (RefError.inArray (.notFound "#/nowhere" {})).isCircular = false ∧
      (RefError.notAnArray {}).isCircular = false := by
  refine ⟨?_, by decide +kernel, by decide +kernel, by decide +kernel, by decide +kernel,
    by decide +kernel, by decide +kernel, rfl, rfl, rfl⟩
  rintro entry e ⟨key, fails⟩
  simp [buildValue, Buildable.fields, populate_nil, Partial.toExcept, Partial.ok, Buildable.build,
    bind, Except.bind] at fails

end DocRefs
