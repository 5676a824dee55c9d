import DocRefs.Extract.Map
import DocRefs.Extract.Object
import DocRefs.Extract.Sequence
import DocRefs.Proofs.Resolve.Arrival

/-!
# Extraction through references

A value can stand under a label itself, or a reference to it can. Main result:
`extract_through_reference`. What is extracted under the reference is what is extracted under the
value, up to the key and the pointer that is taken note of. The reference leads to an entry that
differs from that of the value in nothing else (`Entry.resolve_of_points`,
`Entry.chase_of_points`), and the builder does not look at what differs.
-/
namespace DocRefs

/-! ### Builders that do not look -/

/-- The hook does not look at the key, and no note is taken of pointers. -/
structure Buildable.Blind (ρ : Type) [Buildable ρ] : Prop where
  build_key : ∀ setting key other n (value : ρ),
    Buildable.build setting key n value = Buildable.build setting other n value
  setReference : ∀ reference key (value : ρ), Buildable.setReference reference key value = value

section Blind

variable {ρ : Type} [Buildable ρ]

theorem Buildable.Blind.build_eq (blind : Buildable.Blind ρ) (entry : Entry) (key : Option Node) :
    (entry.build key : Except RefError ρ) = buildValue entry.setting none entry.node := by
  have build (value : ρ) : Buildable.build entry.setting key entry.node value =
      Buildable.build entry.setting none entry.node value := blind.build_key _ _ _ _ value
  cases reference : entry.reference <;>
    simp [Entry.build, buildValue, reference, build, blind.setReference]

theorem Buildable.Blind.buildElement_eq (blind : Buildable.Blind ρ) (setting : Setting)
    (key other : Node) :
    (buildElement setting key : Node → Outcome (FromNode ρ)) = buildElement setting other := by
  funext element
  simp [buildElement, Entry.buildFromNode, blind.build_eq]

end Blind

/-! ### The way to a value -/

namespace Index

/-- The reference `n` points at the value `t`, which stands in the document itself and not as an
alias, unless it is a reference too. -/
structure Points (ix : Index) (n t : Node) (h : Hop) : Prop where
  hop : ix.plainHop? n = some h
  same : h.place.resolveAlias = t
  direct : h.place.isAlias = false ∨ h.place.isRef = true
  finds : ix.Finds h.pointer

/-- The chain from a node takes fewer hops than a walk has, and ends. -/
structure Chain (ix : Index) (n : Node) (passed : List Hop) : Prop where
  trail : ix.Trail n passed
  short : passed.length < maxHops
  ends : (endOf n passed).isRef = false

end Index

theorem Node.isAlias_resolveAlias_of_isRef {n : Node} (reference : n.isRef = true) :
    n.resolveAlias.isAlias = false := by
  cases resolved : n.resolveAlias with
  | aliasTo info target => simp [Node.isRef, Node.refEntry?, resolved, Node.pairs] at reference
  | _ => rfl

theorem Node.unwrapDocument_of_not_document {n : Node} (other : n.isDocument = false) :
    n.unwrapDocument = n := by
  cases n with
  | document info root => simp [isDocument, kind] at other
  | _ => rfl

namespace Index.Points

variable {ix : Index} {n t : Node} {h : Hop}

theorem isAlias_eq_false (points : ix.Points n t h) : t.isAlias = false := by
  rw [← points.same]
  rcases points.direct with plain | reference
  · rwa [Node.resolveAlias_of_not_alias plain]
  · exact Node.isAlias_resolveAlias_of_isRef reference

theorem refEntry?_eq (points : ix.Points n t h) : h.place.refEntry? = t.refEntry? := by
  rw [Node.refEntry?, Node.refEntry?, Node.resolveAlias_of_not_alias points.isAlias_eq_false,
    points.same]

theorem isRef_eq (points : ix.Points n t h) : h.place.isRef = t.isRef := by
  rw [Node.isRef, Node.isRef, points.refEntry?_eq]

theorem place_eq (points : ix.Points n t h) (plain : t.isRef = false) : h.place = t := by
  rw [← points.same]
  refine (Node.resolveAlias_of_not_alias (points.direct.resolve_right ?_)).symm
  simp [points.isRef_eq, plain]

end Index.Points

section Alone

variable {config : Config} {document : Node} (registry : Registry) {context : Context}
  {n t : Node} {h : Hop} {passed : List Hop}

open Index

theorem locate_of_points_value (suits : (ofDocument config document).Suits context)
    (points : (ofDocument config document).Points n t h) (plain : t.isRef = false) :
    locate registry n (ofDocument config document) context =
      .ok (some ((ofDocument config document).arrivalAt context h)) :=
  locateWithin_arrival registry 99 suits points.hop points.finds fun _ =>
    points.isRef_eq.trans plain

theorem chase_of_points_value (suits : (ofDocument config document).Suits context)
    (points : (ofDocument config document).Points n t h) (plain : t.isRef = false) :
    chase registry n (ofDocument config document) context 0 =
      .ok (some ((ofDocument config document).arrivalAt context h)) := by
  have found : locateWithin registry (99 + 1) n (ofDocument config document) context =
      .ok (some ((ofDocument config document).arrivalAt context h)) :=
    locate_of_points_value registry suits points plain
  rw [chase, show maxHops - 0 = 99 + 1 from rfl, chaseWithin_succ, found, ok_chaseOn]
  simp [chaseOn, arrivalAt, points.isRef_eq, plain]

/-- A known reference to a reference leads where that leads. -/
theorem locate_of_points_reference (clear : (ofDocument config document).findings = [])
    (suits : (ofDocument config document).Suits context)
    (points : (ofDocument config document).Points n t h)
    (chain : (ofDocument config document).Chain t passed) (reference : t.isRef = true)
    (known : (ofDocument config document).Knows h.pointer) :
    locate registry n (ofDocument config document) context =
      locate registry t (ofDocument config document) context := by
  -- One hop is taken to `t`, and the chain from there can spare it.
  have short : passed.length ≤ 99 := Nat.le_of_lt_succ chain.short
  have enough := locateWithin_ne_depthExceeded registry clear suits chain.trail chain.ends short
  have onward : h.place.isRef = true := points.isRef_eq.trans reference
  calc locateWithin registry (99 + 1) n (ofDocument config document) context
    _ = locateWithin registry 99 h.place (ofDocument config document) context :=
        locateWithin_onward registry 99 clear suits points.hop known onward
    _ = locateWithin registry 99 t (ofDocument config document) context :=
        locateWithin_congr points.refEntry?_eq _ _ _
    _ = locateWithin registry (99 + 1) t (ofDocument config document) context :=
        (locateWithin_mono (Nat.le_succ 99) enough).symm

/-- A chase goes on from a reference, whether the pointer to it is known or was searched for. -/
theorem chase_of_points_reference (clear : (ofDocument config document).findings = [])
    (suits : (ofDocument config document).Suits context)
    (points : (ofDocument config document).Points n t h)
    (chain : (ofDocument config document).Chain t passed) (reference : t.isRef = true) :
    chase registry n (ofDocument config document) context 0 =
      chase registry t (ofDocument config document) context 0 := by
  have budget : maxHops - 0 = 99 + 1 := rfl
  have short : passed.length ≤ 99 := Nat.le_of_lt_succ chain.short
  rw [chase, chase, budget]
  by_cases known : (ofDocument config document).Knows h.pointer
  · have same : locateWithin registry (99 + 1) n (ofDocument config document) context =
        locateWithin registry (99 + 1) t (ofDocument config document) context :=
      locate_of_points_reference registry clear suits points chain reference known
    rw [chaseWithin_succ, chaseWithin_succ, same]
  · -- The location rests at the reference, and the chase starts anew from there.
    have found := locateWithin_arrival registry 99 suits points.hop points.finds
      fun there => absurd there known
    have enough := chaseWithin_ne_depthExceeded registry clear suits chain.trail chain.ends short
      (by decide)
    have onward : chaseOn registry 99 (some ((ofDocument config document).arrivalAt context h)) =
        chaseWithin registry 99 h.place (ofDocument config document) context := by
      simp [chaseOn, arrivalAt, points.isRef_eq, reference]
    rw [chaseWithin_mono (Nat.le_succ 99) enough, chaseWithin_succ, found, ok_chaseOn, onward,
      chaseWithin_congr points.refEntry?_eq]

/-! ### Entries -/

variable {registry}

/-- The entry for a node and what following it has come to. -/
def Entry.through (setting : Setting) (n : Node) (wrap : RefError → RefError)
    (result : Except RefError (Option Located)) : Except RefError Entry :=
  match n.refText? with
  | none => .ok { node := n, setting }
  | some written =>
    match result with
    | .ok (some located) => .ok (ofLocated setting written located)
    | .ok none => .ok { node := n, setting }
    | .error e => .error (wrap e)

theorem Entry.resolve_eq (setting : Setting) (n : Node) (wrap : RefError → RefError) :
    Entry.resolve setting n wrap = Entry.through setting n wrap
      (locate setting.registry n setting.index setting.context) := rfl

theorem Entry.chase_eq (setting : Setting) (n : Node) (wrap : RefError → RefError) :
    Entry.chase setting n wrap = Entry.through setting n wrap
      (DocRefs.chase setting.registry n setting.index setting.context 0) := rfl

/-- Where following the reference comes to the value, or to what following the value comes to, the
entries differ in the pointer only. -/
theorem Entry.through_of_points {wrap : RefError → RefError} {entry : Entry}
    {result other : Except RefError (Option Located)}
    (points : (ofDocument config document).Points n t h)
    (value : t.isRef = false → result =
      .ok (some ((ofDocument config document).arrivalAt context h)))
    (onward : t.isRef = true → result = other ∧ other ≠ .ok none)
    (direct : Entry.through ⟨registry, ofDocument config document, context⟩ t wrap other =
      .ok entry) :
    Entry.through ⟨registry, ofDocument config document, context⟩ n wrap result =
      .ok { entry with reference := n.refText? } := by
  obtain ⟨key, written, found, _⟩ := plainHop?_eq_some points.hop
  have reads : n.refText? = some written.text := by simp [Node.refText?, found]
  cases reference : t.isRef with
  | false =>
    -- The value is taken as it is, and the place that the reference comes to is the value.
    have plain : t.refText? = none := by simpa [Node.refText?, Node.isRef] using reference
    simp only [Entry.through, plain] at direct
    rw [← Except.ok.inj direct, value reference]
    simp [Entry.through, reads, ofLocated, arrivalAt, points.place_eq reference]
  | true =>
    -- Both follow the same chain; only the first text of it is another.
    obtain ⟨rfl, some_there⟩ := onward reference
    obtain ⟨⟨_, other⟩, there⟩ := Option.isSome_iff_exists.mp reference
    have leads : t.refText? = some other.text := by simp [Node.refText?, there]
    simp only [Entry.through, leads] at direct
    simp only [Entry.through, reads]
    split at direct
    · rw [← Except.ok.inj direct]
      rfl
    · exact absurd rfl some_there
    · simp at direct

theorem Entry.resolve_of_points {wrap : RefError → RefError} {entry : Entry}
    (clear : (ofDocument config document).findings = [])
    (suits : (ofDocument config document).Suits context)
    (points : (ofDocument config document).Points n t h)
    (chain : (ofDocument config document).Chain t passed)
    (known : h.place.isRef = true → (ofDocument config document).Knows h.pointer)
    (direct : Entry.resolve ⟨registry, ofDocument config document, context⟩ t wrap = .ok entry) :
    Entry.resolve ⟨registry, ofDocument config document, context⟩ n wrap =
      .ok { entry with reference := n.refText? } := by
  rw [Entry.resolve_eq] at direct ⊢
  refine through_of_points points (locate_of_points_value _ suits points) ?_ direct
  intro reference
  constructor
  · exact locate_of_points_reference _ clear suits points chain reference
      (known (points.isRef_eq.trans reference))
  intro nothing
  have plain := isRef_eq_false_of_locateWithin
    (s := ⟨t, ofDocument config document, context⟩) nothing
  simp [reference] at plain

theorem Entry.chase_of_points {wrap : RefError → RefError} {entry : Entry}
    (clear : (ofDocument config document).findings = [])
    (suits : (ofDocument config document).Suits context)
    (points : (ofDocument config document).Points n t h)
    (chain : (ofDocument config document).Chain t passed)
    (direct : Entry.chase ⟨registry, ofDocument config document, context⟩ t wrap = .ok entry) :
    Entry.chase ⟨registry, ofDocument config document, context⟩ n wrap =
      .ok { entry with reference := n.refText? } := by
  rw [Entry.chase_eq] at direct ⊢
  refine through_of_points points (chase_of_points_value _ suits points) ?_ direct
  intro reference
  constructor
  · exact chase_of_points_reference _ clear suits points chain reference
  intro nothing
  have plain := isRef_eq_false_of_chaseWithin nothing
  simp [reference] at plain

theorem Entry.node_of_chase {wrap : RefError → RefError} {entry : Entry}
    (clear : (ofDocument config document).findings = [])
    (suits : (ofDocument config document).Suits context)
    (chain : (ofDocument config document).Chain t passed)
    (direct : Entry.chase ⟨registry, ofDocument config document, context⟩ t wrap = .ok entry) :
    entry.node = endOf t passed := by
  rw [Entry.chase_eq, Entry.through] at direct
  cases reads : t.refText? with
  | none =>
    have plain : t.isRef = false := by simpa [Node.isRef, Node.refText?] using reads
    obtain rfl := chain.trail.eq_nil plain
    simp only [reads] at direct
    rw [← Except.ok.inj direct, endOf_nil]
  | some written =>
    simp only [reads] at direct
    rcases chaseWithin_trail registry clear suits chain.trail chain.ends
        (Nat.le_of_lt chain.short) (by decide) with
      ⟨rfl, _⟩ | ⟨e, fails, _⟩ | ⟨front, last, rfl, found⟩
    · have plain := chain.ends
      rw [endOf_nil, Node.isRef] at plain
      simp_all [Node.refText?]
    · have fails : DocRefs.chase registry t (ofDocument config document) context 0 = .error e :=
        fails
      simp [fails] at direct
    · have found : DocRefs.chase registry t (ofDocument config document) context 0 =
          .ok (some ((ofDocument config document).arrivalAt context last)) := found
      simp only [found] at direct
      rw [← Except.ok.inj direct, endOf_append, endOf_nil]
      rfl

end Alone

/-! ### Extractions -/

theorem Node.labelled?_eq_some {root key value : Node} {label : String} (plain : root.isRef = false)
    (there : root.resolveAlias.findKey? label = some (key, value)) :
    root.resolveAlias.labelled? label = some (key, value.resolveAlias) := by
  have solid : root.resolveAlias.isAlias = false := by
    cases resolved : root.resolveAlias with
    | aliasTo info target => simp [resolved, Node.findKey?, Node.pairs] at there
    | _ => rfl
  have unread : root.resolveAlias.refEntry? = none := by
    rw [Node.refEntry?, Node.resolveAlias_of_not_alias solid]
    simpa [Node.isRef, Node.refEntry?] using plain
  simp [Node.labelled?, unread, there]

theorem sequenceAt_of_not_mapping {entry : Entry} (plain : entry.node.isMapping = false)
    (label : String) : sequenceAt label entry =
      if entry.node.isSequence then .ok entry.node
      else .error (.notAnArray entry.node.position) := by
  have none_there : entry.node.findKey? label = none := by
    cases node : entry.node with
    | mapping info pairs => simp [node, Node.isMapping, Node.kind] at plain
    | _ => rfl
  simp [sequenceAt, none_there]

section Labels

variable {ρ : Type} [Buildable ρ] {setting : Setting} {root : Node} {direct through : String}
  {directKey throughKey value reference : Node}

theorem extractObject_of_entry (blind : Buildable.Blind ρ)
    (direct_there : root.resolveAlias.labelled? direct = some (directKey, value))
    (through_there : root.resolveAlias.labelled? through = some (throughKey, reference))
    (leads : ∀ entry, Entry.resolve setting value .inObject = .ok entry →
      Entry.resolve setting reference .inObject =
        .ok { entry with reference := reference.refText? })
    {p : Partial (FromPair ρ)} (extracted : extractObject setting direct root = .ok p) :
    extractObject setting through root = .ok { p with
      value := { p.value with key := some throughKey, reference := reference.refText? } } := by
  simp only [extractObject, direct_there] at extracted
  simp only [extractObject, through_there]
  cases found : Entry.resolve setting value .inObject with
  | error e => simp [found, bind, Except.bind] at extracted
  | ok entry =>
    rw [leads entry found]
    rw [found] at extracted
    simp only [bind, Except.bind, blind.build_eq] at extracted ⊢
    cases built : (buildValue entry.setting none entry.node : Except RefError ρ) with
    | error e => simp [built] at extracted
    | ok value =>
      rw [built] at extracted
      obtain rfl := Except.ok.inj extracted
      rfl

theorem extractMap_of_entry
    (direct_there : root.resolveAlias.labelled? direct = some (directKey, value))
    (through_there : root.resolveAlias.labelled? through = some (throughKey, reference))
    (leads : ∀ entry, Entry.resolve setting value .inMap = .ok entry →
      Entry.resolve setting reference .inMap = .ok { entry with reference := reference.refText? })
    {extensions : Bool} {p : Partial (ExtractedMap ρ)}
    (extracted : extractMap setting direct root extensions = .ok p) :
    extractMap setting through root extensions =
      .ok { p with value := { p.value with key := some throughKey } } := by
  simp only [extractMap, direct_there] at extracted
  simp only [extractMap, through_there]
  cases found : Entry.resolve setting value .inMap with
  | error e => simp [found, bind, Except.bind] at extracted
  | ok entry =>
    rw [leads entry found]
    rw [found] at extracted
    simp only [bind, Except.bind] at extracted ⊢
    split at extracted
    next mapping =>
      obtain rfl := Except.ok.inj extracted
      simp [mapping, buildEntries, pure, Except.pure]
    next other =>
      obtain rfl := Except.ok.inj extracted
      simp [other, pure, Except.pure]

theorem extractSequence_of_entry (blind : Buildable.Blind ρ)
    (direct_there : root.resolveAlias.labelled? direct = some (directKey, value))
    (through_there : root.resolveAlias.labelled? through = some (throughKey, reference))
    (leads : ∀ entry, Entry.chase setting value .inArray = .ok entry →
      entry.node.isMapping = false ∧ Entry.chase setting reference .inArray =
        .ok { entry with reference := reference.refText? })
    {p : Partial (ExtractedSequence ρ)} (extracted : extractSequence setting direct root = .ok p) :
    extractSequence setting through root =
      .ok { p with value := { p.value with key := some throughKey } } := by
  simp only [extractSequence, direct_there] at extracted
  simp only [extractSequence, through_there]
  cases found : Entry.chase setting value .inArray with
  | error e => simp [found, bind, Except.bind] at extracted
  | ok entry =>
    obtain ⟨plain, leads⟩ := leads entry found
    rw [leads]
    rw [found] at extracted
    simp only [bind, Except.bind, sequenceAt_of_not_mapping plain] at extracted ⊢
    split at extracted
    · simp at extracted
    next sequence there =>
      have reached : ({ entry with reference := reference.refText? } : Entry).node.isMapping =
          false := plain
      rw [sequenceAt_of_not_mapping reached, there,
        blind.buildElement_eq entry.setting throughKey directKey]
      obtain rfl := Except.ok.inj extracted
      rfl

end Labels

open Index in
/-- In a document without findings, a reference under one label points at the value under another,
which stands there itself or begins a chain that is shorter than a walk and ends. Then an object and
a map are extracted under the reference as under the value, unless the value is a reference that no
table has the pointer to; and so is a sequence, unless the chain ends at a mapping. Only the key and
the pointer that is taken note of differ. -/
theorem extract_through_reference {ρ : Type} [Buildable ρ] (blind : Buildable.Blind ρ)
    (config : Config) (document : Node) (registry : Registry) (context : Context)
    (clear : (ofDocument config document).findings = [])
    (suits : (ofDocument config document).Suits context) (root : Node) (plain : root.isRef = false)
    (direct through : String) (directKey value throughKey reference : Node)
    (direct_there : root.resolveAlias.findKey? direct = some (directKey, value))
    (through_there : root.resolveAlias.findKey? through = some (throughKey, reference))
    (h : Hop) (passed : List Hop)
    (points : (ofDocument config document).Points reference.resolveAlias value.resolveAlias h)
    (chain : (ofDocument config document).Chain value.resolveAlias passed) :
    let setting : Setting := ⟨registry, ofDocument config document, context⟩
    ((h.place.isRef = true → (ofDocument config document).Knows h.pointer) →
      (∀ p : Partial (FromPair ρ), extractObject setting direct root = .ok p →
        extractObject setting through root = .ok { p with
          value := { p.value with
            key := some throughKey, reference := reference.resolveAlias.refText? } }) ∧
      (∀ extensions, ∀ p : Partial (ExtractedMap ρ),
        extractMap setting direct root extensions = .ok p →
          extractMap setting through root extensions =
            .ok { p with value := { p.value with key := some throughKey } })) ∧
    ((endOf value.resolveAlias passed).isMapping = false →
      ∀ p : Partial (ExtractedSequence ρ), extractSequence setting direct root = .ok p →
        extractSequence setting through root =
          .ok { p with value := { p.value with key := some throughKey } }) := by
  intro setting
  have direct_there := Node.labelled?_eq_some plain direct_there
  have through_there := Node.labelled?_eq_some plain through_there
  constructor
  · intro known
    constructor
    · intro p extracted
      refine extractObject_of_entry blind direct_there through_there ?_ extracted
      intro entry there
      exact Entry.resolve_of_points clear suits points chain known there
    · intro extensions p extracted
      refine extractMap_of_entry direct_there through_there ?_ extracted
      intro entry there
      exact Entry.resolve_of_points clear suits points chain known there
  · intro no_mapping p extracted
    refine extractSequence_of_entry blind direct_there through_there ?_ extracted
    intro entry there
    constructor
    · rw [Entry.node_of_chase clear suits chain there]
      exact no_mapping
    · exact Entry.chase_of_points clear suits points chain there

/-- A value that keeps the text of its node. -/
structure Word where
  text : String := ""
  deriving DecidableEq

instance : Buildable Word where
  initial := {}
  build _ _ n _ := .ok ⟨n.text⟩

theorem Word.blind : Buildable.Blind Word := ⟨fun _ _ _ _ _ => rfl, fun _ _ _ => rfl⟩

/-- The pair for a label that is there. -/
def Node.pairUnder (root : Node) (label : String) : Node × Node :=
  (root.resolveAlias.findKey? label).getD default

theorem Node.findKey?_pairUnder (root : Node) (label : String)
    (there : (root.resolveAlias.findKey? label).isSome = true) :
    root.resolveAlias.findKey? label = some (root.pairUnder label) := by
  obtain ⟨pair, found⟩ := Option.isSome_iff_exists.mp there
  simp [pairUnder, found]

/-- `names` leads to the list through `far`. -/
def relayed : Node := Build.runNew do
  let items ← [Build.string "one", Build.string "two"].mapM id
  Build.object [
    ("list", Build.sequence items),
    ("far", Build.reference "#/list"),
    ("names", Build.reference "#/far")]

/-- The text of the node that a word was built from. -/
def wordOf? : Except RefError (Partial (FromPair Word)) → Option String
  | .ok p => some p.value.value.text
  | .error _ => none

/-- The texts of the nodes that words were built from. -/
def wordsOf? : Except RefError (Partial (ExtractedSequence Word)) → Option (List String)
  | .ok p => some (p.value.items.map (·.value.text))
  | .error _ => none

theorem points_relayed : ∃ h, (Index.ofDocument {} relayed).Points
    (relayed.pairUnder "names").2.resolveAlias (relayed.pairUnder "far").2.resolveAlias h ∧
      (Index.ofDocument {} relayed).Knows h.pointer := by
  have leads : ((Index.ofDocument {} relayed).plainHop?
      (relayed.pairUnder "names").2.resolveAlias).map (·.place.resolveAlias) =
        some (relayed.pairUnder "far").2.resolveAlias := by rfl
  have known : ((Index.ofDocument {} relayed).plainHop?
      (relayed.pairUnder "names").2.resolveAlias).all (fun h =>
        !h.place.isAlias && decide ((Index.ofDocument {} relayed).Knows h.pointer)) = true := by
    decide +kernel
  obtain ⟨h, hop, same⟩ := Option.map_eq_some_iff.mp leads
  obtain ⟨direct, known⟩ : h.place.isAlias = false ∧
      (Index.ofDocument {} relayed).Knows h.pointer := by simpa [hop] using known
  exact ⟨h, ⟨hop, same, .inl direct, .inl known⟩, known⟩

theorem extract_through_reference_relayed :
    let setting : Setting := ⟨.alone, Index.ofDocument {} relayed, {}⟩
    let names := relayed.pairUnder "names"
    (∃ p : Partial (ExtractedSequence Word), extractSequence setting "far" relayed = .ok p ∧
      p.value.items.map (·.value.text) = ["one", "two"] ∧
      extractSequence setting "names" relayed =
        .ok { p with value := { p.value with key := some names.1 } }) ∧
    ∃ p : Partial (FromPair Word), extractObject setting "far" relayed = .ok p ∧
      extractObject setting "names" relayed = .ok { p with
        value := { p.value with
          key := some names.1, reference := names.2.resolveAlias.refText? } } := by
  intro setting names
  have far_there := relayed.findKey?_pairUnder "far" (by decide +kernel)
  have names_there := relayed.findKey?_pairUnder "names" (by decide +kernel)
  have chain : (Index.ofDocument {} relayed).Chain (relayed.pairUnder "far").2.resolveAlias
      ((Index.ofDocument {} relayed).plainWalk 1 (relayed.pairUnder "far").2.resolveAlias) :=
    ⟨Index.trail_plainWalk _ 1 _, by decide +kernel, by decide +kernel⟩
  obtain ⟨h, points, known⟩ := points_relayed
  obtain ⟨others, sequences⟩ := extract_through_reference Word.blind {} relayed .alone {} (by rfl)
    (by rfl) relayed (by decide +kernel) "far" "names" _ _ _ _ far_there names_there h _ points
    chain
  obtain ⟨objects, _⟩ := others fun _ => known
  have words : wordsOf? (extractSequence setting "far" relayed) = some ["one", "two"] := by
    decide +kernel
  have word : wordOf? (extractObject setting "far" relayed) = some "" := by decide +kernel
  constructor
  · unfold wordsOf? at words
    split at words
    next p extracted =>
      exact ⟨p, extracted, Option.some.inj words, sequences (by decide +kernel) p extracted⟩
    · simp at words
  · unfold wordOf? at word
    split at word
    next p extracted => exact ⟨p, extracted, objects p extracted⟩
    · simp at word

/-- The sequence of `list` is under its label in the mapping that it leads to, `copy` is an alias,
and no table has the pointer of `odd`. -/
def shifted : Node := Build.runNew do
  let items ← [Build.string "one"].mapM id
  let base ← Build.sequence items
  let slash ← Build.string "#//far"
  Build.object [
    ("list", Build.reference "#/holder"),
    ("holder", Build.object [("list", Build.sequence items)]),
    ("names", Build.reference "#/list"),
    ("base", pure base),
    ("copy", Build.aliasTo base),
    ("copied", Build.reference "#/copy"),
    ("end", Build.string "x"),
    ("far", Build.reference "#/end"),
    ("slash", pure slash),
    ("odd", Build.object [(referenceKey, Build.aliasTo slash)])]

/-- Under `names`, `copied` and `odd`, other things are extracted than under the labels that they
point at. -/
theorem extract_changed_by_reference :
    let ix := Index.ofDocument {} shifted
    let setting : Setting := ⟨.alone, ix, {}⟩
    ix.findings = [] ∧
      (∀ labels ∈ [("names", "list"), ("copied", "copy"), ("odd", "far")],
        (ix.plainHop? (shifted.pairUnder labels.1).2).any (fun h =>
          h.place.isSame (shifted.pairUnder labels.2).2) = true) ∧
      (wordsOf? (extractSequence setting "list" shifted) = some ["one"] ∧
        wordsOf? (extractSequence setting "names" shifted) = none) ∧
      (wordsOf? (extractSequence setting "copy" shifted) = some ["one"] ∧
        wordsOf? (extractSequence setting "copied" shifted) = none) ∧
      (wordOf? (extractObject setting "far" shifted) = some "x" ∧
        wordOf? (extractObject setting "odd" shifted) = some "") := by
  intro ix setting
  exact ⟨by rfl, by decide +kernel, by decide +kernel, by decide +kernel, by decide +kernel⟩

end DocRefs
