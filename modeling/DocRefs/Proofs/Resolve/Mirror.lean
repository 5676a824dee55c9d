import DocRefs.Proofs.Resolve.Chain
import DocRefs.Proofs.Resolve.Route
import Mathlib.Data.Option.Basic

/-!
# Walks side by side

Two registries can hold indexes that differ in something that a walk does not look at. If they
correspond, and corresponding indexes answer alike, a walk takes the same hops in both
(`Mirror.locateWithin`, `Mirror.chaseWithin`). The outcomes differ in the indexes themselves, and in
the report of a cycle where those have different policies.
-/
namespace DocRefs

/-- The indexes are of one document, and what they know of it is the same. -/
structure Index.Alike (a b : Index) : Prop where
  catalog : a.toCatalog = b.toCatalog
  baseUrl : a.config.baseUrl = b.config.baseUrl
  mapped : ∀ pointer, a.isLocal (Location.splitPointer pointer).1 = true →
    a.mapped.get? pointer = b.mapped.get? pointer
  listed : ∀ pointer, a.isLocal (Location.splitPointer pointer).1 = true →
    a.listed? pointer = b.listed? pointer
  findings : a.findings = b.findings

/-- The report of a cycle, unless the index allows cycles. -/
def Index.reports (ix : Index) (report : Option RefError) : Option RefError :=
  if ix.config.allowCircular then none else report

/-- What a registry holds corresponds by `R` to what the other one holds. -/
structure Mirror (R : Index → Index → Prop) (registry other : Registry) : Prop where
  alike : ∀ {a b}, R a b → a.Alike b
  member : ∀ {a b}, R a b → (a.registry = some registry.key ↔ b.registry = some other.key)
  documents : ∀ location,
    Option.Rel R (registry.documents.get? location) (other.documents.get? location)

/-- The locations differ at most in their indexes, which correspond, and in what those report. -/
structure Located.Mirrors (R : Index → Index → Prop) (l m : Located) : Prop where
  node : l.node = m.node
  index : R l.index m.index
  context : l.context = m.context
  pointer : l.pointer = m.pointer
  onCycle : l.onCycle = m.onCycle
  circular : ∃ report, (∀ e, report = some e → e.isCircular = true) ∧
    l.circular = l.index.reports report ∧ m.circular = m.index.reports report

/-- Both fail with one error, or both succeed with related results. -/
inductive Alongside {α β : Type} (R : α → β → Prop) : Except RefError α → Except RefError β → Prop
  | fails (e : RefError) : Alongside R (.error e) (.error e)
  | succeeds {a : α} {b : β} (related : R a b) : Alongside R (.ok a) (.ok b)

theorem Alongside.bind {α β γ δ : Type} {R : α → β → Prop} {S : γ → δ → Prop}
    {x : Except RefError α} {y : Except RefError β} {f : α → Except RefError γ}
    {g : β → Except RefError δ} (both : Alongside R x y)
    (onward : ∀ a b, R a b → Alongside S (f a) (g b)) : Alongside S (x >>= f) (y >>= g) := by
  cases both with
  | fails e => exact .fails e
  | @succeeds a b related => exact onward a b related

theorem Alongside.refl {α : Type} (x : Except RefError α) : Alongside Eq x x := by
  cases x with
  | error e => exact .fails e
  | ok a => exact .succeeds rfl

/-- The walks fail alike, or come to corresponding locations. -/
abbrev Mirrored (R : Index → Index → Prop) :
    Except RefError (Option Located) → Except RefError (Option Located) → Prop :=
  Alongside (Option.Rel (Located.Mirrors R))

/-! ### What alike indexes know -/

namespace Index.Alike

variable {a b : Index}

theorem location (alike : a.Alike b) : a.location = b.location := by rw [alike.catalog]

theorem absolute (alike : a.Alike b) : a.absolute = b.absolute := by
  funext pointer
  rw [Index.absolute, Index.absolute, alike.location, alike.baseUrl]

theorem pointerIn (alike : a.Alike b) : a.pointerIn = b.pointerIn := by
  funext context written
  rw [Index.pointerIn, Index.pointerIn, alike.location, alike.baseUrl]

theorem findingFor? (alike : a.Alike b) : a.findingFor? = b.findingFor? := by
  funext n
  simp only [Index.findingFor?, alike.findings, alike.absolute]

theorem search? (alike : a.Alike b) : a.search? = b.search? := by
  funext pointer
  simp only [Index.search?, alike.catalog]

theorem find? (alike : a.Alike b) (fragment : String) : a.find? fragment = b.find? fragment := by
  rw [alike.catalog]

end Index.Alike

namespace Mirror

variable {R : Index → Index → Prop} {registry other : Registry} {a b : Index}

theorem indexAt? (mirror : Mirror R registry other) (location : String) :
    Option.Rel R (registry.indexAt? location) (other.indexAt? location) := by
  unfold Registry.indexAt?
  have here := mirror.documents location
  generalize registry.documents.get? location = x at here ⊢
  generalize other.documents.get? location = y at here ⊢
  cases here with
  | some related => exact .some related
  | none => simpa using mirror.documents (Location.normalize location)

theorem find? (mirror : Mirror R registry other) (pointer : String) :
    Option.Rel (fun x y => R x.1 y.1 ∧ x.2 = y.2) (registry.find? pointer)
      (other.find? pointer) := by
  have owners := mirror.indexAt? (Location.splitPointer pointer).1
  simp only [Registry.find?]
  generalize registry.indexAt? (Location.splitPointer pointer).1 = owner at owners ⊢
  generalize other.indexAt? (Location.splitPointer pointer).1 = owner' at owners ⊢
  cases owners with
  | none => exact .none
  | @some owner owner' related =>
    have same := (mirror.alike related).find? (Location.splitPointer pointer).2
    simp only [Option.bind_eq_bind, Option.bind_some, ← same]
    cases owner.find? (Location.splitPointer pointer).2 with
    | none => exact .none
    | some r => exact .some ⟨related, rfl⟩

/-- The answers have the same place and context, and corresponding owners. -/
theorem answer? (mirror : Mirror R registry other) (related : R a b) (pointer : String)
    (context : Context) :
    Option.Rel (fun x y => x.reference = y.reference ∧ x.context = y.context ∧
        R (x.owner.getD a) (y.owner.getD b))
      (a.answer? registry pointer context) (b.answer? other pointer context) := by
  have alike := mirror.alike related
  have same : b.isLocal (Location.splitPointer pointer).1 =
      a.isLocal (Location.splitPointer pointer).1 := by rw [alike.catalog]
  cases inside : a.isLocal (Location.splitPointer pointer).1 with
  | true =>
    rw [Index.answer?_of_local registry context inside,
      Index.answer?_of_local other context (same.trans inside), ← alike.mapped pointer inside,
      ← alike.listed pointer inside]
    cases (a.mapped.get? pointer).or (a.listed? pointer) with
    | none => exact .none
    | some r => exact .some ⟨rfl, rfl, related⟩
  | false =>
    rw [Index.answer?_of_not_local registry context inside,
      Index.answer?_of_not_local other context (same.trans inside)]
    simp only [Index.findElsewhere?, ← mirror.member related]
    split
    · have found := mirror.find? pointer
      generalize registry.find? pointer = pair at found ⊢
      generalize other.find? pointer = pair' at found ⊢
      cases found with
      | none => exact .none
      | some owners =>
        obtain ⟨owners, same⟩ := owners
        exact .some ⟨same, rfl, owners⟩
    · exact .none

theorem arrive (mirror : Mirror R registry other) {x y : Answer}
    (reference : x.reference = y.reference) (context : x.context = y.context)
    (owners : R (x.owner.getD a) (y.owner.getD b)) (pointer : String) (written : Node) :
    (a.arrive x pointer written).Mirrors R (b.arrive y pointer written) := by
  have finding := (mirror.alike owners).findingFor?
  simp only [Index.arrive, ← reference, ← context, ← finding]
  split
  · refine ⟨rfl, owners, rfl, rfl, rfl, none, by simp, ?_⟩
    simp [Index.reports]
  next finding _ =>
    refine ⟨rfl, owners, rfl, rfl, rfl,
      some (.circular finding.path written.position), ?_, rfl, rfl⟩
    rintro e same
    rw [← Option.some.inj same]
    rfl

/-- A hop fails alike or leads to corresponding places, and the walk goes on from both or from
neither. -/
theorem hop (mirror : Mirror R registry other) (related : R a b) (context : Context)
    (written : Node) :
    (∃ e, a.hop registry context written = .error e ∧ b.hop other context written = .error e) ∨
      ∃ l m onward, a.hop registry context written = .ok (l, onward) ∧
        b.hop other context written = .ok (m, onward) ∧ l.Mirrors R m := by
  have alike := mirror.alike related
  unfold Index.hop
  split
  · exact .inl ⟨_, rfl, rfl⟩
  dsimp only
  rw [← alike.pointerIn]
  have answers := mirror.answer? related (a.pointerIn context written.text) context
  generalize a.answer? registry (a.pointerIn context written.text) context = x at answers ⊢
  generalize b.answer? other (a.pointerIn context written.text) context = y at answers ⊢
  cases answers with
  | some same =>
    obtain ⟨reference, contexts, owners⟩ := same
    have places :=
      mirror.arrive reference contexts owners (a.pointerIn context written.text) written
    refine .inr ⟨_, _, _, rfl, ?_, places⟩
    rw [places.node, places.onCycle]
  | none =>
    simp only [← alike.search?]
    split
    next found _ =>
      refine .inr ⟨_, _, _, rfl, rfl, ⟨rfl, related, rfl, rfl, rfl, none, ?_⟩⟩
      simp [Index.reports]
    · exact .inl ⟨_, rfl, rfl⟩

theorem locateWithin (mirror : Mirror R registry other) (related : R a b) (hops : Nat) (n : Node)
    (context : Context) :
    Mirrored R (DocRefs.locateWithin registry hops n a context)
      (DocRefs.locateWithin other hops n b context) := by
  induction hops generalizing a b n context with
  | zero =>
    unfold DocRefs.locateWithin
    split
    · exact .fails _
    · exact .succeeds .none
  | succ hops ih =>
    unfold DocRefs.locateWithin
    split
    · exact .succeeds .none
    next key written _ =>
      rcases mirror.hop related context written with
        ⟨e, fails, fails'⟩ | ⟨l, m, onward, goes, goes', places⟩
      · rw [fails, fails']
        exact .fails e
      · rw [goes, goes']
        cases onward with
        | false => exact .succeeds (.some places)
        | true =>
          dsimp only
          rw [← places.node, ← places.context]
          exact ih places.index l.node l.context

theorem chaseWithin (mirror : Mirror R registry other) (related : R a b) (hops : Nat) (n : Node)
    (context : Context) :
    Mirrored R (DocRefs.chaseWithin registry hops n a context)
      (DocRefs.chaseWithin other hops n b context) := by
  induction hops generalizing a b n context with
  | zero => exact .fails _
  | succ hops ih =>
    rw [Index.chaseWithin_succ, Index.chaseWithin_succ]
    have first := mirror.locateWithin related (hops + 1) n context
    refine first.bind fun result result' same => ?_
    cases same with
    | none => exact .succeeds .none
    | @some l m places =>
      rw [Index.chaseOn, Index.chaseOn, ← places.onCycle, ← places.node, ← places.context]
      split
      · exact .succeeds (.some places)
      · exact ih places.index l.node l.context

theorem locate (mirror : Mirror R registry other) (related : R a b) (n : Node)
    (context : Context) :
    Mirrored R (DocRefs.locate registry n a context) (DocRefs.locate other n b context) :=
  mirror.locateWithin related maxHops n context

theorem chase (mirror : Mirror R registry other) (related : R a b) (n : Node) (context : Context)
    (taken : Nat) :
    Mirrored R (DocRefs.chase registry n a context taken) (DocRefs.chase other n b context taken) :=
  mirror.chaseWithin related (maxHops - taken) n context

end Mirror

end DocRefs
