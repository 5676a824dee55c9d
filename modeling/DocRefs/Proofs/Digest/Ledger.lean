import DocRefs.Proofs.Digest.Encoded

/-!
# What an engine says, whatever it remembers

A ledger says which digest belongs to an identity. An engine is faithful to it when what it
remembers is entered there, its idle hashers are clean and its idle buffers are blank. Every
operation about nodes that are entered has then one answer, a function of the seed and of what is
asked, and leaves a faithful engine behind (`Engine.answers_hash`, `Engine.answers_hashFields`).
-/
namespace DocRefs

/-- The digests that belong to identities. -/
abbrev Ledger := NodeId → Option Digest

namespace Content

mutual

/-- The nodes in a content. -/
def nodes : Content → List Node
  | plain _ => []
  | held inner => nodes inner
  | list items => nodesOf items
  | node n => [n]

def nodesOf : List Content → List Node
  | [] => []
  | item :: rest => nodes item ++ nodesOf rest

end

mutual

/-- The digest of a content behind the seed. -/
def digestOf (seed : List UInt8) : Content → Digest
  | plain bytes => sha256 (seed ++ bytes)
  | held inner => digestOf seed inner
  | list items => sha256 (seed ++ Engine.listBytes "v" (digestsOf seed items))
  | node n => Engine.digestOf seed n

def digestsOf (seed : List UInt8) : List Content → List Digest
  | [] => []
  | item :: rest => digestOf seed item :: digestsOf seed rest

end

end Content

namespace Engine

/-- The node has its digest in the ledger. -/
def Entered (seed : List UInt8) (ledger : Ledger) (n : Node) : Prop :=
  ledger n.id = some (digestOf seed n)

structure Faithful (seed : List UInt8) (ledger : Ledger) (e : Engine) : Prop where
  seeded : e.seed.getD [] = seed
  clean : e.Clean
  blank : ∀ buffer ∈ e.buffers.idle, buffer = ""
  cached : ∀ entry ∈ e.cache, ledger entry.1 = some entry.2

theorem faithful_new (seed : Option (List UInt8)) (ledger : Ledger) :
    Faithful (seed.getD []) ledger { seed } := by
  constructor
  · rfl
  · exact clean_new seed
  · intro buffer member
    cases member
  · intro entry member
    cases member

/-- More may be entered later. -/
theorem Faithful.mono {seed : List UInt8} {ledger more : Ledger} {e : Engine}
    (faithful : e.Faithful seed ledger)
    (kept : ∀ id digest, ledger id = some digest → more id = some digest) :
    e.Faithful seed more :=
  ⟨faithful.seeded, faithful.clean, faithful.blank,
    fun entry member => kept _ _ (faithful.cached entry member)⟩

variable {α β : Type} {seed : List UInt8} {ledger : Ledger}

/-- Any faithful engine gives that value and is faithful afterwards. -/
def Answers (seed : List UInt8) (ledger : Ledger) (computation : Hashing α) (value : α) : Prop :=
  ∀ e : Engine, e.Faithful seed ledger →
    ∃ after, computation.run e = (value, after) ∧ after.Faithful seed ledger

namespace Answers

theorem pure (value : α) : Answers seed ledger (Pure.pure value) value :=
  fun e faithful => ⟨e, rfl, faithful⟩

theorem bind {first : Hashing α} {value : α} {next : α → Hashing β} {result : β}
    (starts : Answers seed ledger first value) (goes_on : Answers seed ledger (next value) result) :
    Answers seed ledger (first >>= next) result := by
  intro e faithful
  obtain ⟨between, run, faithful⟩ := starts e faithful
  obtain ⟨after, rerun, faithful⟩ := goes_on between faithful
  refine ⟨after, ?_, faithful⟩
  rw [StateT.run_bind, run]
  exact rerun

end Answers

theorem Gives.answers {computation : Hashing α} {value : α} (gives : Gives seed computation value) :
    Answers seed ledger computation value := by
  intro e faithful
  obtain ⟨hashers, run, clean⟩ := gives e faithful.clean faithful.seeded
  exact ⟨_, run, faithful.seeded, clean, faithful.blank, faithful.cached⟩

/-! ### Contents -/

theorem answers_hash_node {n : Node} (entered : Entered seed ledger n) :
    Answers seed ledger (hash (.node n)) (digestOf seed n) := by
  intro e faithful
  cases known : e.cache.lookup n.id with
  | some digest =>
    -- What is remembered is in the ledger under the identity of the node, whichever node it was
    -- remembered for.
    obtain ⟨front, rest, listed, _⟩ := List.lookup_eq_some_iff.mp known
    have cached : ledger n.id = some digest :=
      faithful.cached (n.id, digest) (by simp [listed])
    obtain rfl : digest = digestOf seed n := Option.some.inj (cached.symm.trans entered)
    refine ⟨e, ?_, faithful⟩
    rw [hash]
    simp only [StateT.run_bind, StateT.run_get, pure_bind, known]
    rfl
  | none =>
    have given : Answers seed ledger (nodeDigest aliasHops n) (digestOf seed n) :=
      (gives_nodeDigest n aliasHops).answers
    obtain ⟨between, run, faithful⟩ := given e faithful
    refine ⟨{ between with cache := (n.id, digestOf seed n) :: between.cache }, ?_, ?_⟩
    · rw [hash]
      simp only [StateT.run_bind, StateT.run_get, pure_bind, known, run]
      rfl
    · refine ⟨faithful.seeded, faithful.clean, faithful.blank, ?_⟩
      intro entry member
      -- The new entry is one of the ledger, since the node is entered there.
      obtain rfl | before := List.mem_cons.mp member
      · exact entered
      · exact faithful.cached entry before

mutual

theorem answers_hash : (content : Content) → (∀ n ∈ content.nodes, Entered seed ledger n) →
    Answers seed ledger (hash content) (content.digestOf seed)
  | .plain bytes, _ => by
    rw [hash, Content.digestOf]
    exact (gives_digestBytes bytes).answers
  | .held inner, entered => by
    rw [hash, Content.digestOf]
    exact answers_hash inner entered
  | .list items, entered => by
    rw [hash, Content.digestOf]
    exact (answers_hashAll items entered).bind (gives_digestBytes _).answers
  | .node n, entered => answers_hash_node (entered n (List.mem_singleton_self n))

theorem answers_hashAll : (items : List Content) →
    (∀ n ∈ Content.nodesOf items, Entered seed ledger n) →
    Answers seed ledger (hashAll items) (Content.digestsOf seed items)
  | [], _ => .pure []
  | item :: rest, entered => by
    obtain ⟨first, later⟩ := List.forall_mem_append.mp entered
    rw [hashAll, Content.digestsOf]
    exact (answers_hash item first).bind ((answers_hashAll rest later).bind (.pure _))

end

theorem answers_digest {content : Content} (entered : ∀ n ∈ content.nodes, Entered seed ledger n) :
    Answers seed ledger (digest content) (content.digestOf seed) := by
  cases content with
  | node n =>
    rw [digest, Content.digestOf]
    exact (gives_nodeDigest n aliasHops).answers
  | plain bytes => exact answers_hash _ entered
  | held inner => exact answers_hash _ entered
  | list items => exact answers_hash _ entered

theorem exists_answers_equal {a b : Option Content}
    (first : ∀ n ∈ a.elim [] Content.nodes, Entered seed ledger n)
    (second : ∀ n ∈ b.elim [] Content.nodes, Entered seed ledger n) :
    ∃ same, Answers seed ledger (equal a b) same := by
  cases a with
  | none => exact ⟨false, .pure false⟩
  | some a =>
    cases b with
    | none => exact ⟨false, .pure false⟩
    | some b => exact ⟨_, (answers_hash a first).bind ((answers_hash b second).bind (.pure _))⟩

/-! ### Fields -/

/-- The nodes in a field. -/
def Field.nodes : Field → List Node
  | .text _ => []
  | .value content => content.nodes
  | .optional content => content.elim [] Content.nodes
  | .map entries => entries.flatMap fun (_, content) => content.nodes

/-- The text of a field behind the seed. -/
def Field.textOf (seed : List UInt8) : Field → String
  | .text s => s
  | .value content => (content.digestOf seed).hex
  | .optional none => ""
  | .optional (some content) => (content.digestOf seed).hex
  | .map entries =>
    let texts := entries.map fun (key, content) => key ++ "=" ++ (content.digestOf seed).hex
    ",".intercalate (texts.mergeSort fun a b => decide (a ≤ b))

/-- What fields add to the text that is there. -/
def written (seed : List UInt8) (buffer : String) (fields : List Field) : String :=
  fields.foldl (fun buffer field => buffer ++ field.textOf seed ++ "|") buffer

theorem written_append (seed : List UInt8) (buffer : String) (fields more : List Field) :
    written seed buffer (fields ++ more) = written seed (written seed buffer fields) more :=
  List.foldl_append

theorem answers_entryTexts {entries : List (String × Content)}
    (entered : ∀ entry ∈ entries, ∀ n ∈ entry.2.nodes, Entered seed ledger n) :
    Answers seed ledger (entryTexts entries)
      (entries.map fun entry => entry.1 ++ "=" ++ (entry.2.digestOf seed).hex) := by
  induction entries with
  | nil => exact .pure []
  | cons entry rest ih =>
    obtain ⟨first, later⟩ := List.forall_mem_cons.mp entered
    exact (answers_hash entry.2 first).bind ((ih later).bind (.pure _))

theorem answers_fieldText {field : Field} (entered : ∀ n ∈ field.nodes, Entered seed ledger n) :
    Answers seed ledger (fieldText field) (field.textOf seed) := by
  cases field with
  | text s => exact .pure s
  | value content => exact (answers_hash content entered).bind (.pure _)
  | optional content =>
    cases content with
    | none => exact .pure ""
    | some content => exact (answers_hash content entered).bind (.pure _)
  | map entries =>
    have each : ∀ entry ∈ entries, ∀ n ∈ entry.2.nodes, Entered seed ledger n :=
      fun entry member n inside => entered n (List.mem_flatMap.mpr ⟨entry, member, inside⟩)
    exact (answers_entryTexts each).bind (.pure _)

theorem answers_addFields {fields : List Field} (buffer : String)
    (entered : ∀ field ∈ fields, ∀ n ∈ field.nodes, Entered seed ledger n) :
    Answers seed ledger (addFields buffer fields) (written seed buffer fields) := by
  induction fields generalizing buffer with
  | nil => exact .pure buffer
  | cons field rest ih =>
    obtain ⟨first, later⟩ := List.forall_mem_cons.mp entered
    exact (answers_fieldText first).bind (ih _ later)

/-- A buffer from the pool is blank. -/
theorem answers_openBuffer : Answers seed ledger openBuffer "" := by
  intro e faithful
  have blank : e.buffers.take.1 = "" := by
    obtain new | idle := e.buffers.take_cases
    · exact new
    · exact faithful.blank _ idle
  refine ⟨{ e with buffers := e.buffers.take.2 }, ?_, ?_⟩
  · rw [← blank]
    rfl
  · exact ⟨faithful.seeded, faithful.clean,
      fun buffer member => faithful.blank buffer (Pool.mem_of_mem_take member), faithful.cached⟩

/-- It is cleared when it comes back, whatever was written to it. -/
theorem answers_closeBuffer (buffer : String) : Answers seed ledger (closeBuffer buffer) () := by
  intro e faithful
  refine ⟨{ e with buffers := e.buffers.give buffer }, rfl, faithful.seeded, faithful.clean, ?_,
    faithful.cached⟩
  intro other member
  obtain rfl | idle := Pool.mem_give member
  · rfl
  · exact faithful.blank other idle

theorem answers_hashFields {fields : List Field}
    (entered : ∀ field ∈ fields, ∀ n ∈ field.nodes, Entered seed ledger n) :
    Answers seed ledger (hashFields fields)
      (sha256 (seed ++ utf8Bytes (written seed "" fields))) := by
  apply answers_openBuffer.bind
  apply (answers_addFields "" entered).bind
  apply (gives_digestBytes _).answers.bind
  exact (answers_closeBuffer _).bind (.pure _)

theorem Faithful.clear {e : Engine} (faithful : e.Faithful seed ledger) :
    e.clear.Faithful seed ledger :=
  ⟨faithful.seeded, faithful.clean, faithful.blank, fun entry member => by cases member⟩

end Engine

end DocRefs
