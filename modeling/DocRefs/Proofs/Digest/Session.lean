import DocRefs.Proofs.Digest.Ledger
import DocRefs.Proofs.Node.Made

/-!
# An engine has no memory

A session makes nodes and asks an engine about them, in any order. Main result:
`answers_as_fresh`: every answer is that of an engine that was never asked before.

Three things carry it (`Session.Sound`). Identities tell the nodes at hand apart, so a ledger can
hold the digest of each; a remark that is put on a node in place leaves its digest as it is. The
engine is faithful to the ledger. What a draft has in its buffer is the text of its fields.
-/
namespace DocRefs

open Node (Within within_append within_cons)

/-! ### What a session can do -/

/-- What may be noted about a node after it is made. -/
inductive Remark where
  | position (position : Position)
  | anchor (name : String)

/-- The node with the remark. -/
def Remark.put : Remark → Node → Node
  | position p, n => n.place p
  | anchor name, n => n.anchored name

/-- The constructors, used on handles that are held. -/
inductive Constructs (held : List Node) : Build Node → Prop
  | tagged (text tag : String) : Constructs held (Build.tagged text tag)
  | scalar (text : String) : Constructs held (Build.scalar text)
  | string (text : String) : Constructs held (Build.string text)
  | sequence {items : List Node} (here : ∀ item ∈ items, item ∈ held) :
    Constructs held (Build.sequence items)
  | mapping {pairs : List (Node × Node)} (here : ∀ pair ∈ pairs, pair.1 ∈ held ∧ pair.2 ∈ held) :
    Constructs held (Build.mapping pairs)
  | aliasTo {target : Node} (here : target ∈ held) : Constructs held (Build.aliasTo target)
  | document {root : Node} (here : root ∈ held) : Constructs held (Build.document root)
  | value (value : Yaml.Value) : Constructs held (Node.ofValue value)

/-- A question to an engine. -/
inductive Query where
  | hash (content : Content)
  | digest (content : Content)
  | bytes (bytes : List UInt8)
  | equal (a b : Option Content)
  | fields (fields : List Engine.Field)

inductive Reply where
  | digest (digest : Digest)
  | verdict (same : Bool)
  deriving DecidableEq

namespace Query

/-- The nodes that a question is about. -/
def nodes : Query → List Node
  | hash content | digest content => content.nodes
  | bytes _ => []
  | equal a b => a.elim [] Content.nodes ++ b.elim [] Content.nodes
  | fields fs => fs.flatMap Engine.Field.nodes

def ask : Query → Hashing Reply
  | hash content => return .digest (← Engine.hash content)
  | digest content => return .digest (← Engine.digest content)
  | bytes bs => return .digest (← Engine.digestBytes bs)
  | equal a b => return .verdict (← Engine.equal a b)
  | fields fs => return .digest (← Engine.hashFields fs)

/-- The answer of an engine that was never asked anything. -/
def fresh (seed : Option (List UInt8)) (q : Query) : Reply := (q.ask.run { seed }).1

end Query

/-- A record that is being digested: its buffer, and the fields that were added so far. -/
structure Draft where
  buffer : String
  fields : List Engine.Field

namespace Draft

def new : Hashing Draft := return ⟨← Engine.openBuffer, []⟩

def add (draft : Draft) (field : Engine.Field) : Hashing Draft :=
  return ⟨← Engine.addFields draft.buffer [field], draft.fields ++ [field]⟩

/-- Takes the digest and gives the buffer back. -/
def finish (draft : Draft) : Hashing Digest := do
  let digest ← Engine.digestBytes (utf8Bytes draft.buffer)
  Engine.closeBuffer draft.buffer
  return digest

/-- Gives the buffer back as it is. -/
def abandon (draft : Draft) : Hashing Unit := Engine.closeBuffer draft.buffer

/-- The text of the fields is in the buffer, and the digests of their nodes are in the ledger. -/
structure Sound (seed : List UInt8) (ledger : Ledger) (draft : Draft) : Prop where
  text : draft.buffer = Engine.written seed "" draft.fields
  entered : ∀ field ∈ draft.fields, ∀ n ∈ field.nodes, Engine.Entered seed ledger n

variable {seed : List UInt8} {ledger : Ledger} {draft : Draft}

theorem answers_new : ∃ blank, Engine.Answers seed ledger new blank ∧ blank.Sound seed ledger :=
  ⟨⟨"", []⟩, Engine.answers_openBuffer.bind (.pure _), rfl, by simp⟩

theorem Sound.answers_add (sound : draft.Sound seed ledger) {field : Engine.Field}
    (entered : ∀ n ∈ field.nodes, Engine.Entered seed ledger n) :
    ∃ longer, Engine.Answers seed ledger (draft.add field) longer ∧ longer.Sound seed ledger := by
  have each : ∀ other ∈ [field], ∀ n ∈ other.nodes, Engine.Entered seed ledger n := by
    simpa using entered
  refine ⟨_, (Engine.answers_addFields draft.buffer each).bind (.pure _), ?_, ?_⟩
  · rw [sound.text, Engine.written_append]
  · exact List.forall_mem_append.mpr ⟨sound.entered, each⟩

theorem Sound.answers_finish (sound : draft.Sound seed ledger) :
    Engine.Answers seed ledger draft.finish
      (sha256 (seed ++ utf8Bytes (Engine.written seed "" draft.fields))) := by
  rw [finish, sound.text]
  apply (Engine.gives_digestBytes _).answers.bind
  exact (Engine.answers_closeBuffer _).bind (.pure _)

end Draft

/-- The nodes that a program holds, one for every handle, and an engine with the records that it is
digesting. -/
structure Session where
  free : NodeId := ⟨1⟩
  held : List Node := []
  engine : Engine
  drafts : List Draft := []

namespace Session

def start (seed : Option (List UInt8)) : Session := { engine := { seed } }

/-- One thing done, and the answers that are given with the questions. The order in which handles
and drafts are listed does not matter. -/
inductive Step : Session → List (Query × Reply) → Session → Prop
  | construct {s : Session} {make : Build Node} (constructs : Constructs s.held make) :
    Step s [] { s with free := (make.run s.free).2, held := (make.run s.free).1 :: s.held }
  | parse {s : Session} (text : String) :
    Step s [] { s with
      free := ((Node.parse? text).run s.free).2
      held := Node.outcome ((Node.parse? text).run s.free).1 ++ s.held }
  | share {s : Session} {n : Node} (within : Within s.held n) :
    Step s [] { s with held := n :: s.held }
  | drop {s : Session} {n : Node} {others : List Node} (handles : s.held.Perm (n :: others)) :
    Step s [] { s with held := others }
  /-- A node that nothing else refers to is changed in place. -/
  | remark {s : Session} {n : Node} {others : List Node} (remark : Remark)
    (handles : s.held.Perm (n :: others)) (alone : ∀ m, Within others m → m.id ≠ n.id) :
    Step s [] { s with held := remark.put n :: others }
  /-- A node that something else refers to is copied under an identity of its own. -/
  | copy {s : Session} {n : Node} {others : List Node} (remark : Remark)
    (handles : s.held.Perm (n :: others)) (shared : ∃ m, Within others m ∧ m.id = n.id) :
    Step s [] { s with
      free := ((Build.copy n).run s.free).2
      held := remark.put ((Build.copy n).run s.free).1 :: others }
  | ask {s : Session} {q : Query} (about : ∀ n ∈ q.nodes, Within s.held n) :
    Step s [(q, (q.ask.run s.engine).1)] { s with engine := (q.ask.run s.engine).2 }
  | begin {s : Session} :
    Step s [] { s with
      engine := (Draft.new.run s.engine).2
      drafts := (Draft.new.run s.engine).1 :: s.drafts }
  | add {s : Session} {draft : Draft} {others : List Draft} (field : Engine.Field)
    (drafts : s.drafts.Perm (draft :: others)) (about : ∀ n ∈ field.nodes, Within s.held n) :
    Step s [] { s with
      engine := ((draft.add field).run s.engine).2
      drafts := ((draft.add field).run s.engine).1 :: others }
  | finish {s : Session} {draft : Draft} {others : List Draft}
    (drafts : s.drafts.Perm (draft :: others)) :
    Step s [(.fields draft.fields, .digest (draft.finish.run s.engine).1)]
      { s with engine := (draft.finish.run s.engine).2, drafts := others }
  | abandon {s : Session} {draft : Draft} {others : List Draft}
    (drafts : s.drafts.Perm (draft :: others)) :
    Step s [] { s with engine := (draft.abandon.run s.engine).2, drafts := others }
  | clear {s : Session} : Step s [] { s with engine := s.engine.clear }

/-- Any number of steps, with all the answers. -/
inductive Run : Session → List (Query × Reply) → Session → Prop
  | done (s : Session) : Run s [] s
  | step {s t u : Session} {log more : List (Query × Reply)} (first : Step s log t)
    (later : Run t more u) : Run s (log ++ more) u

/-! ### What stays so -/

/-- The digests of the nodes at hand are in the ledger, which has none for a free identity, and the
engine and the drafts keep to it. -/
structure Sound (seed : List UInt8) (ledger : Ledger) (s : Session) : Prop where
  identified : Identified s.free s.held
  taken : ∀ id digest, ledger id = some digest → id.number < s.free.number
  entered : ∀ n, Within s.held n → Engine.Entered seed ledger n
  faithful : s.engine.Faithful seed ledger
  drafted : ∀ draft ∈ s.drafts, draft.Sound seed ledger

variable {seed : List UInt8} {ledger : Ledger} {s t : Session}

theorem sound_start (seed : Option (List UInt8)) :
    Sound (seed.getD []) (fun _ => none) (start seed) where
  identified := .nil _
  taken id digest entry := by cases entry
  entered n within := absurd within (Node.not_within_nil n)
  faithful := Engine.faithful_new seed _
  drafted draft member := by cases member

/-- The digests of new nodes can be entered: their identities were free. -/
theorem exists_ledger {free later : NodeId} {held more : List Node}
    (taken : ∀ id digest, ledger id = some digest → id.number < free.number)
    (entered : ∀ n, Within held n → Engine.Entered seed ledger n)
    (grown : Extends free held later more) :
    ∃ after : Ledger, (∀ id digest, ledger id = some digest → after id = some digest) ∧
      (∀ id digest, after id = some digest → id.number < later.number) ∧
      ∀ n, Within more n → Engine.Entered seed after n := by
  classical
  -- Below the identity that was free the ledger stays; from there on it has the digest of the node
  -- that has the identity, of which there is one.
  let after : Ledger := fun id =>
    if id.number < free.number then ledger id
    else if there : ∃ n, Within more n ∧ n.id = id then some (Engine.digestOf seed there.choose)
    else none
  refine ⟨after, ?_, ?_, ?_⟩
  · intro id digest entry
    have old : after id = ledger id := if_pos (taken id digest entry)
    rw [old, entry]
  · intro id digest entry
    by_cases old : id.number < free.number
    · exact Nat.lt_of_lt_of_le old grown.free_le
    · by_cases there : ∃ n, Within more n ∧ n.id = id
      · obtain ⟨n, within, rfl⟩ := there
        exact grown.identified.taken n within
      · simp [after, old, there] at entry
  · intro n within
    by_cases old : n.id.number < free.number
    · obtain before | new := grown.fresh n within
      · have same : after n.id = ledger n.id := if_pos old
        rw [Engine.Entered, same]
        exact entered n before
      · omega
    · have there : ∃ m, Within more m ∧ m.id = n.id := ⟨n, within, rfl⟩
      have entry : after n.id = some (Engine.digestOf seed there.choose) := by
        simp only [after, if_neg old, dif_pos there]
      obtain ⟨chosen, same⟩ := there.choose_spec
      rw [Engine.Entered, entry, grown.identified.single _ _ chosen within same]

/-- Making nodes keeps a session sound. -/
theorem Sound.extend (sound : s.Sound seed ledger) {later : NodeId} {more : List Node}
    (grown : Extends s.free s.held later more) :
    ∃ after, Sound seed after { s with free := later, held := more } := by
  obtain ⟨after, kept, taken, entered⟩ := exists_ledger sound.taken sound.entered grown
  refine ⟨after, grown.identified, taken, entered, sound.faithful.mono kept, ?_⟩
  intro draft member
  obtain ⟨text, known⟩ := sound.drafted draft member
  exact ⟨text, fun field listed n inside => kept _ _ (known field listed n inside)⟩

/-- A session whose engine and drafts keep to the ledger in another way is as sound. -/
theorem Sound.engine (sound : s.Sound seed ledger) {after : Engine} {drafts : List Draft}
    (faithful : after.Faithful seed ledger)
    (drafted : ∀ draft ∈ drafts, draft.Sound seed ledger) :
    Sound seed ledger { s with engine := after, drafts } :=
  ⟨sound.identified, sound.taken, sound.entered, faithful, drafted⟩

theorem Sound.drafted_perm (sound : s.Sound seed ledger) {drafts : List Draft}
    (order : s.drafts.Perm drafts) : ∀ draft ∈ drafts, draft.Sound seed ledger :=
  fun draft member => sound.drafted draft (order.mem_iff.mpr member)

theorem Sound.held (sound : s.Sound seed ledger) {held : List Node}
    (identified : Identified s.free held)
    (entered : ∀ n, Within held n → Engine.Entered seed ledger n) :
    Sound seed ledger { s with held } :=
  ⟨identified, sound.taken, entered, sound.faithful, sound.drafted⟩

/-- Handles may be added or dropped, as long as they lead to nodes that are at hand. -/
theorem Sound.mono (sound : s.Sound seed ledger) {held : List Node}
    (within : ∀ m ∈ held, Within s.held m) : Sound seed ledger { s with held } := by
  apply sound.held (sound.identified.mono within (Nat.le_refl _))
  exact fun m inside => sound.entered m (inside.of_forall within)

/-! ### Nodes -/

theorem extends_of_constructs {free : NodeId} {held : List Node} {make : Build Node}
    (known : Identified free held) (constructs : Constructs held make) :
    Extends free held (make.run free).2 ((make.run free).1 :: held) := by
  cases constructs with
  | tagged text tag => exact (Build.makes_tagged text tag free known).1
  | scalar text => exact (Build.makes_tagged text _ free known).1
  | string text => exact (Build.makes_tagged text _ free known).1
  | sequence here =>
    exact (Build.makes_sequence (fun item member => .of_mem (here item member)) free known).1
  | @mapping pairs here =>
    have within : ∀ pair ∈ pairs, Within held pair.1 ∧ Within held pair.2 := fun pair member =>
      ⟨.of_mem (here pair member).1, .of_mem (here pair member).2⟩
    exact (Build.makes_mapping within free known).1
  | aliasTo here => exact (Build.makes_aliasTo (.of_mem here) free known).1
  | document here => exact (Build.makes_document (.of_mem here) free known).1
  | value value => exact Node.identifies_ofValue held value free known

theorem describes_put (remark : Remark) : Build.Describes remark.put := by
  cases remark with
  | position position => exact Build.describes_place position
  | anchor name => exact Build.describes_anchored name

/-- A remark is not digested. -/
theorem digestOf_put (remark : Remark) (n : Node) :
    Engine.digestOf seed (remark.put n) = Engine.digestOf seed n := by
  cases remark <;> cases n <;> rfl

theorem Sound.remark (sound : s.Sound seed ledger) {n : Node} {others : List Node}
    (remark : Remark) (handles : s.held.Perm (n :: others))
    (alone : ∀ m, Within others m → m.id ≠ n.id) :
    Sound seed ledger { s with held := remark.put n :: others } := by
  obtain ⟨id, parts⟩ := describes_put remark n
  have there : ∀ m ∈ n :: others, Within s.held m := fun m member =>
    .of_mem (handles.mem_iff.mpr member)
  have before : Identified s.free (n :: others) := sound.identified.mono there (Nat.le_refl _)
  apply sound.held (before.exchange alone id parts)
  intro m within
  obtain rfl | below | other := within_cons.mp within
  · -- The node keeps its identity, and its digest too.
    rw [Engine.Entered, id, digestOf_put]
    exact sound.entered n (there n (by simp))
  · rw [parts] at below
    exact sound.entered m ((within_cons.mpr (.inr (.inl below))).of_forall there)
  · exact sound.entered m ((within_cons.mpr (.inr (.inr other))).of_forall there)

theorem extends_copy {n : Node} {others : List Node} (known : Identified s.free s.held)
    (remark : Remark) (handles : s.held.Perm (n :: others)) :
    Extends s.free s.held ((Build.copy n).run s.free).2
      (remark.put ((Build.copy n).run s.free).1 :: others) := by
  have within : Within s.held n := .of_mem (handles.mem_iff.mpr (by simp))
  have grown := ((Build.makes_copy within).map (describes_put remark) s.free known).1
  apply grown.mono
  intro m member
  apply Within.of_mem
  obtain rfl | other := List.mem_cons.mp member
  · exact List.mem_cons_self ..
  · exact List.mem_cons_of_mem _ (handles.mem_iff.mpr (by simp [other]))

/-! ### Questions -/

theorem exists_answer {q : Query} (entered : ∀ n ∈ q.nodes, Engine.Entered seed ledger n) :
    ∃ answer, Engine.Answers seed ledger q.ask answer := by
  cases q with
  | hash content => exact ⟨_, (Engine.answers_hash content entered).bind (.pure _)⟩
  | digest content => exact ⟨_, (Engine.answers_digest entered).bind (.pure _)⟩
  | bytes bytes => exact ⟨_, (Engine.gives_digestBytes bytes).answers.bind (.pure _)⟩
  | equal a b =>
    obtain ⟨first, second⟩ := List.forall_mem_append.mp entered
    obtain ⟨same, answers⟩ := Engine.exists_answers_equal first second
    exact ⟨_, answers.bind (.pure _)⟩
  | fields fields =>
    have each : ∀ field ∈ fields, ∀ n ∈ field.nodes, Engine.Entered seed ledger n :=
      fun field member n inside => entered n (List.mem_flatMap.mpr ⟨field, member, inside⟩)
    exact ⟨_, (Engine.answers_hashFields each).bind (.pure _)⟩

/-- An engine that was never asked keeps to any ledger. -/
theorem fresh_of_answers {seed : Option (List UInt8)} {q : Query} {answer : Reply}
    (answers : Engine.Answers (seed.getD []) ledger q.ask answer) : q.fresh seed = answer := by
  obtain ⟨after, run, _⟩ := answers _ (Engine.faithful_new seed ledger)
  rw [Query.fresh, run]

/-- Whatever is done, the session stays sound, and what is answered is what a new engine answers. -/
theorem Step.sound {seed : Option (List UInt8)} {log : List (Query × Reply)}
    (step : Step s log t) (sound : s.Sound (seed.getD []) ledger) :
    ∃ after, t.Sound (seed.getD []) after ∧ ∀ entry ∈ log, entry.2 = entry.1.fresh seed := by
  cases step with
  | construct constructs =>
    obtain ⟨after, sound⟩ := sound.extend (extends_of_constructs sound.identified constructs)
    exact ⟨after, sound, by simp⟩
  | parse text =>
    obtain ⟨after, sound⟩ :=
      sound.extend (Node.identifies_parse? s.held text s.free sound.identified)
    exact ⟨after, sound, by simp⟩
  | @share n within =>
    have there : ∀ m ∈ n :: s.held, Within s.held m := by
      intro m member
      obtain rfl | old := List.mem_cons.mp member
      · exact within
      · exact .of_mem old
    exact ⟨ledger, sound.mono there, by simp⟩
  | @drop n others handles =>
    have there : ∀ m ∈ others, Within s.held m := fun m member =>
      .of_mem (handles.mem_iff.mpr (List.mem_cons_of_mem _ member))
    exact ⟨ledger, sound.mono there, by simp⟩
  | remark remark handles alone => exact ⟨ledger, sound.remark remark handles alone, by simp⟩
  | copy remark handles shared =>
    -- The ledger has to grow: the copy has an identity of its own.
    obtain ⟨after, sound⟩ := sound.extend (extends_copy sound.identified remark handles)
    exact ⟨after, sound, by simp⟩
  | @ask q about =>
    obtain ⟨answer, answers⟩ := exists_answer fun n member => sound.entered n (about n member)
    obtain ⟨engine, run, faithful⟩ := answers s.engine sound.faithful
    rw [run]
    refine ⟨ledger, sound.engine faithful sound.drafted, ?_⟩
    intro entry member
    obtain rfl := List.mem_singleton.mp member
    exact (fresh_of_answers answers).symm
  | begin =>
    obtain ⟨blank, answers, fits⟩ := Draft.answers_new
    obtain ⟨engine, run, faithful⟩ := answers s.engine sound.faithful
    rw [run]
    exact ⟨ledger, sound.engine faithful (List.forall_mem_cons.mpr ⟨fits, sound.drafted⟩),
      by simp⟩
  | @add draft others field drafts about =>
    obtain ⟨here, rest⟩ := List.forall_mem_cons.mp (sound.drafted_perm drafts)
    obtain ⟨longer, answers, fits⟩ :=
      here.answers_add fun n member => sound.entered n (about n member)
    obtain ⟨engine, run, faithful⟩ := answers s.engine sound.faithful
    rw [run]
    exact ⟨ledger, sound.engine faithful (List.forall_mem_cons.mpr ⟨fits, rest⟩), by simp⟩
  | @finish draft others drafts =>
    obtain ⟨here, rest⟩ := List.forall_mem_cons.mp (sound.drafted_perm drafts)
    obtain ⟨engine, run, faithful⟩ := here.answers_finish s.engine sound.faithful
    rw [run]
    refine ⟨ledger, sound.engine faithful rest, ?_⟩
    intro entry member
    obtain rfl := List.mem_singleton.mp member
    -- All the fields at once, on a new engine, have the same text.
    have answers : Engine.Answers (seed.getD []) ledger (Query.ask (.fields draft.fields)) _ :=
      (Engine.answers_hashFields here.entered).bind (.pure _)
    exact (fresh_of_answers answers).symm
  | @abandon draft others drafts =>
    obtain ⟨_, rest⟩ := List.forall_mem_cons.mp (sound.drafted_perm drafts)
    obtain ⟨engine, run, faithful⟩ :=
      Engine.answers_closeBuffer draft.buffer s.engine sound.faithful
    rw [Draft.abandon, run]
    exact ⟨ledger, sound.engine faithful rest, by simp⟩
  | clear => exact ⟨ledger, sound.engine sound.faithful.clear sound.drafted, by simp⟩

theorem Run.sound {seed : Option (List UInt8)} {log : List (Query × Reply)}
    (run : Run s log t) (sound : s.Sound (seed.getD []) ledger) :
    ∃ after, t.Sound (seed.getD []) after ∧ ∀ entry ∈ log, entry.2 = entry.1.fresh seed := by
  induction run generalizing ledger with
  | done s => exact ⟨ledger, sound, by simp⟩
  | step first later ih =>
    obtain ⟨between, sound, here⟩ := first.sound sound
    obtain ⟨after, sound, there⟩ := ih sound
    exact ⟨after, sound, List.forall_mem_append.mpr ⟨here, there⟩⟩

/-- Whatever was made, changed, asked, begun, dropped or cleared before, every answer that an engine
gives is the one that a new engine with its seed gives. -/
theorem answers_as_fresh {seed : Option (List UInt8)} {log : List (Query × Reply)} {s : Session}
    (run : Run (start seed) log s) : ∀ entry ∈ log, entry.2 = entry.1.fresh seed := by
  obtain ⟨_, _, answered⟩ := run.sound (sound_start seed)
  exact answered

section Interleaved

theorem exists_run_step {s t : Session} {log : List (Query × Reply)}
    {questions rest : List Query} (first : Step s log t)
    (split : questions = log.map Prod.fst ++ rest)
    (later : ∃ more u, Run t more u ∧ more.map Prod.fst = rest) :
    ∃ whole u, Run s whole u ∧ whole.map Prod.fst = questions := by
  obtain ⟨more, u, run, rfl⟩ := later
  exact ⟨log ++ more, u, .step first run, List.map_append.trans split.symm⟩

def plain : Node := .scalar { id := ⟨1⟩, tag := CoreTag.str } "a"

def placed : Node := .scalar { id := ⟨2⟩, tag := CoreTag.str, position := ⟨3, 1⟩ } "a"

def noted : Node :=
  .scalar { id := ⟨2⟩, tag := CoreTag.str, anchor := some "x", position := ⟨3, 1⟩ } "a"

/-- A node is digested, noted on while it is shared and again when it is not, and digested in one of
two records, the other of which is dropped. -/
theorem answers_as_fresh_interleaved :
    ∃ log s, Run (start (some [7])) log s ∧
      log.map Prod.fst =
        [.hash (.node plain), .fields [.value (.node noted)], .hash (.node noted)] ∧
      ∀ entry ∈ log, entry.2 = entry.1.fresh (some [7]) := by
  have asked : ∃ log s, Run (start (some [7])) log s ∧ log.map Prod.fst =
      [.hash (.node plain), .fields [.value (.node noted)], .hash (.node noted)] := by
    have apart : ∀ m, Within [plain] m → m.id ≠ placed.id := by
      intro m within
      obtain rfl | ⟨_, below, _⟩ | ⟨_, other, _⟩ := within_cons.mp within
      · decide
      · cases below
      · cases other
    have about : ∀ n ∈ [noted], Within [noted, plain] n := fun n member =>
      .of_mem (List.mem_append_left [plain] member)
    refine exists_run_step (.construct (.tagged "a" CoreTag.str)) rfl ?_
    refine exists_run_step (.ask (q := .hash (.node plain)) fun n member => .of_mem member) rfl ?_
    refine exists_run_step (.share (n := plain) (.of_mem (.head _))) rfl ?_
    have shared : ∃ m, Within [plain] m ∧ m.id = plain.id := ⟨plain, .of_mem (.head _), rfl⟩
    refine exists_run_step (.copy (n := plain) (.position ⟨3, 1⟩) (.refl _) shared) rfl ?_
    refine exists_run_step (.remark (n := placed) (.anchor "x") (.refl _) apart) rfl ?_
    refine exists_run_step .begin rfl ?_
    refine exists_run_step (.add (.value (.node noted)) (.refl _) about) rfl ?_
    refine exists_run_step .begin rfl ?_
    refine exists_run_step (.add (.text "b") (.refl _) fun n member => by cases member) rfl ?_
    refine exists_run_step (.abandon (.refl _)) rfl ?_
    refine exists_run_step (.finish (.refl _)) rfl ?_
    refine exists_run_step .clear rfl ?_
    refine exists_run_step (.ask (q := .hash (.node noted)) about) rfl ?_
    exact ⟨[], _, .done _, rfl⟩
  obtain ⟨log, s, run, questions⟩ := asked
  exact ⟨log, s, run, questions, answers_as_fresh run⟩

end Interleaved

end Session

end DocRefs
