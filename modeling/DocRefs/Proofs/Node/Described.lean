import DocRefs.Proofs.Node.Made
import DocRefs.Table
import Mathlib.Data.List.Forall2
import Mathlib.Data.List.Nodup

/-!
# Building undoes writing

A tree description says what is written: kinds, order, texts, tags, anchors and places. Its events
are the description in the order in which it is written down. Fed with them, the builder attaches
one node, and that is the node that is described (`TreeBuilder.exists_run_events`): an alias in it
has the very node as its target that is labelled with its anchor.
-/
namespace DocRefs

namespace Yaml

/-- A node as it is written. The anchor zero means none; a collection has a second place, where it
is closed. -/
inductive Tree where
  | scalar (mark : Mark) (anchor : Nat) (tag : Option Tag) (text : String) (style : ScalarStyle)
  | sequence (mark : Mark) (anchor : Nat) (tag : Option Tag) (items : List Tree) (closing : Mark)
  | mapping (mark : Mark) (anchor : Nat) (tag : Option Tag) (pairs : List (Tree × Tree))
    (closing : Mark)
  | aliasTo (mark : Mark) (anchor : Nat)

namespace Tree

mutual

def events : Tree → List Event
  | scalar mark anchor tag text style => [⟨mark, .scalar text style anchor tag⟩]
  | sequence mark anchor tag items closing =>
    ⟨mark, .sequenceStart anchor tag⟩ :: (itemEvents items ++ [⟨closing, .sequenceEnd⟩])
  | mapping mark anchor tag pairs closing =>
    ⟨mark, .mappingStart anchor tag⟩ :: (pairEvents pairs ++ [⟨closing, .mappingEnd⟩])
  | aliasTo mark anchor => [⟨mark, .aliasTo anchor⟩]

def itemEvents : List Tree → List Event
  | [] => []
  | item :: rest => events item ++ itemEvents rest

def pairEvents : List (Tree × Tree) → List Event
  | [] => []
  | (key, value) :: rest => events key ++ (events value ++ pairEvents rest)

end

mutual

/-- The nodes in the order in which they are complete. -/
def nodes : Tree → List Tree
  | scalar mark anchor tag text style => [scalar mark anchor tag text style]
  | sequence mark anchor tag items closing =>
    itemNodes items ++ [sequence mark anchor tag items closing]
  | mapping mark anchor tag pairs closing =>
    pairNodes pairs ++ [mapping mark anchor tag pairs closing]
  | aliasTo mark anchor => [aliasTo mark anchor]

def itemNodes : List Tree → List Tree
  | [] => []
  | item :: rest => nodes item ++ itemNodes rest

def pairNodes : List (Tree × Tree) → List Tree
  | [] => []
  | (key, value) :: rest => nodes key ++ (nodes value ++ pairNodes rest)

end

theorem itemEvents_append (xs ys : List Tree) :
    itemEvents (xs ++ ys) = itemEvents xs ++ itemEvents ys := by
  induction xs with
  | nil => rfl
  | cons x rest ih => rw [List.cons_append, itemEvents, itemEvents, ih, List.append_assoc]

theorem itemNodes_append (xs ys : List Tree) :
    itemNodes (xs ++ ys) = itemNodes xs ++ itemNodes ys := by
  induction xs with
  | nil => rfl
  | cons x rest ih => rw [List.cons_append, itemNodes, itemNodes, ih, List.append_assoc]

/-- The pairs of a mapping as they are written: key, value, key, value. -/
def inTurn (pairs : List (Tree × Tree)) : List Tree := pairs.flatMap fun pair => [pair.1, pair.2]

theorem inTurn_cons (key value : Tree) (rest : List (Tree × Tree)) :
    inTurn ((key, value) :: rest) = key :: value :: inTurn rest := rfl

theorem itemNodes_singleton (t : Tree) : itemNodes [t] = t.nodes := List.append_nil _

theorem pairEvents_eq (pairs : List (Tree × Tree)) :
    pairEvents pairs = itemEvents (inTurn pairs) := by
  induction pairs with
  | nil => rfl
  | cons pair rest ih =>
    rw [pairEvents, ih]
    rfl

theorem pairNodes_eq (pairs : List (Tree × Tree)) : pairNodes pairs = itemNodes (inTurn pairs) := by
  induction pairs with
  | nil => rfl
  | cons pair rest ih =>
    rw [pairNodes, ih]
    rfl

/-- The anchor of a node, if it has one. -/
def label : Tree → List Nat
  | scalar _ anchor .. | sequence _ anchor .. | mapping _ anchor .. =>
    if anchor = 0 then [] else [anchor]
  | aliasTo .. => []

theorem reverse_label (t : Tree) : t.label.reverse = t.label := by
  cases t with
  | aliasTo mark anchor => rfl
  | _ =>
    rw [label]
    split <;> rfl

def anchors (t : Tree) : List Nat := t.nodes.flatMap label

/-- The keys of a mapping. -/
def keys : Tree → List Tree
  | mapping _ _ _ pairs _ => pairs.map (·.1)
  | _ => []

/-- The tag of a scalar: the one that is written, that of its spelling if it is plain, and that of
a string if it is quoted or in a block. -/
def scalarTag (tag : Option Tag) (text : String) (style : ScalarStyle) : String :=
  match tag, style with
  | some tag, _ => tag.name
  | none, .plain => CoreTag.infer text
  | none, _ => CoreTag.str

/-- A string `<<`, which as a key merges. -/
def merges : Tree → Bool
  | scalar _ _ tag text style =>
    decide (text = mergeKey ∧ scalarTag tag text style = CoreTag.str)
  | _ => false

/-- Every alias names an anchor that is known by then, if these are known at first. -/
def resolved (known : List Nat) : List Tree → Bool
  | [] => true
  | aliasTo _ anchor :: rest => known.contains anchor && resolved known rest
  | t :: rest => resolved (t.label ++ known) rest

theorem resolved_append (known : List Nat) (xs ys : List Tree) :
    resolved known (xs ++ ys) =
      (resolved known xs && resolved ((xs.flatMap label).reverse ++ known) ys) := by
  induction xs generalizing known with
  | nil => rfl
  | cons x rest ih =>
    rw [List.flatMap_cons, List.reverse_append, reverse_label, List.append_assoc, List.cons_append]
    cases x with
    | aliasTo mark anchor => rw [resolved, resolved, ih, Bool.and_assoc]; rfl
    | scalar mark anchor tag text style => exact ih _
    | sequence mark anchor tag items closing => exact ih _
    | mapping mark anchor tag pairs closing => exact ih _

/-- What is asked of nodes when these anchors are known before them. -/
structure Ready (known : List Nat) (ns : List Tree) : Prop where
  resolved : Tree.resolved known ns = true
  bare : ∀ m ∈ ns, ∀ key ∈ m.keys, key.merges = true → key.label = []

theorem Ready.append {known : List Nat} {xs ys : List Tree} (ready : Ready known (xs ++ ys)) :
    Ready known xs ∧ Ready ((xs.flatMap label).reverse ++ known) ys := by
  obtain ⟨resolved, bare⟩ := ready
  rw [resolved_append, Bool.and_eq_true] at resolved
  obtain ⟨first, second⟩ := List.forall_mem_append.mp bare
  exact ⟨⟨resolved.1, first⟩, ⟨resolved.2, second⟩⟩

theorem Ready.known {known : List Nat} {mark : Mark} {anchor : Nat}
    (ready : Ready known [aliasTo mark anchor]) : anchor ∈ known := by
  have resolved := ready.resolved
  simp only [Tree.resolved, Bool.and_true, List.contains_iff_mem] at resolved
  exact resolved

/-- No two nodes have the same anchor, an alias names a node that is complete, and a key that merges
has no anchor. -/
structure WellFormed (t : Tree) : Prop where
  distinct : t.anchors.Nodup
  resolved : resolved [] t.nodes = true
  bare : ∀ m ∈ t.nodes, ∀ key ∈ m.keys, key.merges = true → key.label = []

end Tree

end Yaml

open Yaml (Tree Tag Mark)
open TreeBuilder (anchorName named tagged collected pairUp)

/-! ### What a description says of a node -/

/-- The name of an anchor in a node. -/
def Yaml.anchorOf (anchor : Nat) : Option String :=
  if anchor = 0 then none else some (anchorName anchor)

/-- The tag that is written, or else the one that a node has by itself. -/
def Yaml.tagOr (tag : Option Tag) (own : String) : String := tag.elim own Tag.name

/-- The node is the one described, as a key or not, where anchors label these nodes. -/
inductive Describes (labelled : Nat → Option Node) : Bool → Tree → Node → Prop
  | scalar {asKey : Bool} {mark : Mark} {anchor : Nat} {tag : Option Tag} {text : String}
    {style : Yaml.ScalarStyle} {id : NodeId} {n : Node}
    (built : n = .scalar
      ⟨id, Tree.scalarTag tag text style, Yaml.anchorOf anchor, mark.position⟩ text)
    (stays : asKey = true → (Tree.scalar mark anchor tag text style).merges = false)
    (label : anchor ≠ 0 → labelled anchor = some n) :
    Describes labelled asKey (.scalar mark anchor tag text style) n
  | mergeKey {mark : Mark} {tag : Option Tag} {text : String} {style : Yaml.ScalarStyle}
    {id : NodeId} (merges : (Tree.scalar mark 0 tag text style).merges = true) :
    Describes labelled true (.scalar mark 0 tag text style)
      (.scalar ⟨id, CoreTag.merge, none, mark.position⟩ mergeKey)
  | sequence {asKey : Bool} {mark closing : Mark} {anchor : Nat} {tag : Option Tag}
    {items : List Tree} {id : NodeId} {nodes : List Node} {n : Node}
    (built : n = .sequence
      ⟨id, Yaml.tagOr tag CoreTag.seq, Yaml.anchorOf anchor, mark.position⟩ nodes)
    (each : List.Forall₂ (Describes labelled false) items nodes)
    (label : anchor ≠ 0 → labelled anchor = some n) :
    Describes labelled asKey (.sequence mark anchor tag items closing) n
  | mapping {asKey : Bool} {mark closing : Mark} {anchor : Nat} {tag : Option Tag}
    {pairs : List (Tree × Tree)} {id : NodeId} {nodes : List (Node × Node)} {n : Node}
    (built : n = .mapping
      ⟨id, Yaml.tagOr tag CoreTag.map, Yaml.anchorOf anchor, mark.position⟩ nodes)
    (keys : List.Forall₂ (Describes labelled true) (pairs.map Prod.fst) (nodes.map Prod.fst))
    (values : List.Forall₂ (Describes labelled false) (pairs.map Prod.snd) (nodes.map Prod.snd))
    (label : anchor ≠ 0 → labelled anchor = some n) :
    Describes labelled asKey (.mapping mark anchor tag pairs closing) n
  | aliasTo {asKey : Bool} {mark : Mark} {anchor : Nat} {id : NodeId} {target : Node}
    (found : labelled anchor = some target) :
    Describes labelled asKey (.aliasTo mark anchor)
      (.aliasTo ⟨id, target.tag, none, mark.position⟩ target)

/-! ### What one event does -/

namespace TreeBuilder

variable {b : TreeBuilder}

theorem exists_lookup_of_mem {table : List (Nat × Node)} {anchor : Nat}
    (known : anchor ∈ table.map Prod.fst) : ∃ n, table.lookup anchor = some n := by
  cases found : table.lookup anchor with
  | some n => exact ⟨n, rfl⟩
  | none =>
    obtain ⟨e, member, rfl⟩ := List.mem_map.mp known
    have differ := List.lookup_eq_none_iff.mp found e member
    simp at differ

/-- What is entered in the table for a node. -/
def entry (anchor : Nat) (n : Node) : List (Nat × Node) :=
  if anchor = 0 then [] else [(anchor, n)]

theorem finish_eq (b : TreeBuilder) (n : Node) (anchor : Nat) :
    b.finish n anchor =
      { b with anchors := entry anchor (named anchor n) ++ b.anchors }.attach (named anchor n) := by
  unfold finish named entry
  split <;> rfl

@[simp] theorem anchors_attach (b : TreeBuilder) (n : Node) : (b.attach n).anchors = b.anchors := by
  unfold attach
  split <;> rfl

@[simp] theorem unfinished_attach (b : TreeBuilder) (n : Node) :
    (b.attach n).unfinished = b.unfinished := by
  unfold attach
  split <;> rfl

theorem attach_with_anchors (b : TreeBuilder) (n : Node) (anchors : List (Nat × Node)) :
    { b.attach n with anchors } = { b with anchors }.attach n := by
  obtain ⟨stack, table, root, unfinished⟩ := b
  cases stack <;> rfl

theorem attach_openNode (b : TreeBuilder) (top : OpenNode) (n : Node) :
    (b.openNode top).attach n = b.openNode { top with children := n :: top.children } := rfl

theorem foldl_attach_openNode (b : TreeBuilder) (top : OpenNode) (ns : List Node) :
    ns.foldl attach (b.openNode top) =
      b.openNode { top with children := ns.reverse ++ top.children } := by
  induction ns generalizing top with
  | nil => rfl
  | cons n rest ih => rw [List.foldl_cons, attach_openNode, ih]; simp

section Running

variable (running : b.unfinished = none) (mark : Mark)
include running

theorem event_scalar (text : String) (style : Yaml.ScalarStyle) (anchor : Nat)
    (tag : Option Tag) :
    b.event ⟨mark, .scalar text style anchor tag⟩ = scalarNode text style tag >>= fun n =>
      pure (b.finish (n.place mark.position) anchor) := by
  unfold event
  rw [running]
  rfl

theorem event_aliasTo {anchor : Nat} {target : Node}
    (found : b.anchors.lookup anchor = some target) :
    b.event ⟨mark, .aliasTo anchor⟩ = Build.aliasTo target >>= fun n =>
      pure (b.finish (n.place mark.position) 0) := by
  unfold event
  simp only [running, found]
  rfl

theorem event_unfinished {anchor : Nat} (lost : b.anchors.lookup anchor = none) :
    b.event ⟨mark, .aliasTo anchor⟩ = pure { b with unfinished := some mark.position } := by
  unfold event
  simp only [running, lost]
  rfl

theorem event_sequenceStart (anchor : Nat) (tag : Option Tag) :
    b.event ⟨mark, .sequenceStart anchor tag⟩ =
      pure (b.openNode ⟨.sequence, anchor, tag, mark.position, []⟩) := by
  unfold event
  rw [running]
  rfl

theorem event_mappingStart (anchor : Nat) (tag : Option Tag) :
    b.event ⟨mark, .mappingStart anchor tag⟩ =
      pure (b.openNode ⟨.mapping, anchor, tag, mark.position, []⟩) := by
  unfold event
  rw [running]
  rfl

theorem event_sequenceEnd : b.event ⟨mark, .sequenceEnd⟩ = b.close := by
  unfold event
  rw [running]
  rfl

theorem event_mappingEnd : b.event ⟨mark, .mappingEnd⟩ = b.close := by
  unfold event
  rw [running]
  rfl

end Running

/-- Once an alias named a node that was not complete, nothing changes any more. -/
theorem event_of_unfinished {position : Position} (stopped : b.unfinished = some position)
    (e : Yaml.Event) : b.event e = pure b := by
  unfold event
  rw [stopped]
  rfl

/-! ### How a node is finished -/

theorem run_bind_of_run {α β : Type} {first : Build α} {free later : NodeId} {value : α}
    (run : first.run free = (value, later)) (next : α → Build β) :
    (first >>= next).run free = (next value).run later := by
  rw [StateT.run_bind, run]
  rfl

theorem run_scalarNode (tag : Option Tag) (text : String) (style : Yaml.ScalarStyle)
    (free : NodeId) :
    (scalarNode text style tag).run free =
      (.scalar { id := free, tag := Tree.scalarTag tag text style } text,
        ⟨free.number + 1⟩) := by
  cases tag with
  | some tag => rfl
  | none => cases style <;> rfl

theorem named_tagged_place {n : Node} (plain : n.anchor? = none) (anchor : Nat)
    (tag : Option Tag) (position : Position) :
    named anchor (tagged tag (n.place position)) =
      n.withInfo ⟨n.id, Yaml.tagOr tag n.tag, Yaml.anchorOf anchor, position⟩ := by
  unfold named Yaml.anchorOf
  cases n with
  | _ info =>
    simp only [Node.anchor?, Node.info] at plain
    split <;> cases tag <;>
      simp [tagged, Node.place, Node.retagged, Node.anchored, Node.withInfo, Node.info, Node.id,
        Node.tag, Yaml.tagOr, plain]

/-- A node with what is written about it. -/
def dressed (anchor : Nat) (tag : Option Tag) (position : Position) (n : Node) : Node :=
  n.withInfo ⟨n.id, Yaml.tagOr tag n.tag, Yaml.anchorOf anchor, position⟩

theorem run_close {n : Node} {collection : Collection} {ns : List Node} {free later : NodeId}
    (made : (collected ns collection).run free = (n, later)) (plain : n.anchor? = none)
    (b : TreeBuilder) (anchor : Nat) (tag : Option Tag) (position : Position) :
    (b.openNode ⟨collection, anchor, tag, position, ns.reverse⟩).close.run free =
      ({ b with anchors := entry anchor (dressed anchor tag position n) ++ b.anchors }.attach
        (dressed anchor tag position n), later) := by
  have stacked : (b.openNode ⟨collection, anchor, tag, position, ns.reverse⟩).stack =
    ⟨collection, anchor, tag, position, ns.reverse⟩ :: b.stack := rfl
  rw [close_cons stacked, List.reverse_reverse, run_bind_of_run made]
  have finished := finish_eq b (tagged tag (n.place position)) anchor
  rw [named_tagged_place plain] at finished
  exact congrArg (fun after => (after, later)) finished

/-! ### Keys -/

theorem exists_run_mappingKey (n : Node) (free : NodeId) :
    ∃ m later, (Build.mappingKey n).run free = (m, later) ∧
      ∀ (labelled : Nat → Option Node) (t : Tree), (t.merges = true → t.label = []) →
        Describes labelled false t n → Describes labelled true t m := by
  -- The builder sees the node and not what was written, so the two ways to tell a key that merges
  -- have to agree: by the node, and by the description.
  by_cases word : n.isScalar ∧ n.text = mergeKey ∧ n.tag = CoreTag.str
  · refine ⟨.scalar { id := free, tag := CoreTag.merge, position := n.position } mergeKey,
      ⟨free.number + 1⟩, ?_, ?_⟩
    · rw [Build.mappingKey, if_pos word]
      rfl
    · intro labelled t bare describes
      obtain ⟨scalar, text, tag⟩ := word
      cases describes with
      | @scalar _ mark anchor written spelling style id _ built =>
        subst built
        have merges : (Tree.scalar mark anchor written spelling style).merges = true :=
          decide_eq_true ⟨text, tag⟩
        -- The node is made anew, so an anchor on it would be lost.
        have unlabelled : anchor = 0 := by simpa [Tree.label] using bare merges
        subst unlabelled
        exact .mergeKey merges
      | sequence built => subst built; cases scalar
      | mapping built => subst built; cases scalar
      | aliasTo => cases scalar
  · refine ⟨n, free, ?_, ?_⟩
    · rw [Build.mappingKey, if_neg word]
      rfl
    · intro labelled t bare describes
      cases describes with
      | scalar built stays label =>
        refine .scalar built (fun _ => ?_) label
        subst built
        exact decide_eq_false fun both => word ⟨rfl, both.1, both.2⟩
      | sequence built each label => exact .sequence built each label
      | mapping built keys values label => exact .mapping built keys values label
      | aliasTo found => exact .aliasTo found

/-- What a computation gives for every item it gives for all. -/
theorem exists_run_mapM {α β : Type} {f : α → Build β} {R : α → β → Prop} {xs : List α}
    (each : ∀ x ∈ xs, ∀ free, ∃ y later, (f x).run free = (y, later) ∧ R x y) (free : NodeId) :
    ∃ ys later, (xs.mapM f).run free = (ys, later) ∧ List.Forall₂ R xs ys := by
  induction xs generalizing free with
  | nil => exact ⟨[], free, rfl, .nil⟩
  | cons x rest ih =>
    obtain ⟨here, others⟩ := List.forall_mem_cons.mp each
    obtain ⟨y, between, first, related⟩ := here free
    obtain ⟨ys, later, run, all⟩ := ih others between
    refine ⟨y :: ys, later, ?_, .cons related all⟩
    rw [List.mapM_cons, run_bind_of_run first, run_bind_of_run run]
    rfl

theorem exists_run_mapping (pairs : List (Node × Node)) (free : NodeId) :
    ∃ id changed later,
      (Build.mapping pairs).run free = (.mapping { id, tag := CoreTag.map } changed, later) ∧
      changed.map Prod.snd = pairs.map Prod.snd ∧
      ∀ (labelled : Nat → Option Node) (ts : List Tree),
        (∀ t ∈ ts, t.merges = true → t.label = []) →
        List.Forall₂ (Describes labelled false) ts (pairs.map Prod.fst) →
        List.Forall₂ (Describes labelled true) ts (changed.map Prod.fst) := by
  have each : ∀ (pair : Node × Node) free, ∃ after later,
      (do return (← Build.mappingKey pair.1, pair.2) : Build (Node × Node)).run free =
        (after, later) ∧ after.2 = pair.2 ∧
      ∀ (labelled : Nat → Option Node) (t : Tree), (t.merges = true → t.label = []) →
        Describes labelled false t pair.1 → Describes labelled true t after.1 := by
    intro pair free
    obtain ⟨m, later, run, describes⟩ := exists_run_mappingKey pair.1 free
    refine ⟨(m, pair.2), later, ?_, rfl, describes⟩
    exact run_bind_of_run run _
  obtain ⟨changed, later, run, all⟩ := exists_run_mapM (fun pair _ => each pair) free
  refine ⟨later, changed, ⟨later.number + 1⟩, run_bind_of_run run _, ?_, ?_⟩
  · clear run
    induction all with
    | nil => rfl
    | cons related _ ih => rw [List.map_cons, List.map_cons, related.1, ih]
  · intro labelled ts bare describes
    clear run
    induction all generalizing ts with
    | nil =>
      cases describes
      exact .nil
    | cons related _ ih =>
      cases describes with
      | cons first others =>
        obtain ⟨here, later⟩ := List.forall_mem_cons.mp bare
        exact .cons (related.2 labelled _ here first) (ih _ later others)

/-! ### What the events of a description do -/

/-- The events of the descriptions attach nodes, and enter those that have an anchor: nodes that are
described, wherever the anchors label what is in the table. -/
def Attaches (b : TreeBuilder) (ts : List Tree) : Prop :=
  ∀ free, ∃ ns table later,
    ((Tree.itemEvents ts).foldlM event b).run free =
      (ns.foldl attach { b with anchors := table ++ b.anchors }, later) ∧
    table.map Prod.fst = ((Tree.itemNodes ts).flatMap Tree.label).reverse ∧
    ∀ labelled : Nat → Option Node, (∀ e ∈ table ++ b.anchors, labelled e.1 = some e.2) →
      List.Forall₂ (Describes labelled false) ts ns

@[simp] theorem anchors_foldl_attach (ns : List Node) (b : TreeBuilder) :
    (ns.foldl attach b).anchors = b.anchors := by
  induction ns generalizing b with
  | nil => rfl
  | cons n rest ih => rw [List.foldl_cons, ih, anchors_attach]

@[simp] theorem unfinished_foldl_attach (ns : List Node) (b : TreeBuilder) :
    (ns.foldl attach b).unfinished = b.unfinished := by
  induction ns generalizing b with
  | nil => rfl
  | cons n rest ih => rw [List.foldl_cons, ih, unfinished_attach]

theorem foldl_attach_with_anchors (ns : List Node) (b : TreeBuilder)
    (anchors : List (Nat × Node)) :
    { ns.foldl attach b with anchors } = ns.foldl attach { b with anchors } := by
  induction ns generalizing b with
  | nil => rfl
  | cons n rest ih => rw [List.foldl_cons, ih, attach_with_anchors, List.foldl_cons]

theorem attaches_nil (b : TreeBuilder) : Attaches b [] :=
  fun free => ⟨[], [], free, rfl, rfl, fun _ _ => .nil⟩

theorem Attaches.append {xs ys : List Tree} (running : b.unfinished = none)
    (first : Attaches b xs)
    (later : ∀ after : TreeBuilder, after.unfinished = none →
      after.anchors.map Prod.fst =
        ((Tree.itemNodes xs).flatMap Tree.label).reverse ++ b.anchors.map Prod.fst →
      Attaches after ys) : Attaches b (xs ++ ys) := by
  intro free
  obtain ⟨ns, table, between, run, known, describes⟩ := first free
  -- The later descriptions may name the anchors of the first, which are in the table by now.
  have after := later (ns.foldl attach { b with anchors := table ++ b.anchors })
    (by simpa using running) (by simp [known])
  obtain ⟨ms, more, last, rerun, knownToo, describesToo⟩ := after between
  rw [anchors_foldl_attach] at rerun describesToo
  refine ⟨ns ++ ms, more ++ table, last, ?_, ?_, ?_⟩
  · rw [Tree.itemEvents_append, List.foldlM_append, run_bind_of_run run, rerun,
      foldl_attach_with_anchors, List.foldl_append, List.append_assoc]
  · rw [List.map_append, knownToo, known, Tree.itemNodes_append, List.flatMap_append,
      List.reverse_append]
  · intro labelled agrees
    rw [List.append_assoc] at agrees
    exact List.rel_append
      (describes labelled fun e member => agrees e (List.mem_append_right _ member))
      (describesToo labelled agrees)

/-- The events of one description, where the node itself is entered last. -/
theorem attaches_single {t : Tree} (inner : List Tree) {anchor : Nat}
    (nodes : t.nodes = inner ++ [t]) (label : t.label = if anchor = 0 then [] else [anchor])
    (runs : ∀ free, ∃ n table later,
      (t.events.foldlM event b).run free =
        ({ b with anchors := entry anchor n ++ (table ++ b.anchors) }.attach n, later) ∧
      table.map Prod.fst = (inner.flatMap Tree.label).reverse ∧
      ∀ labelled : Nat → Option Node,
        (∀ e ∈ entry anchor n ++ (table ++ b.anchors), labelled e.1 = some e.2) →
        Describes labelled false t n) : Attaches b [t] := by
  intro free
  obtain ⟨n, table, later, run, known, describes⟩ := runs free
  refine ⟨[n], entry anchor n ++ table, later, ?_, ?_, ?_⟩
  · rw [Tree.itemEvents, Tree.itemEvents, List.append_nil, run, List.append_assoc]
    rfl
  · have own : (entry anchor n).map Prod.fst = t.label := by
      rw [label, entry]
      split <;> rfl
    rw [List.map_append, own, known, Tree.itemNodes, Tree.itemNodes, List.append_nil, nodes,
      List.flatMap_append, List.reverse_append, List.flatMap_singleton, Tree.reverse_label]
  · intro labelled agrees
    rw [List.append_assoc] at agrees
    exact .cons (describes labelled agrees) .nil

theorem label_of_agrees {labelled : Nat → Option Node} {anchor : Nat} {n : Node}
    {rest : List (Nat × Node)} (agrees : ∀ e ∈ entry anchor n ++ rest, labelled e.1 = some e.2)
    (positive : anchor ≠ 0) : labelled anchor = some n :=
  agrees (anchor, n) (by simp [entry, positive])

/-- A node that is made and placed is finished under its anchor. -/
theorem run_finish {make : Build Node} {n : Node} {free later : NodeId}
    (made : make.run free = (n, later)) (plain : n.anchor? = none) (b : TreeBuilder)
    (anchor : Nat) (position : Position) :
    (make >>= fun n => pure (b.finish (n.place position) anchor) : Build TreeBuilder).run free =
      ({ b with anchors := entry anchor (dressed anchor none position n) ++ b.anchors }.attach
        (dressed anchor none position n), later) := by
  have finished := finish_eq b (tagged none (n.place position)) anchor
  rw [named_tagged_place plain] at finished
  rw [run_bind_of_run made]
  exact congrArg (fun after => (after, later)) finished

theorem attaches_scalar (running : b.unfinished = none) (mark : Mark) (anchor : Nat)
    (tag : Option Tag) (text : String) (style : Yaml.ScalarStyle) :
    Attaches b [.scalar mark anchor tag text style] := by
  apply attaches_single [] rfl rfl
  intro free
  let n : Node := .scalar { id := free, tag := Tree.scalarTag tag text style } text
  have made := run_finish (run_scalarNode tag text style free) rfl b anchor mark.position
  refine ⟨dressed anchor none mark.position n, [], ⟨free.number + 1⟩, ?_, rfl, ?_⟩
  · rw [Tree.events, List.foldlM_cons, event_scalar running, run_bind_of_run made]
    rfl
  · intro labelled agrees
    exact .scalar rfl (by simp) (label_of_agrees agrees)

theorem attaches_aliasTo (running : b.unfinished = none) (mark : Mark) {anchor : Nat}
    (known : anchor ∈ b.anchors.map Prod.fst) : Attaches b [.aliasTo mark anchor] := by
  obtain ⟨target, found⟩ := exists_lookup_of_mem known
  have listed : (anchor, target) ∈ b.anchors := by
    obtain ⟨front, rest, split, _⟩ := List.lookup_eq_some_iff.mp found
    simp [split]
  have unlabelled : (Tree.aliasTo mark anchor).label = if 0 = 0 then [] else [0] := rfl
  apply attaches_single [] rfl unlabelled
  intro free
  let n : Node := .aliasTo { id := free, tag := target.tag } target
  have fresh : (Build.aliasTo target).run free = (n, ⟨free.number + 1⟩) := rfl
  have made := run_finish fresh rfl b 0 mark.position
  refine ⟨dressed 0 none mark.position n, [], ⟨free.number + 1⟩, ?_, rfl, ?_⟩
  · rw [Tree.events, List.foldlM_cons, event_aliasTo running _ found, run_bind_of_run made]
    rfl
  · intro labelled agrees
    exact .aliasTo (agrees (anchor, target) (by simp [listed]))

/-- The events of a collection, when those of its children attach them inside. -/
theorem attaches_collection {t : Tree} {ts : List Tree} {collection : Collection} {anchor : Nat}
    {tag : Option Tag} {position : Position} {start stop : Yaml.Event}
    (running : b.unfinished = none) (nodes : t.nodes = Tree.itemNodes ts ++ [t])
    (label : t.label = if anchor = 0 then [] else [anchor])
    (events : t.events = start :: (Tree.itemEvents ts ++ [stop]))
    (opens : b.event start = pure (b.openNode ⟨collection, anchor, tag, position, []⟩))
    (closes : ∀ inner : TreeBuilder, inner.unfinished = none → inner.event stop = inner.close)
    (each : ∀ top, Attaches (b.openNode top) ts)
    (makes : ∀ ns free, ∃ n later, (collected ns collection).run free = (n, later) ∧
      n.anchor? = none ∧ ∀ labelled, List.Forall₂ (Describes labelled false) ts ns →
        (anchor ≠ 0 → labelled anchor = some (dressed anchor tag position n)) →
        Describes labelled false t (dressed anchor tag position n)) : Attaches b [t] := by
  apply attaches_single (Tree.itemNodes ts) nodes label
  intro free
  obtain ⟨ns, table, between, run, known, describes⟩ :=
    each ⟨collection, anchor, tag, position, []⟩ free
  obtain ⟨n, later, made, plain, described⟩ := makes ns between
  let inner : TreeBuilder := { b with anchors := table ++ b.anchors }
  refine ⟨dressed anchor tag position n, table, later, ?_, known, ?_⟩
  · have first : (b.event start).run free =
        (b.openNode ⟨collection, anchor, tag, position, []⟩, free) := by
      rw [opens]
      rfl
    -- Inside, the children are pushed on the node that was opened.
    have pushed := foldl_attach_openNode inner ⟨collection, anchor, tag, position, []⟩ ns
    rw [List.append_nil] at pushed
    have last : (inner.openNode ⟨collection, anchor, tag, position, ns.reverse⟩).unfinished =
        none := running
    rw [events, List.foldlM_cons, run_bind_of_run first, List.foldlM_append, run_bind_of_run run]
    change (List.foldlM event (ns.foldl attach
      (inner.openNode ⟨collection, anchor, tag, position, []⟩)) [stop]).run between = _
    rw [pushed, List.foldlM_cons, closes _ last,
      run_bind_of_run (run_close made plain inner anchor tag position)]
    rfl
  · intro labelled agrees
    apply described labelled
    · exact describes labelled fun e member => agrees e (List.mem_append_right _ member)
    · exact label_of_agrees agrees

theorem attaches_sequence (running : b.unfinished = none) (mark closing : Mark) (anchor : Nat)
    (tag : Option Tag) {items : List Tree} (each : ∀ top, Attaches (b.openNode top) items) :
    Attaches b [.sequence mark anchor tag items closing] := by
  apply attaches_collection running rfl rfl rfl (event_sequenceStart running mark anchor tag)
  · intro inner runs
    exact event_sequenceEnd runs closing
  · exact each
  · intro ns free
    refine ⟨.sequence { id := free, tag := CoreTag.seq } ns, ⟨free.number + 1⟩, rfl, rfl, ?_⟩
    intro labelled described label
    exact .sequence rfl described label

theorem forall₂_pairUp {R : Tree → Node → Prop} {pairs : List (Tree × Tree)} {ns : List Node}
    (all : List.Forall₂ R (Tree.inTurn pairs) ns) :
    List.Forall₂ R (pairs.map Prod.fst) ((pairUp ns).map Prod.fst) ∧
      List.Forall₂ R (pairs.map Prod.snd) ((pairUp ns).map Prod.snd) := by
  induction pairs generalizing ns with
  | nil =>
    cases all
    exact ⟨.nil, .nil⟩
  | cons pair rest ih =>
    cases all with
    | cons key others =>
      cases others with
      | cons value others =>
        obtain ⟨keys, values⟩ := ih others
        exact ⟨.cons key keys, .cons value values⟩

theorem attaches_mapping (running : b.unfinished = none) (mark closing : Mark) (anchor : Nat)
    (tag : Option Tag) {pairs : List (Tree × Tree)}
    (bare : ∀ key ∈ pairs.map Prod.fst, key.merges = true → key.label = [])
    (each : ∀ top, Attaches (b.openNode top) (Tree.inTurn pairs)) :
    Attaches b [.mapping mark anchor tag pairs closing] := by
  have nodes : (Tree.mapping mark anchor tag pairs closing).nodes =
      Tree.itemNodes (Tree.inTurn pairs) ++ [.mapping mark anchor tag pairs closing] := by
    rw [Tree.nodes, Tree.pairNodes_eq]
  have events : (Tree.mapping mark anchor tag pairs closing).events =
      ⟨mark, .mappingStart anchor tag⟩ ::
        (Tree.itemEvents (Tree.inTurn pairs) ++ [⟨closing, .mappingEnd⟩]) := by
    rw [Tree.events, Tree.pairEvents_eq]
  apply attaches_collection running nodes rfl events (event_mappingStart running mark anchor tag)
  · intro inner runs
    exact event_mappingEnd runs closing
  · exact each
  · intro ns free
    obtain ⟨id, changed, later, run, values, keys⟩ := exists_run_mapping (pairUp ns) free
    refine ⟨.mapping { id, tag := CoreTag.map } changed, later, run, rfl, ?_⟩
    intro labelled described label
    obtain ⟨ofKeys, ofValues⟩ := forall₂_pairUp described
    exact .mapping rfl (keys labelled _ bare ofKeys) (values ▸ ofValues) label

mutual

theorem attaches : (t : Tree) → (b : TreeBuilder) → b.unfinished = none →
    Tree.Ready (b.anchors.map Prod.fst) t.nodes → Attaches b [t]
  | .scalar mark anchor tag text style, b, running, _ =>
    attaches_scalar running mark anchor tag text style
  | .aliasTo mark anchor, b, running, ready =>
    attaches_aliasTo running mark ready.known
  | .sequence mark anchor tag items closing, b, running, ready => by
    obtain ⟨inside, _⟩ := ready.append
    exact attaches_sequence running mark closing anchor tag fun top =>
      attaches_items items (b.openNode top) running inside
  | .mapping mark anchor tag pairs closing, b, running, ready => by
    rw [Tree.nodes] at ready
    obtain ⟨inside, _⟩ := ready.append
    have bare := ready.bare (.mapping mark anchor tag pairs closing) (by simp)
    exact attaches_mapping running mark closing anchor tag bare fun top =>
      attaches_pairs pairs (b.openNode top) running (Tree.pairNodes_eq pairs ▸ inside)

theorem attaches_items : (ts : List Tree) → (b : TreeBuilder) → b.unfinished = none →
    Tree.Ready (b.anchors.map Prod.fst) (Tree.itemNodes ts) → Attaches b ts
  | [], b, _, _ => attaches_nil b
  | t :: rest, b, running, ready => by
    rw [Tree.itemNodes] at ready
    obtain ⟨first, others⟩ := ready.append
    apply (attaches t b running first).append running
    intro after runs known
    apply attaches_items rest after runs
    rw [known, Tree.itemNodes_singleton]
    exact others

theorem attaches_pairs : (pairs : List (Tree × Tree)) → (b : TreeBuilder) →
    b.unfinished = none →
    Tree.Ready (b.anchors.map Prod.fst) (Tree.itemNodes (Tree.inTurn pairs)) →
    Attaches b (Tree.inTurn pairs)
  | [], b, _, _ => attaches_nil b
  | (key, value) :: rest, b, running, ready => by
    rw [Tree.inTurn_cons, Tree.itemNodes, Tree.itemNodes] at ready
    obtain ⟨first, others⟩ := ready.append
    obtain ⟨second, others⟩ := others.append
    change Attaches b ([key] ++ ([value] ++ Tree.inTurn rest))
    apply (attaches key b running first).append running
    intro between runs known
    rw [Tree.itemNodes_singleton] at known
    rw [← known] at second others
    apply (attaches value between runs second).append runs
    intro after runsToo knownToo
    apply attaches_pairs rest after runsToo
    rw [knownToo, Tree.itemNodes_singleton]
    exact others

end

/-- The events of a well-formed description leave no open node and no error, and a root that is
described, where the anchors label what is in the table. -/
theorem exists_run_events {t : Tree} (wellFormed : t.WellFormed) (free : NodeId) :
    ∃ table n later, (run t.events).run free = ({ anchors := table, root := some n }, later) ∧
      Describes (table.lookup ·) false t n := by
  obtain ⟨ns, table, later, run, known, describes⟩ :=
    attaches t {} rfl ⟨wellFormed.resolved, wellFormed.bare⟩ free
  rw [Tree.itemNodes_singleton] at known
  -- No anchor is there twice, so the table itself says which node an anchor labels.
  have distinct : (table.map Prod.fst).Nodup := by
    rw [known]
    exact List.nodup_reverse.mpr wellFormed.distinct
  have agrees : ∀ e ∈ table ++ [], table.lookup e.1 = some e.2 := by
    intro e member
    rw [List.append_nil] at member
    exact (mem_iff_lookup distinct e.1 e.2).mp member
  cases describes (table.lookup ·) agrees with
  | cons described none =>
    cases none
    refine ⟨table, _, later, ?_, described⟩
    have events : Tree.itemEvents [t] = t.events := List.append_nil _
    rw [events, List.append_nil] at run
    exact run

end TreeBuilder

end DocRefs
