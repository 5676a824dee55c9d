import DocRefs.Proofs.Node.Described
import Mathlib.Data.List.Induction

/-!
# Aliases to nodes that are not complete

A node is complete when its events have all come, for a collection up to the event that closes it
(`Yaml.Completes`). The table of a builder has complete nodes only (`TreeBuilder.Follows`), so an
alias that names another one stops it, and nothing that comes later changes the outcome. Main
result: `built_from_events`.
-/
namespace DocRefs

namespace Yaml

/-- The anchor of the collection that an event opens. -/
def EventKind.opens? : EventKind → Option Nat
  | sequenceStart anchor _ | mappingStart anchor _ => some anchor
  | _ => none

def EventKind.closes : EventKind → Bool
  | sequenceEnd | mappingEnd => true
  | _ => false

def EventKind.isLeaf : EventKind → Bool
  | scalar .. | aliasTo _ => true
  | _ => false

/-- Every collection that is opened is closed, and nothing else is closed. -/
inductive Balanced : List Event → Prop
  | nil : Balanced []
  | leaf {e : Event} {rest : List Event} (leaf : e.kind.isLeaf = true) (later : Balanced rest) :
    Balanced (e :: rest)
  | nest {start stop : Event} {anchor : Nat} {inside rest : List Event}
    (opens : start.kind.opens? = some anchor) (closes : stop.kind.closes = true)
    (body : Balanced inside) (later : Balanced rest) :
    Balanced (start :: (inside ++ stop :: rest))

theorem Balanced.append {xs ys : List Event} (left : Balanced xs) (right : Balanced ys) :
    Balanced (xs ++ ys) := by
  induction left with
  | nil => exact right
  | leaf leaf _ ih => exact .leaf leaf ih
  | nest opens closes body _ _ ih =>
    rw [List.cons_append, List.append_assoc, List.cons_append]
    exact .nest opens closes body ih

/-- Somewhere among the events stands a whole node with that anchor. -/
inductive Completes (anchor : Nat) : List Event → Prop
  | scalar {before after : List Event} {mark : Mark} {text : String} {style : ScalarStyle}
    {tag : Option Tag} : Completes anchor (before ++ ⟨mark, .scalar text style anchor tag⟩ :: after)
  | collection {before inside after : List Event} {start stop : Event}
    (opens : start.kind.opens? = some anchor) (closes : stop.kind.closes = true)
    (body : Balanced inside) : Completes anchor (before ++ start :: (inside ++ stop :: after))

theorem Completes.exists_mem {anchor : Nat} {events : List Event}
    (completes : Completes anchor events) : ∃ e ∈ events, e.kind.closes = true ∨
      ∃ text style tag, e.kind = .scalar text style anchor tag := by
  cases completes with
  | @scalar before after mark text style tag =>
    exact ⟨⟨mark, .scalar text style anchor tag⟩, by simp, .inr ⟨text, style, tag, rfl⟩⟩
  | @collection before inside after start stop opens closes body =>
    exact ⟨stop, by simp, .inl closes⟩

theorem Completes.append {anchor : Nat} {events : List Event} (completes : Completes anchor events)
    (more : List Event) : Completes anchor (events ++ more) := by
  cases completes with
  | scalar =>
    rw [List.append_assoc, List.cons_append]
    exact .scalar
  | collection opens closes body =>
    rw [List.append_assoc, List.cons_append, List.append_assoc, List.cons_append]
    exact .collection opens closes body

/-- The events leave collections with these anchors open, the innermost first: after the event that
opens one, everything else is closed again. -/
inductive Opens : List Nat → List Event → Prop
  | ground (events : List Event) : Opens [] events
  | inside {outer : List Nat} {anchor : Nat} {before body : List Event} {start : Event}
    (around : Opens outer before) (opens : start.kind.opens? = some anchor)
    (balanced : Balanced body) : Opens (anchor :: outer) (before ++ start :: body)

theorem Opens.append {stack : List Nat} {events more : List Event} (opened : Opens stack events)
    (balanced : Balanced more) : Opens stack (events ++ more) := by
  cases opened with
  | ground => exact .ground _
  | inside around opens body =>
    rw [List.append_assoc, List.cons_append]
    exact .inside around opens (body.append balanced)

end Yaml

open Yaml (Event Mark Balanced Completes Opens)
open TreeBuilder (named tagged collected)

namespace TreeBuilder

/-- After these events the stack has the collections that are open, and the table complete nodes. -/
structure Follows (events : List Event) (b : TreeBuilder) : Prop where
  opened : Opens (b.stack.map (·.anchor)) events
  complete : ∀ e ∈ b.anchors, Completes e.1 events

variable {events : List Event} {b : TreeBuilder}

theorem stack_attach (b : TreeBuilder) (n : Node) :
    (b.attach n).stack.map (·.anchor) = b.stack.map (·.anchor) := by
  obtain ⟨stack, anchors, root, unfinished⟩ := b
  cases stack <;> rfl

/-- A node with an anchor is entered when it is complete. -/
theorem follows_finish {more : List Event} {anchor : Nat}
    (complete : ∀ e ∈ b.anchors, Completes e.1 events)
    (opened : Opens (b.stack.map (·.anchor)) (events ++ more))
    (whole : anchor ≠ 0 → Completes anchor (events ++ more)) (n : Node) :
    Follows (events ++ more) (b.finish n anchor) := by
  rw [finish_eq]
  constructor
  · rw [stack_attach]
    exact opened
  · intro e member
    rw [anchors_attach] at member
    obtain own | before := List.mem_append.mp member
    · unfold entry at own
      split at own
      · cases own
      · rename_i positive
        obtain rfl := List.mem_singleton.mp own
        exact whole positive
    · exact (complete e before).append more

theorem Follows.openNode (follows : Follows events b) {start : Event} {top : OpenNode}
    (opens : start.kind.opens? = some top.anchor) :
    Follows (events ++ [start]) (b.openNode top) :=
  ⟨.inside follows.opened opens .nil,
    fun e member => (follows.complete e member).append [start]⟩

theorem follows_close (follows : Follows events b) {stop : Event}
    (closes : stop.kind.closes = true) (free : NodeId) :
    Follows (events ++ [stop]) (b.close.run free).1 := by
  obtain ⟨opened, complete⟩ := follows
  cases stack : b.stack with
  | nil =>
    have same : b.close = pure b := by rw [close, stack]
    rw [same]
    refine ⟨?_, fun e member => (complete e member).append [stop]⟩
    change Opens (b.stack.map (·.anchor)) _
    rw [stack]
    exact .ground _
  | cons top outer =>
    rw [stack, List.map_cons] at opened
    rw [close_cons stack]
    cases opened with
    | @inside _ _ before body start around opens balanced =>
      -- The collection is whole now, and lies in the one around it.
      have segment : Balanced (start :: (body ++ [stop])) := .nest opens closes balanced .nil
      have split : before ++ start :: body ++ [stop] = before ++ start :: (body ++ [stop]) := by
        simp
      apply follows_finish (b := { b with stack := outer }) complete
      · rw [split]
        exact around.append segment
      · intro _
        rw [split]
        exact .collection opens closes balanced

/-- While no event stops it, the builder stays in step with the events. -/
theorem follows_event (follows : Follows events b) (running : b.unfinished = none) (e : Event)
    (free : NodeId) (still : ((b.event e).run free).1.unfinished = none) :
    Follows (events ++ [e]) ((b.event e).run free).1 := by
  have leaf : e.kind.isLeaf = true → Opens (b.stack.map (·.anchor)) (events ++ [e]) :=
    fun leaf => follows.opened.append (.leaf leaf .nil)
  obtain ⟨mark, kind⟩ := e
  cases kind with
  | scalar text style anchor tag =>
    rw [event_scalar running]
    exact follows_finish follows.complete (leaf rfl) (fun _ => .scalar) _
  | aliasTo anchor =>
    cases found : b.anchors.lookup anchor with
    | none =>
      rw [event_unfinished running mark found] at still
      cases still
    | some target =>
      rw [event_aliasTo running mark found]
      exact follows_finish follows.complete (leaf rfl) (fun positive => absurd rfl positive) _
  | sequenceStart anchor tag =>
    rw [event_sequenceStart running]
    exact follows.openNode rfl
  | mappingStart anchor tag =>
    rw [event_mappingStart running]
    exact follows.openNode rfl
  | sequenceEnd =>
    rw [event_sequenceEnd running]
    exact follows_close follows rfl free
  | mappingEnd =>
    rw [event_mappingEnd running]
    exact follows_close follows rfl free

theorem run_append (events more : List Event) (free : NodeId) :
    (run (events ++ more)).run free =
      (more.foldlM event ((run events).run free).1).run ((run events).run free).2 := by
  unfold run
  rw [List.foldlM_append]
  exact run_bind_of_run rfl _

theorem run_of_unfinished {position : Position} (stopped : b.unfinished = some position)
    (events : List Event) (free : NodeId) : (events.foldlM event b).run free = (b, free) := by
  induction events with
  | nil => rfl
  | cons e rest ih =>
    rw [List.foldlM_cons, event_of_unfinished stopped]
    exact ih

theorem follows_run (events : List Event) (free : NodeId)
    (still : ((run events).run free).1.unfinished = none) :
    Follows events ((run events).run free).1 := by
  -- From the back: what is open or complete after an event depends on all that came before it.
  induction events using List.reverseRecOn with
  | nil =>
    refine ⟨.ground _, ?_⟩
    intro e member
    cases member
  | append_singleton events e ih =>
    rw [run_append] at still ⊢
    cases before : ((run events).run free).1.unfinished with
    | some position =>
      rw [run_of_unfinished before, before] at still
      cases still
    | none =>
      have step : List.foldlM event ((run events).run free).1 [e] =
          ((run events).run free).1.event e := by
        rw [List.foldlM_cons]
        exact bind_pure _
      rw [step] at still ⊢
      exact follows_event (ih before) before e _ still

/-- An alias to an anchor whose node is not complete stops the builder, whatever follows. -/
theorem exists_unfinished {before : List Event} {anchor : Nat}
    (incomplete : ¬ Completes anchor before) (mark : Mark) (after : List Event) (free : NodeId) :
    ∃ position,
      ((run (before ++ ⟨mark, .aliasTo anchor⟩ :: after)).run free).1.unfinished =
        some position := by
  rw [run_append]
  cases stopped : ((run before).run free).1.unfinished with
  | some position =>
    -- An earlier alias has stopped it already.
    rw [run_of_unfinished stopped]
    exact ⟨position, stopped⟩
  | none =>
    have follows := follows_run before free stopped
    have lost : ((run before).run free).1.anchors.lookup anchor = none := by
      cases found : ((run before).run free).1.anchors.lookup anchor with
      | none => rfl
      | some n =>
        obtain ⟨front, rest, split, _⟩ := List.lookup_eq_some_iff.mp found
        exact absurd (follows.complete (anchor, n) (by simp [split])) incomplete
    refine ⟨mark.position, ?_⟩
    rw [List.foldlM_cons, event_unfinished stopped mark lost]
    exact congrArg (fun r => r.1.unfinished)
      (run_of_unfinished (b := { ((run before).run free).1 with unfinished := some mark.position })
        rfl after _)

end TreeBuilder

theorem Node.ofEvents?_of_unfinished {events : List Event} {free : NodeId} {position : Position}
    (stopped : ((TreeBuilder.run events).run free).1.unfinished = some position) :
    ((ofEvents? events).run free).1 = .error (.unfinishedAlias position) := by
  obtain ⟨⟨built, later⟩, ran⟩ : ∃ r, (TreeBuilder.run events).run free = r := ⟨_, rfl⟩
  rw [ran] at stopped
  rw [ofEvents?, TreeBuilder.run_bind_of_run ran, stopped]
  rfl

/-- A well-formed description is built again from its events: the stack is empty, there is no error,
and the root is the tree that is described. A stream with an alias to an anchor whose node is not
complete comes to an error, whatever follows. So in a tree that comes from events no node is below
or behind itself. -/
theorem built_from_events :
    (∀ (t : Yaml.Tree) (free : NodeId), t.WellFormed → ∃ table n later,
      (TreeBuilder.run t.events).run free = ({ anchors := table, root := some n }, later) ∧
      Describes (table.lookup ·) false t n) ∧
    (∀ (before after : List Event) (mark : Mark) (anchor : Nat) (free : NodeId),
      ¬ Completes anchor before → ∃ position,
        ((Node.ofEvents? (before ++ ⟨mark, .aliasTo anchor⟩ :: after)).run free).1 =
          .error (.unfinishedAlias position)) ∧
    (∀ (events : List Event) (free : NodeId) (root n m : Node),
      ((Node.ofEvents? events).run free).1 = .ok root → root.Reaches n →
        Relation.TransGen Node.Edge n m → m.id ≠ n.id) := by
  refine ⟨?_, ?_, ?_⟩
  · intro t free wellFormed
    exact TreeBuilder.exists_run_events wellFormed free
  · intro before after mark anchor free incomplete
    obtain ⟨position, stopped⟩ := TreeBuilder.exists_unfinished incomplete mark after free
    exact ⟨position, Node.ofEvents?_of_unfinished stopped⟩
  · intro events free root n m parsed reached below
    exact Node.apart_of_ofEvents? parsed n m reached below

section Shared

open Yaml (Tree)

def start : Mark := {}

def quoted (anchor : Nat) (text : String) : Tree :=
  .scalar start anchor none text .doubleQuoted

/-- A mapping with a shared key, a shared sequence that is merged, and a tag of its own. -/
def shared : Tree := .mapping start 3 (some ⟨"!", "pets"⟩)
  [(quoted 1 "a", .sequence start 2 none [.aliasTo start 1, quoted 0 "b"] start),
    (quoted 0 "<<", .aliasTo start 2)] start

/-- A mapping that has itself as the value of a key. -/
def endless : List Event :=
  [⟨start, .mappingStart 1 none⟩, ⟨start, .scalar "a" .doubleQuoted 0 none⟩]

def small : Tree := .mapping start 0 none [(quoted 0 "a", quoted 0 "b")] start

def smallKey : Node := .scalar { id := ⟨1⟩, tag := CoreTag.str, position := ⟨1, 1⟩ } "a"

def smallNode : Node := .mapping { id := ⟨3⟩, tag := CoreTag.map, position := ⟨1, 1⟩ }
  [(smallKey, .scalar { id := ⟨2⟩, tag := CoreTag.str, position := ⟨1, 1⟩ } "b")]

theorem built_from_events_shared :
    (shared.WellFormed ∧ ∃ table n later,
      (TreeBuilder.run shared.events).run ⟨1⟩ = ({ anchors := table, root := some n }, later) ∧
      Describes (table.lookup ·) false shared n) ∧
    (¬ Completes 1 endless ∧ ∃ position,
      ((Node.ofEvents? (endless ++ ⟨start, .aliasTo 1⟩ :: [⟨start, .mappingEnd⟩])).run ⟨1⟩).1 =
        .error (.unfinishedAlias position)) ∧
    (((Node.ofEvents? small.events).run ⟨1⟩).1 = .ok smallNode ∧ smallNode.Edge smallKey ∧
      smallKey.id ≠ smallNode.id) := by
  obtain ⟨built, stopped, distinct⟩ := built_from_events
  refine ⟨?_, ?_, ?_⟩
  · have wellFormed : shared.WellFormed := by
      constructor
      · decide
      · decide
      · decide
    exact ⟨wellFormed, built shared ⟨1⟩ wellFormed⟩
  · have incomplete : ¬ Completes 1 endless := by
      intro completes
      obtain ⟨e, member, closes | ⟨text, style, tag, scalar⟩⟩ := completes.exists_mem
      · have none : ∀ e ∈ endless, e.kind.closes = false := by decide
        rw [none e member] at closes
        cases closes
      · obtain rfl | rfl : e = ⟨start, .mappingStart 1 none⟩ ∨
            e = ⟨start, .scalar "a" .doubleQuoted 0 none⟩ := by simpa [endless] using member
        · cases scalar
        · cases scalar
    exact ⟨incomplete, stopped endless [⟨start, .mappingEnd⟩] start 1 ⟨1⟩ incomplete⟩
  · have parsed : ((Node.ofEvents? small.events).run ⟨1⟩).1 = .ok smallNode := rfl
    have edge : smallNode.Edge smallKey := .inl (by simp [smallNode, Node.children])
    exact ⟨parsed, edge, distinct _ _ _ _ _ parsed (.refl _) (.single edge)⟩

end Shared

end DocRefs
