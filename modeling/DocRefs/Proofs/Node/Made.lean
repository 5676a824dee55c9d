import DocRefs.Node.OfEvents
import DocRefs.Node.OfValue
import DocRefs.Proofs.Node.Identity

/-!
# Trees that are converted or parsed

The conversion of a value and the parser make nodes by the constructors alone, so identities tell
their nodes apart from each other and from all others (`identifies_ofValue`, `identifies_parse?`).
A tree that comes from events never has one identity at a node and below it
(`apart_of_ofEvents?`).
-/
namespace DocRefs

open Node (Within within_append within_cons)
open Build (Identifies Makes Describes)

variable {held : List Node}

/-! ### Values -/

namespace Node

theorem within_pairs {n : Node} (within : Within held n) :
    ∀ pair ∈ n.pairs, Within held pair.1 ∧ Within held pair.2 := by
  intro pair member
  cases n with
  | mapping info pairs =>
    exact ⟨within.reaches (reaches_key member), within.reaches (reaches_value member)⟩
  | _ => cases member

theorem identifies_underTag {n : Node} (within : Within held n) (tag : String) :
    Identifies held (fun n => [n]) (n.underTag tag) := by
  apply Makes.identifies
  cases n with
  | scalar info text => exact Build.makes_tagged text tag
  | sequence info items =>
    have parts : ∀ item ∈ items, Within held item := fun item member =>
      within.reaches (reaches_item member)
    exact (Build.makes_sequence parts).map (Build.describes_retagged tag)
  | mapping info pairs =>
    exact (Build.makes_mapping (within_pairs within)).map (Build.describes_retagged tag)
  | document info root =>
    exact (Build.makes_mapping (within_pairs within)).map (Build.describes_retagged tag)
  | aliasTo info target =>
    exact (Build.makes_mapping (within_pairs within)).map (Build.describes_retagged tag)

mutual

theorem identifies_ofValue (held : List Node) :
    (v : Yaml.Value) → Identifies held (fun n => [n]) (ofValue v)
  | .null => (Build.makes_tagged _ _).identifies
  | .bool b => (Build.makes_tagged _ _).identifies
  | .integer n => (Build.makes_tagged _ _).identifies
  | .float x => (Build.makes_tagged _ _).identifies
  | .string text => (Build.makes_tagged _ _).identifies
  | .sequence items => by
    rw [ofValue]
    apply (identifies_ofValues held items).bind
    intro nodes
    apply Makes.identifies
    apply Build.makes_sequence
    exact fun n member => .of_mem (List.mem_append_left _ member)
  | .mapping entries => by
    rw [ofValue]
    apply (identifies_ofEntries held entries).bind
    intro pairs
    apply Makes.identifies
    apply Build.makes_mapping
    intro pair member
    constructor
    · exact .of_mem (List.mem_append_left _ (List.mem_flatMap.mpr ⟨pair, member, by simp⟩))
    · exact .of_mem (List.mem_append_left _ (List.mem_flatMap.mpr ⟨pair, member, by simp⟩))
  | .tagged tag value => by
    rw [ofValue]
    apply (identifies_ofValue held value).bind
    intro n
    exact identifies_underTag (.of_mem (by simp)) _

theorem identifies_ofValues (held : List Node) :
    (vs : List Yaml.Value) → Identifies held (fun ns => ns) (ofValues vs)
  | [] => Build.identifies_pure (by simp)
  | value :: rest => by
    rw [ofValues]
    apply (identifies_ofValue held value).bind
    intro n
    apply (identifies_ofValues _ rest).bind
    intro ns
    apply Build.identifies_pure
    intro m member
    apply Within.of_mem
    obtain rfl | later := List.mem_cons.mp member
    · simp
    · exact List.mem_append_left _ later

theorem identifies_ofEntries (held : List Node) :
    (entries : List (Yaml.Value × Yaml.Value)) →
      Identifies held (fun pairs => pairs.flatMap fun pair => [pair.1, pair.2]) (ofEntries entries)
  | [] => Build.identifies_pure (by simp)
  | (key, value) :: rest => by
    rw [ofEntries]
    apply (identifies_ofValue held key).bind
    intro first
    apply (identifies_ofValue _ value).bind
    intro second
    apply (identifies_ofEntries _ rest).bind
    intro pairs
    apply Build.identifies_pure
    intro m member
    apply Within.of_mem
    rw [List.flatMap_cons] at member
    obtain here | later := List.mem_append.mp member
    · obtain rfl | rfl : m = first ∨ m = second := by simpa using here
      · simp
      · simp
    · exact List.mem_append_left _ later

end

end Node

/-! ### Events -/

namespace TreeBuilder

variable {b : TreeBuilder}

/-- The nodes that a builder holds. -/
def nodes (b : TreeBuilder) : List Node :=
  b.stack.flatMap (·.children) ++ (b.anchors.map (·.2) ++ b.root.toList)

/-- The node under the name of its anchor, if it has one. -/
def named (anchor : Nat) (n : Node) : Node :=
  if anchor = 0 then n else n.anchored (anchorName anchor)

theorem describes_named (anchor : Nat) : Describes (named anchor) := by
  intro n
  unfold named
  split
  · exact ⟨rfl, rfl⟩
  · exact Build.describes_anchored _ n

theorem mem_nodes_attach {n m : Node} (member : m ∈ (b.attach n).nodes) : m = n ∨ m ∈ b.nodes := by
  obtain ⟨stack, anchors, root, unfinished⟩ := b
  cases stack with
  | cons top outer =>
    simpa [attach, nodes, or_assoc] using member
  | nil =>
    cases root with
    | none => simpa [attach, nodes, or_comm] using member
    | some first => exact .inr (by simpa [attach, nodes] using member)

theorem mem_nodes_finish {n m : Node} {anchor : Nat} (member : m ∈ (b.finish n anchor).nodes) :
    m = named anchor n ∨ m ∈ b.nodes := by
  unfold finish at member
  unfold named
  split at member
  · rename_i zero
    rw [if_pos zero]
    exact mem_nodes_attach member
  · rename_i labelled
    rw [if_neg labelled]
    -- The node is in the table and attached; the table was part of what is held.
    obtain same | before := mem_nodes_attach member
    · exact .inl same
    · simp only [nodes, List.map_cons, List.cons_append, List.mem_append, List.mem_cons] at before ⊢
      tauto

/-- A builder that makes a node and finishes it. -/
theorem identifies_finish {make : Build Node} {f : Node → Node} (makes : Makes held make)
    (describes : Describes f) (present : ∀ n ∈ b.nodes, Within held n) (anchor : Nat) :
    Identifies held nodes (make >>= fun n => pure (b.finish (f n) anchor)) := by
  have labelled : Describes fun n => named anchor (f n) := by
    intro n
    obtain ⟨id, parts⟩ := describes_named anchor (f n)
    exact ⟨id.trans (describes n).1, parts.trans (describes n).2⟩
  intro free known
  apply ((makes.map labelled).identifies free known).mono
  intro m member
  obtain finished | there := List.mem_append.mp member
  · obtain rfl | before := mem_nodes_finish finished
    · exact .of_mem (List.mem_cons_self ..)
    · exact (present m before).mono (List.subset_append_right ..)
  · exact .of_mem (List.mem_append_right _ there)

theorem mem_of_mem_pairUp {ns : List Node} {pair : Node × Node} (member : pair ∈ pairUp ns) :
    pair.1 ∈ ns ∧ pair.2 ∈ ns := by
  fun_induction pairUp ns with
  | case1 key value rest ih =>
    obtain rfl | later := List.mem_cons.mp member
    · simp
    · obtain ⟨first, second⟩ := ih later
      simp [first, second]
  | case2 => cases member

/-- The tag that is written, if there is one. -/
def tagged (tag : Option Yaml.Tag) (n : Node) : Node :=
  match tag with
  | some tag => n.retagged tag.name
  | none => n

/-- The node of a collection with these children. -/
def collected (children : List Node) : Collection → Build Node
  | .sequence => Build.sequence children
  | .mapping => Build.mapping (pairUp children)

theorem close_cons {top : OpenNode} {outer : List OpenNode} (stacked : b.stack = top :: outer) :
    b.close = collected top.children.reverse top.collection >>= fun n =>
      pure ({ b with stack := outer }.finish (tagged top.tag (n.place top.position))
        top.anchor) := by
  obtain ⟨stack, anchors, root, unfinished⟩ := b
  obtain ⟨collection, anchor, tag, position, children⟩ := top
  subst stacked
  cases collection <;> cases tag <;> rfl

theorem makes_collected {children : List Node} (within : ∀ n ∈ children, Within held n)
    (collection : Collection) : Makes held (collected children collection) := by
  cases collection with
  | sequence => exact Build.makes_sequence within
  | mapping =>
    apply Build.makes_mapping
    intro pair member
    obtain ⟨ofKey, ofValue⟩ := mem_of_mem_pairUp member
    exact ⟨within _ ofKey, within _ ofValue⟩

theorem identifies_close (present : ∀ n ∈ b.nodes, Within held n) :
    Identifies held nodes b.close := by
  cases stack : b.stack with
  | nil =>
    rw [close, stack]
    exact Build.identifies_pure present
  | cons top outer =>
    have listed : b.nodes = top.children ++ nodes { b with stack := outer } := by
      simp [nodes, stack]
    have children : ∀ n ∈ top.children.reverse, Within held n := by
      intro n member
      apply present
      rw [listed]
      exact List.mem_append_left _ (List.mem_reverse.mp member)
    have describes : Describes fun n => tagged top.tag (n.place top.position) := by
      intro n
      obtain ⟨id, parts⟩ := Build.describes_place top.position n
      unfold tagged
      cases top.tag with
      | none => exact ⟨id, parts⟩
      | some tag =>
        obtain ⟨idToo, partsToo⟩ := Build.describes_retagged tag.name (n.place top.position)
        exact ⟨idToo.trans id, partsToo.trans parts⟩
    rw [close_cons stack]
    apply identifies_finish (makes_collected children top.collection) describes
    intro n member
    apply present
    rw [listed]
    exact List.mem_append_right _ member

theorem makes_scalarNode (text : String) (style : Yaml.ScalarStyle) (tag : Option Yaml.Tag) :
    Makes held (scalarNode text style tag) := by
  unfold scalarNode
  split
  · exact Build.makes_tagged _ _
  · exact Build.makes_tagged _ _
  · exact Build.makes_tagged _ _

theorem identifies_event (present : ∀ n ∈ b.nodes, Within held n) (e : Yaml.Event) :
    Identifies held nodes (b.event e) := by
  have unchanged : Identifies held nodes (pure b) := Build.identifies_pure present
  unfold event
  split
  · exact unchanged
  cases e.kind with
  | scalar text style anchor tag =>
    exact identifies_finish (makes_scalarNode text style tag) (Build.describes_place _) present
      anchor
  | aliasTo anchor =>
    cases found : b.anchors.lookup anchor with
    | none =>
      simp only [found]
      exact Build.identifies_pure present
    | some target =>
      -- The target of an alias comes from the table.
      have within : Within held target := by
        apply present
        obtain ⟨front, rest, listed, _⟩ := List.lookup_eq_some_iff.mp found
        simp [nodes, listed]
      simp only [found]
      exact identifies_finish (Build.makes_aliasTo within) (Build.describes_place _) present 0
  | sequenceStart anchor tag => exact Build.identifies_pure present
  | mappingStart anchor tag => exact Build.identifies_pure present
  | sequenceEnd => exact identifies_close present
  | mappingEnd => exact identifies_close present

theorem identifies_foldlM (present : ∀ n ∈ b.nodes, Within held n) (events : List Yaml.Event) :
    Identifies held nodes (events.foldlM event b) := by
  -- After an event the builder holds only what was made or was held.
  induction events generalizing b held with
  | nil => exact Build.identifies_pure present
  | cons e rest ih =>
    rw [List.foldlM_cons]
    apply (identifies_event present e).bind
    intro after
    apply ih
    exact fun n member => .of_mem (List.mem_append_left _ member)

end TreeBuilder

namespace Node

/-- The tree of an outcome, if there is one. -/
def outcome {ε : Type} : Except ε Node → List Node
  | .ok root => [root]
  | .error _ => []

theorem identifies_ofEvents? (held : List Node) (events : List Yaml.Event) :
    Identifies held outcome (ofEvents? events) := by
  unfold ofEvents?
  apply (TreeBuilder.identifies_foldlM (by simp [TreeBuilder.nodes]) events).bind
  intro built
  cases built.unfinished with
  | some position => exact Build.identifies_pure (by simp [outcome])
  | none =>
    cases root : built.root with
    | none =>
      apply (Build.makes_mapping (by simp)).identifies.bind
      intro n
      exact Build.identifies_pure fun m member => .of_mem (List.mem_append_left _ member)
    | some n =>
      dsimp only
      split
      · apply Build.identifies_pure
        intro m member
        obtain rfl := List.mem_singleton.mp member
        exact .of_mem (by simp [TreeBuilder.nodes, root])
      · exact Build.identifies_pure (by simp [outcome])

/-- No tree that comes from events contains itself. -/
theorem apart_of_ofEvents? {events : List Yaml.Event} {free : NodeId} {root : Node}
    (parsed : ((ofEvents? events).run free).1 = .ok root) : root.Apart := by
  have grown := identifies_ofEvents? [] events free (.nil free)
  rw [parsed] at grown
  apply grown.identified.apart
  exact .of_mem (by simp [outcome])

theorem identifies_parse? (held : List Node) (text : String) :
    Identifies held outcome (parse? text) := by
  unfold parse?
  cases Yaml.events text with
  | error fault => exact Build.identifies_pure (by simp [outcome])
  | ok events => exact identifies_ofEvents? held _

end Node

end DocRefs
