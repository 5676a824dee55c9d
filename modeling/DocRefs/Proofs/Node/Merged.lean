import DocRefs.Extract.Decoded
import DocRefs.Proofs.Node.Equivalent
import DocRefs.Proofs.Resolve.Walk

/-!
# What merge keys bring in

A merge key is replaced by pairs of its sources. Looking a key up in the result finds it in the
mapping itself if it is written there, and otherwise in the first of all sources that has it
(`find?_splice`), and what is brought in stands where the merge key stood (`splice_append`). Main
result: `effectivePairs_merged`.
-/
namespace DocRefs.Node

/-! ### Sources -/

/-- The mappings that are the value of a merge key, one or the items of a sequence. -/
def mergeSources (value : Node) : List Node :=
  if value.resolveAlias.isMapping then [value.resolveAlias]
  else (value.resolveAlias.items.map resolveAlias).filter (·.isMapping)

/-- The sources of all merge keys, in document order. -/
def sourcesIn (pairs : List (Node × Node)) : List Node :=
  (pairs.filter (·.1.isMergeKey)).flatMap (·.2.mergeSources)

/-- The value stands, behind no more aliases than are followed, for one mapping or for a sequence of
them, each of which may stand behind as many. -/
inductive MergesFrom : Node → List Node → Prop
  | mapping {value : Node} (short : value.aliasChain ≤ aliasHops)
    (mapping : value.behind.isMapping = true) : MergesFrom value [value.behind]
  | sequence {value : Node} {info : NodeInfo} {items : List Node}
    (short : value.aliasChain ≤ aliasHops) (sequence : value.behind = .sequence info items)
    (each : ∀ item ∈ items, item.aliasChain ≤ aliasHops ∧ item.behind.isMapping = true) :
    MergesFrom value (items.map behind)

theorem MergesFrom.mergeSources_eq {value : Node} {sources : List Node}
    (merges : MergesFrom value sources) : value.mergeSources = sources := by
  cases merges with
  | mapping short mapping =>
    rw [mergeSources, resolveAlias, follow_eq_behind short, if_pos mapping]
  | @sequence info items short sequence each =>
    have resolved : items.map resolveAlias = items.map behind :=
      List.map_congr_left fun item member => follow_eq_behind (each item member).1
    have all : (items.map behind).filter (·.isMapping) = items.map behind := by
      simpa [List.filter_eq_self] using fun item member => (each item member).2
    have other : ¬ (Node.sequence info items).isMapping = true := by simp [isMapping, kind]
    rw [mergeSources, resolveAlias, follow_eq_behind short, sequence, if_neg other]
    exact (congrArg (List.filter (·.isMapping)) resolved).trans all

theorem effectivePairs_of_not_mapping {n : Node} (other : n.isMapping = false) :
    n.effectivePairs = [] := by
  cases n with
  | mapping info pairs => simp [isMapping, kind] at other
  | _ => rfl

theorem effectivePairs_eq_splice (n : Node) :
    n.effectivePairs = splice (ownKeys n.pairs) n.pairs := by
  cases n <;> rfl

theorem mappingPairs_eq (hops : Nat) (n : Node) :
    mappingPairs hops n = (follow hops n).effectivePairs := by
  induction hops generalizing n with
  | zero => rw [follow_zero, effectivePairs]
  | succ hops ih =>
    cases n with
    | aliasTo info target => exact ih target
    | _ => rfl

theorem itemPairs_eq (items : List Node) :
    itemPairs items =
      ((items.map resolveAlias).filter (·.isMapping)).flatMap effectivePairs := by
  induction items with
  | nil => rfl
  | cons item rest ih =>
    rw [itemPairs, ih, mappingPairs_eq, List.map_cons, ← resolveAlias]
    cases shape : item.resolveAlias.isMapping with
    | true => rw [List.filter_cons_of_pos shape, List.flatMap_cons]
    | false =>
      rw [List.filter_cons_of_neg (by simp [shape]), effectivePairs_of_not_mapping shape,
        List.nil_append]

theorem sourcePairs_eq (value : Node) :
    sourcePairs aliasHops value = value.mergeSources.flatMap effectivePairs := by
  -- With the aliases followed, the cases are those of a node that is none.
  have followed (hops : Nat) (n : Node) : sourcePairs hops n = sourcePairs 0 (follow hops n) := by
    induction hops generalizing n with
    | zero => rw [follow_zero]
    | succ hops ih =>
      cases n with
      | aliasTo info target => exact ih target
      | _ => rfl
  rw [followed, mergeSources, resolveAlias]
  cases follow aliasHops value with
  | mapping info pairs => simp [isMapping, kind, sourcePairs, effectivePairs, mappingPairs]
  | sequence info items => simp [isMapping, kind, sourcePairs, Node.items, itemPairs_eq]
  | _ => rfl

/-! ### Keys that are new -/

/-- The first pair with this key. -/
def firstFor? (key : String) (pairs : List (Node × Node)) : Option (Node × Node) :=
  pairs.find? (·.1.text = key)

theorem firstFor?_cons_of_eq {key : String} {pair : Node × Node} (here : pair.1.text = key)
    (rest : List (Node × Node)) : firstFor? key (pair :: rest) = some pair :=
  List.find?_cons_of_pos (by simpa using here)

theorem firstFor?_cons_of_ne {key : String} {pair : Node × Node} (other : pair.1.text ≠ key)
    (rest : List (Node × Node)) : firstFor? key (pair :: rest) = firstFor? key rest :=
  List.find?_cons_of_neg (by simpa using other)

theorem firstFor?_append (key : String) (front back : List (Node × Node)) :
    firstFor? key (front ++ back) = (firstFor? key front).or (firstFor? key back) :=
  List.find?_append

theorem isSome_firstFor?_iff {key : String} {pairs : List (Node × Node)} :
    (firstFor? key pairs).isSome = true ↔ key ∈ pairs.map (·.1.text) := by
  simp [firstFor?]

theorem newPairs_sublist (taken : List String) (pairs : List (Node × Node)) :
    (newPairs taken pairs).Sublist pairs := by
  induction pairs generalizing taken with
  | nil => exact .slnil
  | cons pair rest ih =>
    rw [newPairs]
    split
    · exact (ih taken).cons pair
    · exact (ih _).cons_cons pair

/-- A key that is not taken is found where it was. -/
theorem firstFor?_newPairs (key : String) (taken : List String) (pairs : List (Node × Node)) :
    firstFor? key (newPairs taken pairs) =
      if key ∈ taken then none else firstFor? key pairs := by
  induction pairs generalizing taken with
  | nil => simp [newPairs, firstFor?]
  | cons pair rest ih =>
    rw [newPairs]
    by_cases here : pair.1.text = key
    · rw [firstFor?_cons_of_eq here, here]
      split
      next old =>
        have old : key ∈ taken := by simpa using old
        rw [ih, if_pos old, if_pos old]
      next new => rw [firstFor?_cons_of_eq here, if_neg (by simpa using new)]
    · rw [firstFor?_cons_of_ne here]
      split
      · exact ih taken
      · rw [firstFor?_cons_of_ne here, ih]
        simp only [List.mem_cons, Ne.symm here, false_or]

theorem mem_keys_newPairs_iff {key : String} {taken : List String} {pairs : List (Node × Node)} :
    key ∈ (newPairs taken pairs).map (·.1.text) ↔
      key ∉ taken ∧ key ∈ pairs.map (·.1.text) := by
  rw [← isSome_firstFor?_iff, firstFor?_newPairs, ← isSome_firstFor?_iff]
  split <;> simp [*]

theorem nodup_keys_newPairs (taken : List String) (pairs : List (Node × Node)) :
    ((newPairs taken pairs).map (·.1.text)).Nodup := by
  induction pairs generalizing taken with
  | nil => exact .nil
  | cons pair rest ih =>
    rw [newPairs]
    split
    · exact ih taken
    · refine List.nodup_cons.mpr ⟨fun again => ?_, ih _⟩
      exact (mem_keys_newPairs_iff.mp again).1 List.mem_cons_self

/-! ### Replacing merge keys -/

/-- The pairs that are written in the mapping and are not merge keys. -/
def ownPairs (pairs : List (Node × Node)) : List (Node × Node) :=
  pairs.filter (!·.1.isMergeKey)

/-- The key is among those of the mapping with its merge keys replaced. -/
def Offers (source : Node) (key : String) : Prop := key ∈ source.effectivePairs.map (·.1.text)

theorem mem_keys_sourcePairs_iff {key : String} {value : Node} :
    key ∈ (sourcePairs aliasHops value).map (·.1.text) ↔
      ∃ source ∈ value.mergeSources, source.Offers key := by
  simp only [sourcePairs_eq, List.map_flatMap, List.mem_flatMap, Offers]

section

variable {pair : Node × Node} {taken : List String} {rest : List (Node × Node)}

theorem splice_of_merge (merges : pair.1.isMergeKey = true) :
    splice taken (pair :: rest) =
      newPairs taken (sourcePairs aliasHops pair.2) ++
        splice ((newPairs taken (sourcePairs aliasHops pair.2)).map (·.1.text) ++ taken) rest := by
  rw [splice, if_pos merges]

theorem splice_of_own (plain : pair.1.isMergeKey = false) :
    splice taken (pair :: rest) = pair :: splice taken rest := by
  rw [splice, if_neg (by simp [plain])]

theorem ownPairs_of_merge (merges : pair.1.isMergeKey = true) :
    ownPairs (pair :: rest) = ownPairs rest :=
  List.filter_cons_of_neg (by simp [merges])

theorem ownPairs_of_own (plain : pair.1.isMergeKey = false) :
    ownPairs (pair :: rest) = pair :: ownPairs rest :=
  List.filter_cons_of_pos (by simp [plain])

theorem sourcesIn_of_merge (merges : pair.1.isMergeKey = true) :
    sourcesIn (pair :: rest) = pair.2.mergeSources ++ sourcesIn rest := by
  simp only [sourcesIn, List.filter_cons, merges, if_true, List.flatMap_cons]

theorem sourcesIn_of_own (plain : pair.1.isMergeKey = false) :
    sourcesIn (pair :: rest) = sourcesIn rest := by
  simp only [sourcesIn, List.filter_cons, plain, Bool.false_eq_true, if_false]

end

theorem ownKeys_eq (pairs : List (Node × Node)) :
    ownKeys pairs = (ownPairs pairs).map (·.1.text) := rfl

/-- Every pair is the mapping's own or one of a source. -/
theorem mem_splice {pair : Node × Node} {taken : List String} {pairs : List (Node × Node)}
    (member : pair ∈ splice taken pairs) :
    pair ∈ ownPairs pairs ∨ ∃ source ∈ sourcesIn pairs, pair ∈ source.effectivePairs := by
  induction pairs generalizing taken with
  | nil => simp [splice] at member
  | cons first rest ih =>
    cases merges : first.1.isMergeKey with
    | true =>
      rw [splice_of_merge merges] at member
      rw [ownPairs_of_merge merges, sourcesIn_of_merge merges]
      rcases List.mem_append.mp member with here | later
      · have from_source := mem_of_mem_newPairs here
        rw [sourcePairs_eq, List.mem_flatMap] at from_source
        obtain ⟨source, among, pair_there⟩ := from_source
        exact .inr ⟨source, List.mem_append_left _ among, pair_there⟩
      · refine (ih later).imp_right ?_
        rintro ⟨source, among, pair_there⟩
        exact ⟨source, List.mem_append_right _ among, pair_there⟩
    | false =>
      rw [splice_of_own merges] at member
      rw [ownPairs_of_own merges, sourcesIn_of_own merges]
      rcases List.mem_cons.mp member with rfl | later
      · exact .inl List.mem_cons_self
      · exact (ih later).imp_left (List.mem_cons_of_mem _)

theorem sizeOf_le_of_mem_mergeSources {value source : Node} (member : source ∈ value.mergeSources) :
    sizeOf source ≤ sizeOf value := by
  have whole := sizeOf_follow_le aliasHops value
  rw [mergeSources, resolveAlias] at member
  split at member
  · rw [List.mem_singleton.mp member]
    exact whole
  · obtain ⟨item, among, rfl⟩ := List.mem_map.mp (List.mem_filter.mp member).1
    have item_le := sizeOf_follow_le aliasHops item
    cases resolved : follow aliasHops value with
    | sequence info items =>
      rw [resolved] at among whole
      have smaller := List.sizeOf_lt_of_mem among
      simp only [sequence.sizeOf_spec, Node.items] at whole smaller
      rw [resolveAlias]
      omega
    | _ => simp [resolved, Node.items] at among

theorem sizeOf_lt_of_mem_sourcesIn {n source : Node} (member : source ∈ sourcesIn n.pairs) :
    sizeOf source < sizeOf n := by
  obtain ⟨pair, among, source_there⟩ := List.mem_flatMap.mp member
  have source_le := sizeOf_le_of_mem_mergeSources source_there
  have pair_there := (List.mem_filter.mp among).1
  cases n with
  | mapping info pairs =>
    have pair_among : pair ∈ pairs := pair_there
    have pair_lt := List.sizeOf_lt_of_mem pair_among
    obtain ⟨key, value⟩ := pair
    simp only [Prod.mk.sizeOf_spec, mapping.sizeOf_spec] at pair_lt source_le ⊢
    omega
  -- Nothing else has pairs.
  | _ => simp [pairs] at pair_there

/-- However deep the sources are nested, no merge key is left. -/
theorem isMergeKey_of_mem_effectivePairs (n : Node) {pair : Node × Node}
    (member : pair ∈ n.effectivePairs) : pair.1.isMergeKey = false := by
  rw [effectivePairs_eq_splice] at member
  -- Sources are parts of the node, so they have no merge keys left themselves.
  rcases mem_splice member with own | ⟨source, among, pair_there⟩
  · simpa using (List.mem_filter.mp own).2
  · exact isMergeKey_of_mem_effectivePairs source pair_there
termination_by sizeOf n
decreasing_by exact sizeOf_lt_of_mem_sourcesIn among

/-- A key that is not the mapping's own is found, unless it is taken, in the first source that has
it. -/
theorem firstFor?_splice {key : String} {pairs : List (Node × Node)} (other : key ∉ ownKeys pairs)
    (taken : List String) :
    firstFor? key (splice taken pairs) =
      if key ∈ taken then none
      else (sourcesIn pairs).findSome? fun source => firstFor? key source.effectivePairs := by
  induction pairs generalizing taken with
  | nil => simp [splice, sourcesIn, firstFor?]
  | cons first rest ih =>
    cases merges : first.1.isMergeKey with
    | true =>
      have sources : firstFor? key (sourcePairs aliasHops first.2) =
          first.2.mergeSources.findSome? fun source => firstFor? key source.effectivePairs := by
        rw [sourcePairs_eq]
        exact List.find?_flatMap
      rw [ownKeys_eq, ownPairs_of_merge merges] at other
      rw [splice_of_merge merges, firstFor?_append, ih other, firstFor?_newPairs,
        sourcesIn_of_merge merges, List.findSome?_append, ← sources]
      have taken_next : key ∈ (newPairs taken (sourcePairs aliasHops first.2)).map (·.1.text) ++
          taken ↔ (firstFor? key (sourcePairs aliasHops first.2)).isSome = true ∨ key ∈ taken := by
        rw [List.mem_append, mem_keys_newPairs_iff, isSome_firstFor?_iff]
        tauto
      simp only [taken_next]
      -- What is found here is taken afterwards.
      by_cases old : key ∈ taken
      · simp [old]
      · cases firstFor? key (sourcePairs aliasHops first.2) <;> simp [old]
    | false =>
      rw [ownKeys_eq, ownPairs_of_own merges, List.map_cons, List.mem_cons, not_or] at other
      rw [splice_of_own merges, firstFor?_cons_of_ne (Ne.symm other.1), ih other.2,
        sourcesIn_of_own merges]

theorem isSome_findSome?_iff {key : String} {sources : List Node} :
    (sources.findSome? fun source => firstFor? key source.effectivePairs).isSome = true ↔
      ∃ source ∈ sources, source.Offers key := by
  simp only [List.isSome_findSome?, List.any_eq_true, isSome_firstFor?_iff, Offers]

/-- The keys that are not the mapping's own are those of the sources. -/
theorem mem_keys_splice_iff {key : String} {pairs : List (Node × Node)}
    (other : key ∉ ownKeys pairs) (taken : List String) :
    key ∈ (splice taken pairs).map (·.1.text) ↔
      key ∉ taken ∧ ∃ source ∈ sourcesIn pairs, source.Offers key := by
  rw [← isSome_firstFor?_iff, firstFor?_splice other, ← isSome_findSome?_iff]
  split <;> simp [*]

section

variable {own taken : List String} {pairs : List (Node × Node)}
  (all : ownKeys pairs ⊆ own) (old : own ⊆ taken)

include all old

theorem filter_own_splice :
    (splice taken pairs).filter (·.1.text ∈ own) = ownPairs pairs := by
  induction pairs generalizing taken with
  | nil => rfl
  | cons first rest ih =>
    cases merges : first.1.isMergeKey with
    | true =>
      rw [ownKeys_eq, ownPairs_of_merge merges] at all
      -- What is brought in has none of the keys.
      have none_own : (newPairs taken (sourcePairs aliasHops first.2)).filter (·.1.text ∈ own) =
          [] := by
        rw [List.filter_eq_nil_iff]
        intro pair member
        have fresh := (mem_keys_newPairs_iff.mp (List.mem_map_of_mem member)).1
        simpa using fun among => fresh (old among)
      rw [splice_of_merge merges, List.filter_append, none_own, List.nil_append,
        ownPairs_of_merge merges]
      exact ih all fun key among => List.mem_append_right _ (old among)
    | false =>
      rw [ownKeys_eq, ownPairs_of_own merges, List.map_cons, List.cons_subset] at all
      rw [splice_of_own merges, List.filter_cons_of_pos (by simpa using all.1), ih all.2 old,
        ownPairs_of_own merges]

theorem nodup_other_splice :
    (((splice taken pairs).filter (·.1.text ∉ own)).map (·.1.text)).Nodup := by
  induction pairs generalizing taken with
  | nil => exact .nil
  | cons first rest ih =>
    cases merges : first.1.isMergeKey with
    | true =>
      rw [ownKeys_eq, ownPairs_of_merge merges] at all
      rw [splice_of_merge merges, List.filter_append, List.map_append]
      refine List.nodup_append.mpr ⟨?_, ?_, ?_⟩
      · exact (nodup_keys_newPairs _ _).sublist (List.filter_sublist.map _)
      · exact ih all fun key among => List.mem_append_right _ (old among)
      · -- A key that is brought in here is not brought in again.
        intro key here again later same
        subst same
        have here := (List.filter_sublist.map _).subset here
        obtain ⟨pair, pair_there, rfl⟩ := List.mem_map.mp later
        obtain ⟨among, other⟩ := List.mem_filter.mp pair_there
        have other_rest : pair.1.text ∉ ownKeys rest := fun written =>
          absurd (all written) (by simpa using other)
        have fresh := (mem_keys_splice_iff other_rest _).mp (List.mem_map_of_mem among)
        exact fresh.1 (List.mem_append_left _ here)
    | false =>
      rw [ownKeys_eq, ownPairs_of_own merges, List.map_cons, List.cons_subset] at all
      rw [splice_of_own merges, List.filter_cons_of_neg (by simpa using all.1)]
      exact ih all.2 old

end

/-- What stands in front is replaced first, and its sources' keys are then taken. -/
theorem splice_append (taken : List String) (before after : List (Node × Node)) :
    ∃ more, splice taken (before ++ after) = splice taken before ++ splice (more ++ taken) after ∧
      ∀ key, key ∈ more ↔ key ∉ taken ∧ ∃ source ∈ sourcesIn before, source.Offers key := by
  induction before generalizing taken with
  | nil => exact ⟨[], rfl, by simp [sourcesIn]⟩
  | cons first rest ih =>
    cases merges : first.1.isMergeKey with
    | true =>
      obtain ⟨more, spliced, keys⟩ :=
        ih ((newPairs taken (sourcePairs aliasHops first.2)).map (·.1.text) ++ taken)
      refine ⟨more ++ (newPairs taken (sourcePairs aliasHops first.2)).map (·.1.text), ?_, ?_⟩
      · rw [List.cons_append, splice_of_merge merges, splice_of_merge merges, spliced,
          List.append_assoc, List.append_assoc]
      · intro key
        rw [List.mem_append, keys, List.mem_append, mem_keys_newPairs_iff,
          mem_keys_sourcePairs_iff, sourcesIn_of_merge merges]
        simp only [List.mem_append, or_and_right, exists_or]
        -- A key of this merge key's sources is taken here or was taken before.
        generalize (∃ source, source ∈ first.2.mergeSources ∧ source.Offers key) = here
        generalize (∃ source, source ∈ sourcesIn rest ∧ source.Offers key) = later
        by_cases old : key ∈ taken <;> by_cases offered : here <;> simp [old, offered]
    | false =>
      obtain ⟨more, spliced, keys⟩ := ih taken
      refine ⟨more, ?_, ?_⟩
      · rw [List.cons_append, splice_of_own merges, splice_of_own merges, spliced, List.cons_append]
      · rwa [sourcesIn_of_own merges]

/-! ### The whole mapping -/

/-- Where a merge key stands, between pairs that were before it and pairs that were after it, there
is what it brings in: the pairs of its sources whose keys neither are the mapping's own nor come
from an earlier merge key, in the order of the sources. -/
structure BroughtIn (own : List String) (before : List (Node × Node)) (value : Node)
    (after front brought back : List (Node × Node)) : Prop where
  front_own : front.filter (·.1.text ∈ own) = ownPairs before
  back_own : back.filter (·.1.text ∈ own) = ownPairs after
  front_keys (key : String) (other : key ∉ own) :
    key ∈ front.map (·.1.text) ↔ ∃ source ∈ sourcesIn before, source.Offers key
  brought_keys (key : String) : key ∈ brought.map (·.1.text) ↔
    key ∉ own ∧ (∀ source ∈ sourcesIn before, ¬ source.Offers key) ∧
      ∃ source ∈ value.mergeSources, source.Offers key
  brought_order : brought.Sublist (value.mergeSources.flatMap effectivePairs)

/-- What the pairs of a mapping become when its merge keys are replaced. -/
structure Merged (pairs result : List (Node × Node)) : Prop where
  /-- No merge key is left. -/
  plain : ∀ pair ∈ result, pair.1.isMergeKey = false
  /-- The pairs with the mapping's own keys are its own pairs, in their order. -/
  own : result.filter (·.1.text ∈ ownKeys pairs) = ownPairs pairs
  /-- Every other key is there once. -/
  once : ((result.filter (·.1.text ∉ ownKeys pairs)).map (·.1.text)).Nodup
  /-- Another key is there exactly if a source has it. -/
  occurs (key : String) (other : key ∉ ownKeys pairs) :
    key ∈ result.map (·.1.text) ↔ ∃ source ∈ sourcesIn pairs, source.Offers key
  /-- Its pair is the first one of the first source that has it. -/
  found (key : String) (other : key ∉ ownKeys pairs) :
    firstFor? key result =
      (sourcesIn pairs).findSome? fun source => firstFor? key source.effectivePairs
  /-- What a merge key brings in stands in its place. -/
  place (before : List (Node × Node)) (pair : Node × Node) (after : List (Node × Node))
    (whole : pairs = before ++ pair :: after) (merges : pair.1.isMergeKey = true) :
    ∃ front brought back, result = front ++ brought ++ back ∧
      BroughtIn (ownKeys pairs) before pair.2 after front brought back

theorem broughtIn {pairs before after : List (Node × Node)} {pair : Node × Node}
    (whole : pairs = before ++ pair :: after) (merges : pair.1.isMergeKey = true) :
    ∃ front brought back, splice (ownKeys pairs) pairs = front ++ brought ++ back ∧
      BroughtIn (ownKeys pairs) before pair.2 after front brought back := by
  have own_pairs : ownPairs pairs = ownPairs before ++ ownPairs after := by
    have left_out : ownPairs (pair :: after) = ownPairs after := ownPairs_of_merge merges
    rw [whole, ← left_out, ownPairs, List.filter_append]
    rfl
  have all : ownKeys before ⊆ ownKeys pairs ∧ ownKeys after ⊆ ownKeys pairs := by
    simp [ownKeys_eq, own_pairs]
  obtain ⟨more, spliced, keys⟩ := splice_append (ownKeys pairs) before (pair :: after)
  -- `more` is what earlier merge keys bring in.
  rw [← whole, splice_of_merge merges, ← List.append_assoc] at spliced
  refine ⟨_, _, _, spliced, ?_⟩
  constructor
  case front_own => exact filter_own_splice all.1 (List.Subset.refl _)
  case back_own =>
    exact filter_own_splice all.2 fun key among =>
      List.mem_append_right _ (List.mem_append_right _ among)
  case front_keys =>
    intro key other
    rw [mem_keys_splice_iff fun written => other (all.1 written)]
    exact and_iff_right other
  case brought_keys =>
    intro key
    rw [mem_keys_newPairs_iff, mem_keys_sourcePairs_iff, List.mem_append, keys]
    push Not
    tauto
  case brought_order =>
    rw [← sourcePairs_eq]
    exact newPairs_sublist _ _

/-- The pairs of a mapping with its merge keys replaced are as merge keys mean. The sources of a
merge value are, where it stands for a mapping or for a sequence of mappings, that mapping or those
mappings, in order. -/
theorem effectivePairs_merged (n : Node) :
    Merged n.pairs n.effectivePairs ∧
      ∀ value sources, MergesFrom value sources → value.mergeSources = sources := by
  refine ⟨?_, fun value sources merges => merges.mergeSources_eq⟩
  have spliced := effectivePairs_eq_splice n
  constructor
  case plain => exact fun pair => isMergeKey_of_mem_effectivePairs n
  case own => rw [spliced]; exact filter_own_splice (List.Subset.refl _) (List.Subset.refl _)
  case once => rw [spliced]; exact nodup_other_splice (List.Subset.refl _) (List.Subset.refl _)
  case occurs =>
    intro key other
    rw [spliced, mem_keys_splice_iff other]
    exact and_iff_right other
  case found =>
    intro key other
    rw [spliced, firstFor?_splice other, if_neg other]
  case place =>
    intro before pair after whole merges
    rw [spliced]
    exact broughtIn whole merges

/-- A mapping whose merge key has two sources behind aliases, the first of which merges another
mapping. -/
def box : Node := Build.runNew do
  let shared ← Build.object [("depth", Build.string "1"), ("colour", Build.string "red")]
  let first ← Build.object [("<<", Build.aliasTo shared), ("size", Build.string "large")]
  let second ← Build.object [("colour", Build.string "blue"), ("shape", Build.string "cube")]
  let both ← Build.sequence [← Build.aliasTo first, ← Build.aliasTo second]
  Build.object [("name", Build.string "box"), ("<<", Build.aliasTo both),
    ("size", Build.string "small")]

/-- The pairs of the box are its own with three that are brought in, the colour from the first
source. -/
theorem effectivePairs_merged_box :
    Merged box.pairs box.effectivePairs ∧
      (box.effectivePairs.map fun pair => (pair.1.text, pair.2.text)) =
        [("name", "box"), ("depth", "1"), ("colour", "red"), ("shape", "cube"), ("size", "small")] ∧
      ∃ value, (firstFor? "<<" box.pairs).map (·.2) = some value ∧
        MergesFrom value (value.behind.items.map behind) ∧
          value.mergeSources = value.behind.items.map behind := by
  obtain ⟨merged, sources⟩ := effectivePairs_merged box
  obtain ⟨value, found⟩ : ∃ value, (firstFor? "<<" box.pairs).map (·.2) = some value := ⟨_, rfl⟩
  have merges : MergesFrom value (value.behind.items.map behind) := by
    cases found
    exact .sequence (by decide +kernel) rfl (by decide +kernel)
  exact ⟨merged, by decide +kernel, value, found, merges, sources value _ merges⟩

end DocRefs.Node
