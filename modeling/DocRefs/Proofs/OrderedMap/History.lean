import DocRefs.Extract.Provenance
import DocRefs.OrderedMap.Indexed

/-!
# Maps and their histories

Whatever is done to an ordered map, it is told by the history alone what the map answers: its keys
are those that were put in, each once and as it first came, and under each is what the history made
of its value (`answers_of_history`). An indexed map answers in the same way, since its look-ups are
look-ups in the row of its entries (`IndexedMap.answers_eq`).
-/
namespace DocRefs

open Std (HashMap)

variable {κ ν : Type} [BEq κ]

/-! ### Entries under distinct keys -/

theorem DistinctKeys.find?_of_mem [EquivBEq κ] {entries : List (κ × ν)}
    (distinct : DistinctKeys entries) {entry : κ × ν} (member : entry ∈ entries) :
    entries.find? (·.1 == entry.1) = some entry := by
  induction entries with
  | nil => simp at member
  | cons first rest ih =>
    obtain ⟨new, later⟩ := List.pairwise_cons.mp distinct
    rcases List.mem_cons.mp member with rfl | there
    · simp
    · have differ : (first.1 == entry.1) = false := new _ (List.mem_map_of_mem there)
      rw [List.find?_cons, differ]
      exact ih later there

/-- A value is put in place of the first one under its key. -/
theorem putEntry_eq_set {key : κ} {value : ν} {entries : List (κ × ν)} {i : Nat}
    (within : i < entries.length) (here : (entries[i].1 == key) = true)
    (before : ∀ j (earlier : j < i), (entries[j].1 == key) = false) :
    putEntry key value entries = entries.set i (entries[i].1, value) := by
  induction entries generalizing i with
  | nil => simp at within
  | cons entry rest ih =>
    obtain ⟨k, v⟩ := entry
    cases i with
    | zero => exact if_pos here
    | succ i =>
      have differ : (k == key) = false := before 0 (Nat.succ_pos i)
      rw [putEntry, differ, if_neg Bool.false_ne_true,
        ih (Nat.lt_of_succ_lt_succ within) here fun j earlier =>
          before (j + 1) (Nat.succ_lt_succ earlier)]
      rfl

/-! ### What is asked of a map -/

/-- The answers of a map to everything that is asked of it. -/
structure MapAnswers (κ ν : Type) where
  toList : List (κ × ν)
  size : Nat
  entryAt? : Nat → Option (κ × ν)
  entry? : κ → Option (κ × ν)
  get? : κ → Option ν
  contains : κ → Bool
  /-- The value that was there before another is put under the key. -/
  replaced? : κ → ν → Option ν

namespace MapAnswers

/-- The answers of a list of entries. -/
def ofList (entries : List (κ × ν)) : MapAnswers κ ν where
  toList := entries
  size := entries.length
  entryAt? i := entries[i]?
  entry? key := entries.find? (·.1 == key)
  get? key := (entries.find? (·.1 == key)).map (·.2)
  contains key := entries.any (·.1 == key)
  replaced? key _ := (entries.find? (·.1 == key)).map (·.2)

end MapAnswers

/-! ### Histories -/

/-- What is done to a map: a value is put under a key, the value under a key is changed in place, or
the map is made anew of some pairs. -/
inductive MapChange (κ ν : Type) where
  | insert (key : κ) (value : ν)
  | update (key : κ) (change : ν → ν)
  | collect (pairs : List (κ × ν))

namespace MapChange

/-- The keys that were put in since the map was made, when `keys` were before the change. -/
def keysGiven (keys : List κ) : MapChange κ ν → List κ
  | .insert key _ => keys ++ [key]
  | .update _ _ => keys
  | .collect pairs => pairs.map (·.1)

/-- What the change makes of the value under a key. -/
def valueUnder (key : κ) (before : Option ν) : MapChange κ ν → Option ν
  | .insert k value => if k == key then some value else before
  | .update k change => if k == key then before.map change else before
  | .collect pairs => ((pairs.filter (·.1 == key)).getLast?).map (·.2)

end MapChange

/-- The keys that a history puts in, in order and as often as it does. -/
def given (history : List (MapChange κ ν)) : List κ := history.foldl MapChange.keysGiven []

/-- The value that a history leaves under a key. -/
def latest (history : List (MapChange κ ν)) (key : κ) : Option ν :=
  history.foldl (MapChange.valueUnder key) none

/-- The keys of a history, each once and as it first came, with their latest values. -/
def entriesOf (history : List (MapChange κ ν)) : List (κ × ν) :=
  (given history).eraseDups.filterMap fun key => (latest history key).map fun value => (key, value)

/-! ### The map without an index -/

namespace OrderedMap

def apply (m : OrderedMap κ ν) : MapChange κ ν → OrderedMap κ ν
  | .insert key value => m.insert key value
  | .update key change => m.update key change
  | .collect pairs => ofList pairs

def after (history : List (MapChange κ ν)) : OrderedMap κ ν := history.foldl apply empty

def answers (m : OrderedMap κ ν) : MapAnswers κ ν where
  toList := m.toList
  size := m.size
  entryAt? i := m.toList[i]?
  entry? := m.entry?
  get? := m.get?
  contains := m.contains
  replaced? key value := (m.exchange key value).1

theorem answers_eq (m : OrderedMap κ ν) : m.answers = .ofList m.toList := by
  have found : m.contains = fun key => m.toList.any (·.1 == key) := by
    funext key
    rw [contains, entry?, List.isSome_find?]
  rw [answers, found]
  rfl

theorem isSome_get? (m : OrderedMap κ ν) (key : κ) :
    (m.get? key).isSome = m.keys.any (· == key) := by
  rw [get?, entry?, Option.isSome_map, List.isSome_find?, keys, List.any_map]
  rfl

variable [EquivBEq κ]

theorem get?_congr (m : OrderedMap κ ν) {key other : κ} (same : (key == other) = true) :
    m.get? key = m.get? other := by
  simp only [get?, entry?, BEq.congr_right same]

theorem get?_update (m : OrderedMap κ ν) (key other : κ) (change : ν → ν) :
    (m.update key change).get? other =
      if key == other then (m.get? other).map change else m.get? other := by
  unfold update
  split
  next value found =>
    rw [get?_insert]
    split
    next same => rw [← m.get?_congr same, found]; rfl
    · rfl
  next missing =>
    split
    next same => rw [← m.get?_congr same, missing]; rfl
    · rfl

omit [EquivBEq κ] in
theorem keys_update (m : OrderedMap κ ν) (key : κ) (change : ν → ν) :
    (m.update key change).keys = m.keys := by
  unfold update
  split
  next value found =>
    have there : (m.toList.map (·.1)).any (· == key) = true := by
      rw [← keys, ← isSome_get?, found, Option.isSome_some]
    rw [keys, toList_insert, keys_putEntry, if_pos there]
    rfl
  · rfl

/-- A map is told by its keys and their values. -/
theorem toList_eq (m : OrderedMap κ ν) :
    m.toList = m.keys.filterMap fun key => (m.get? key).map fun value => (key, value) := by
  have kept : ∀ entry ∈ m.toList,
      ((m.get? entry.1).map fun value => (entry.1, value)) = some entry := by
    intro entry member
    rw [get?, entry?, m.distinct.find?_of_mem member]
    rfl
  rw [keys, List.filterMap_map]
  calc m.toList
    _ = m.toList.filterMap some := List.filterMap_some.symm
    _ = _ := List.filterMap_congr fun entry member => (kept entry member).symm

/-- The map has the keys that were given, and these values under them. -/
structure Recounts (m : OrderedMap κ ν) (keys : List κ) (value : κ → Option ν) : Prop where
  keys : m.keys = keys.eraseDups
  value : ∀ key, m.get? key = value key

namespace Recounts

variable {m : OrderedMap κ ν} {keys : List κ} {value : κ → Option ν}

/-- One change goes on with the account as the history does. -/
theorem apply (recounts : Recounts m keys value) (change : MapChange κ ν) :
    Recounts (m.apply change) (change.keysGiven keys) fun key =>
      change.valueUnder key (value key) := by
  cases change with
  | insert k v =>
    refine ⟨keys_insert recounts.keys k v, fun key => ?_⟩
    simp only [OrderedMap.apply, MapChange.valueUnder, get?_insert, recounts.value key]
  | update k f =>
    refine ⟨(m.keys_update k f).trans recounts.keys, fun key => ?_⟩
    simp only [OrderedMap.apply, MapChange.valueUnder, get?_update, recounts.value key]
  | collect pairs => exact ⟨keys_ofList pairs, get?_ofList pairs⟩

/-- So does any number of changes. -/
theorem run (recounts : Recounts m keys value) (history : List (MapChange κ ν)) :
    Recounts (history.foldl OrderedMap.apply m)
      (history.foldl (fun keys c => c.keysGiven keys) keys)
      fun key => history.foldl (fun value c => c.valueUnder key value) (value key) := by
  induction history generalizing m keys value with
  | nil => exact recounts
  | cons change later ih => exact ih (recounts.apply change)

end Recounts

theorem recounts_after (history : List (MapChange κ ν)) :
    Recounts (after history) (given history) (latest history) :=
  Recounts.run ⟨rfl, fun _ => rfl⟩ history

theorem toList_after (history : List (MapChange κ ν)) :
    (after history).toList = entriesOf history := by
  have recounts := recounts_after history
  rw [toList_eq, recounts.keys, entriesOf]
  simp only [recounts.value]

theorem keys_entriesOf (history : List (MapChange κ ν)) :
    (entriesOf history).map (·.1) = (given history).eraseDups := by
  rw [← toList_after, ← (recounts_after history).keys, keys]

end OrderedMap

/-! ### The map with an index -/

namespace IndexedMap

variable [Hashable κ]

theorem key_of_position {m : IndexedMap κ ν} {key : κ} {i : Nat}
    (found : m.positions[key]? = some i) (within : i < m.entries.size) :
    (m.entries[i].1 == key) = true := by
  simpa [within] using (m.indexes key i).mp found

theorem position_of_key {m : IndexedMap κ ν} {key : κ} {i : Nat} (within : i < m.entries.size)
    (here : (m.entries[i].1 == key) = true) : m.positions[key]? = some i :=
  (m.indexes key i).mpr (by simpa [within] using here)

theorem differs_of_position {m : IndexedMap κ ν} {key : κ} {i j : Nat}
    (found : m.positions[key]? = some i) (other : j ≠ i) (within : j < m.entries.size) :
    (m.entries[j].1 == key) = false := by
  refine Bool.eq_false_iff.mpr fun again => other ?_
  exact Option.some.inj ((position_of_key within again).symm.trans found)

theorem differs_of_no_position {m : IndexedMap κ ν} {key : κ} (missing : m.positions[key]? = none)
    {entry : κ × ν} (member : entry ∈ m.toList) : (entry.1 == key) = false := by
  obtain ⟨j, within, rfl⟩ := List.getElem_of_mem member
  refine Bool.eq_false_iff.mpr fun again => ?_
  have found := position_of_key (m := m) (by simpa [toList] using within) again
  simp [missing] at found

/-- A look-up through the index finds the entry that a search along the row finds. -/
theorem entry?_eq (m : IndexedMap κ ν) (key : κ) :
    m.entry? key = m.toList.find? (·.1 == key) := by
  unfold entry?
  cases place : m.position? key with
  | none =>
    symm
    rw [Option.map_none, List.find?_eq_none]
    intro entry member
    rw [differs_of_no_position (position?_eq_none_iff.mp place) member]
    exact Bool.false_ne_true
  | some i =>
    have found := position?_eq_some_iff.mp place
    symm
    rw [Option.map_some, List.find?_eq_some_iff_getElem]
    refine ⟨key_of_position found i.isLt, i.val, i.isLt, rfl, fun j earlier => ?_⟩
    have differ := differs_of_position found (Nat.ne_of_lt earlier) (earlier.trans i.isLt)
    simpa [toList] using differ

theorem get?_eq (m : IndexedMap κ ν) (key : κ) :
    m.get? key = (m.toList.find? (·.1 == key)).map (·.2) := by
  rw [← entry?_eq, get?, entry?, Option.map_map]
  rfl

theorem contains_eq [EquivBEq κ] [LawfulHashable κ] (m : IndexedMap κ ν) (key : κ) :
    m.contains key = m.toList.any (·.1 == key) := by
  rw [contains, HashMap.contains_eq_isSome_getElem?, ← List.isSome_find?, ← entry?_eq, entry?,
    Option.isSome_map, position?]
  split <;> simp [*]

/-- The value at a position that the index has for a key is the one that a search would replace. -/
theorem toList_replaceAt {m : IndexedMap κ ν} {key : κ} {i : Fin m.entries.size}
    (place : m.position? key = some i) (value : ν) :
    (m.replaceAt i value).toList = putEntry key value m.toList := by
  have found := position?_eq_some_iff.mp place
  have within : i.val < m.toList.length := i.isLt
  have here : (m.toList[i.val].1 == key) = true := key_of_position found i.isLt
  rw [putEntry_eq_set within here fun j earlier => ?_]
  · simp [replaceAt, toList]
  · have differ := differs_of_position found (Nat.ne_of_lt earlier) (earlier.trans i.isLt)
    simpa [toList] using differ

variable [EquivBEq κ] [LawfulHashable κ]

theorem exchange_fst (m : IndexedMap κ ν) (key : κ) (value : ν) :
    (m.exchange key value).1 = m.get? key := by
  unfold exchange get?
  split
  next i place => rw [place, Option.map_some]
  next place =>
    dsimp only
    rw [place, Option.map_none]

theorem toList_append {m : IndexedMap κ ν} {key : κ} (place : m.position? key = none) (value : ν) :
    (m.append key value place).toList = putEntry key value m.toList := by
  rw [OrderedMap.putEntry_of_new value fun k member => ?_]
  · simp [append, toList]
  · obtain ⟨entry, there, rfl⟩ := List.mem_map.mp member
    exact differs_of_no_position (position?_eq_none_iff.mp place) there

/-- Through the index a value is put where a search along the row puts it. -/
theorem toList_exchange (m : IndexedMap κ ν) (key : κ) (value : ν) :
    (m.exchange key value).2.toList = putEntry key value m.toList := by
  unfold exchange
  split
  next i place => exact toList_replaceAt place value
  next place => exact toList_append place value

omit [EquivBEq κ] [LawfulHashable κ] in
theorem toList_update (m : IndexedMap κ ν) (other : OrderedMap κ ν) (same : m.toList = other.toList)
    (key : κ) (change : ν → ν) :
    (m.update key change).toList = (other.update key change).toList := by
  have looked : m.get? key = other.get? key := by
    rw [get?_eq, same]
    rfl
  unfold update OrderedMap.update
  rw [← looked, get?]
  split
  next i place =>
    rw [place, Option.map_some, toList_replaceAt place, same]
    rfl
  next place => rw [place, Option.map_none, same]

theorem toList_ofList (pairs : List (κ × ν)) :
    (ofList pairs).toList = (OrderedMap.ofList pairs).toList := by
  have keeps (m : IndexedMap κ ν) (other : OrderedMap κ ν) (same : m.toList = other.toList) :
      (pairs.foldl (fun m pair => (m.exchange pair.1 pair.2).2) m).toList =
        (pairs.foldl (fun m pair => m.insert pair.1 pair.2) other).toList := by
    induction pairs generalizing m other with
    | nil => exact same
    | cons pair rest ih =>
      refine ih _ _ ?_
      rw [toList_exchange, same, OrderedMap.toList_insert]
  exact keeps empty .empty rfl

def apply (m : IndexedMap κ ν) : MapChange κ ν → IndexedMap κ ν
  | .insert key value => (m.exchange key value).2
  | .update key change => m.update key change
  | .collect pairs => ofList pairs

def after (history : List (MapChange κ ν)) : IndexedMap κ ν := history.foldl apply empty

def answers (m : IndexedMap κ ν) : MapAnswers κ ν where
  toList := m.toList
  size := m.size
  entryAt? := m.entryAt?
  entry? := m.entry?
  get? := m.get?
  contains := m.contains
  replaced? key value := (m.exchange key value).1

/-- What is asked of the map is answered from the row of its entries. -/
theorem answers_eq (m : IndexedMap κ ν) : m.answers = .ofList m.toList := by
  have size : m.size = m.toList.length := m.entries.length_toList.symm
  have place : m.entryAt? = fun i => m.toList[i]? := by
    funext i
    rw [toList, Array.getElem?_toList, entryAt?]
  have entry : m.entry? = fun key => m.toList.find? (·.1 == key) := funext m.entry?_eq
  have value : m.get? = fun key => (m.toList.find? (·.1 == key)).map (·.2) := funext m.get?_eq
  have there : m.contains = fun key => m.toList.any (·.1 == key) := funext m.contains_eq
  simp only [answers, MapAnswers.ofList, exchange_fst, size, place, entry, value, there]

theorem toList_apply {m : IndexedMap κ ν} {other : OrderedMap κ ν} (same : m.toList = other.toList)
    (change : MapChange κ ν) : (m.apply change).toList = (other.apply change).toList := by
  cases change with
  | insert key value =>
    rw [apply, toList_exchange, same]
    rfl
  | update key change => exact toList_update m other same key change
  | collect pairs => exact toList_ofList pairs

theorem toList_after (history : List (MapChange κ ν)) :
    (after history).toList = (OrderedMap.after history).toList := by
  have keeps (m : IndexedMap κ ν) (other : OrderedMap κ ν) (same : m.toList = other.toList) :
      (history.foldl apply m).toList = (history.foldl OrderedMap.apply other).toList := by
    induction history generalizing m other with
    | nil => exact same
    | cons change later ih => exact ih _ _ (toList_apply same change)
  exact keeps empty .empty rfl

omit [EquivBEq κ] [LawfulHashable κ] in
theorem beq_eq [BEq ν] (a b : IndexedMap κ ν) : (a == b) = (a.toList == b.toList) := by
  change (a.entries == b.entries) = _
  rw [← Array.beq_toList]
  rfl

end IndexedMap

section

variable [Hashable κ] [EquivBEq κ] [LawfulHashable κ]

/-- After any history of values put in, values changed in place and maps made anew, for keys with
any equality and a hash that respects it: the entries are the different keys that were put in, in
the order and with the spelling in which they first came, each with its latest value. Everything
that is asked of the map is answered from this list, with or without an index, which has the
positions of exactly these keys. What is put in replaces a value exactly if its key was put in
before. Two maps are equal if their lists are. -/
theorem answers_of_history [BEq ν] (history : List (MapChange κ ν)) :
    (entriesOf history).map (·.1) = (given history).eraseDups ∧
    (∀ key, (MapAnswers.ofList (entriesOf history)).get? key = latest history key) ∧
    (∀ key, (latest history key).isSome = (given history).any (· == key)) ∧
    (OrderedMap.after history).answers = .ofList (entriesOf history) ∧
    (IndexedMap.after history).answers = .ofList (entriesOf history) ∧
    (∀ (key : κ) (i : Nat), (IndexedMap.after history).positions[key]? = some i ↔
      ((entriesOf history)[i]?.any fun entry => entry.1 == key) = true) ∧
    ∀ other : List (MapChange κ ν),
      (OrderedMap.after history == OrderedMap.after other) =
        (entriesOf history == entriesOf other) ∧
      (IndexedMap.after history == IndexedMap.after other) =
        (entriesOf history == entriesOf other) := by
  have listed (history : List (MapChange κ ν)) :
      (IndexedMap.after history).toList = entriesOf history := by
    rw [IndexedMap.toList_after, OrderedMap.toList_after]
  have recounts := OrderedMap.recounts_after history
  refine ⟨OrderedMap.keys_entriesOf history, fun key => ?_, fun key => ?_, ?_, ?_,
    fun key i => ?_, fun other => ⟨?_, ?_⟩⟩
  · rw [← recounts.value key, ← OrderedMap.toList_after]
    rfl
  · rw [← recounts.value key, OrderedMap.isSome_get?, recounts.keys,
      OrderedMap.any_eraseDups]
  · rw [OrderedMap.answers_eq, OrderedMap.toList_after]
  · rw [IndexedMap.answers_eq, listed]
  · rw [(IndexedMap.after history).indexes key i, ← listed, IndexedMap.toList,
      Array.getElem?_toList]
  · rw [← OrderedMap.toList_after, ← OrderedMap.toList_after]
    rfl
  · rw [IndexedMap.beq_eq, listed, listed]

end

/-- A key that is put in again from another node, one whose value is changed, and one that is new
when nothing is there to change. -/
def respelled : List (MapChange (FromKey String) Int) :=
  let key (number : Nat) (text : String) : FromKey String :=
    { value := text, node := some (.scalar { id := ⟨number⟩, tag := CoreTag.str } text) }
  [.insert (key 1 "lost") 0, .collect [(key 2 "z", 1), (key 3 "a", 2), (key 4 "z", 5)],
    .insert (key 5 "z") 3, .update (key 6 "a") (· + 10), .update (key 7 "b") (· + 10),
    .insert (key 8 "b") 7]

/-- Every key is kept with the node that it first came from, and with its latest value. -/
theorem answers_of_history_respelled :
    EquivBEq (FromKey String) ∧ LawfulHashable (FromKey String) ∧
      (entriesOf respelled).map (fun entry =>
        (entry.1.node.map (·.id.number), entry.1.value, entry.2)) =
          [(some 2, "z", 3), (some 3, "a", 12), (some 8, "b", 7)] ∧
      (OrderedMap.after respelled).answers = .ofList (entriesOf respelled) ∧
      (IndexedMap.after respelled).answers = .ofList (entriesOf respelled) := by
  obtain ⟨-, -, -, plain, indexed, -⟩ := answers_of_history respelled
  exact ⟨inferInstance, inferInstance, by decide +kernel, plain, indexed⟩

end DocRefs
