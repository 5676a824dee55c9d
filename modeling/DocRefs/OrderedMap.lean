/-!
# Ordered maps

A map that keeps its keys in the order in which they first came. A key that comes again keeps its
place and its first spelling and only takes the new value, so a map is determined by the list of its
entries.
-/
namespace DocRefs

variable {κ ν : Type} [BEq κ]

/-- Puts a value under a key: in place of the one that is there, or at the end. -/
def putEntry (key : κ) (value : ν) : List (κ × ν) → List (κ × ν)
  | [] => [(key, value)]
  | (k, v) :: rest => if k == key then (k, value) :: rest else (k, v) :: putEntry key value rest

theorem mem_keys_putEntry {key other : κ} {value : ν} :
    {entries : List (κ × ν)} → other ∈ (putEntry key value entries).map (·.1) →
      other = key ∨ other ∈ entries.map (·.1)
  | [], member => by simpa [putEntry] using member
  | (k, v) :: rest, member => by
    unfold putEntry at member
    split at member
    · exact .inr (by simpa using member)
    · rcases List.mem_cons.1 member with rfl | later
      · simp
      · rcases mem_keys_putEntry later with same | known
        · exact .inl same
        · exact .inr (List.mem_cons_of_mem _ known)

/-- No key comes twice. -/
def DistinctKeys (entries : List (κ × ν)) : Prop :=
  (entries.map (·.1)).Pairwise fun a b => (a == b) = false

theorem distinctKeys_putEntry (key : κ) (value : ν) :
    {entries : List (κ × ν)} → DistinctKeys entries → DistinctKeys (putEntry key value entries)
  | [], _ => by simp [DistinctKeys, putEntry]
  | (k, v) :: rest, distinct => by
    have ⟨new, distinct_rest⟩ := List.pairwise_cons.1 distinct
    unfold putEntry
    split
    · exact List.pairwise_cons.2 ⟨new, distinct_rest⟩
    · rename_i differ
      refine List.pairwise_cons.2
        ⟨fun other member => ?_, distinctKeys_putEntry key value distinct_rest⟩
      rcases mem_keys_putEntry member with rfl | later
      · simpa using differ
      · exact new other later

theorem find?_putEntry [EquivBEq κ] (key other : κ) (value : ν) (entries : List (κ × ν)) :
    ((putEntry key value entries).find? (·.1 == other)).map (·.2) =
      if key == other then some value else (entries.find? (·.1 == other)).map (·.2) := by
  induction entries with
  | nil =>
    simp only [putEntry, List.find?_cons, List.find?_nil]
    cases key == other <;> rfl
  | cons entry rest ih =>
    obtain ⟨k, v⟩ := entry
    by_cases same : (k == key) = true
    · -- The entry takes the value, and what equals one of the keys equals the other.
      rw [putEntry, if_pos same, List.find?_cons, List.find?_cons, BEq.congr_left same]
      cases key == other <;> rfl
    · rw [putEntry, if_neg same, List.find?_cons, List.find?_cons]
      by_cases found : (k == other) = true
      · have differ : ¬ (key == other) = true := fun again =>
          same (BEq.trans found (BEq.symm again))
        simp [found, differ]
      · simpa [found] using ih

structure OrderedMap (κ ν : Type) [BEq κ] where
  toList : List (κ × ν)
  distinct : DistinctKeys toList

namespace OrderedMap

def empty : OrderedMap κ ν := ⟨[], by simp [DistinctKeys]⟩

instance : Inhabited (OrderedMap κ ν) := ⟨empty⟩

def insert (m : OrderedMap κ ν) (key : κ) (value : ν) : OrderedMap κ ν :=
  ⟨putEntry key value m.toList, distinctKeys_putEntry key value m.distinct⟩

/-- The map of some pairs, put in one after another. -/
def ofList (pairs : List (κ × ν)) : OrderedMap κ ν :=
  pairs.foldl (fun m (key, value) => m.insert key value) empty

/-- The entry of a key, with the key as it was first put in. -/
def entry? (m : OrderedMap κ ν) (key : κ) : Option (κ × ν) := m.toList.find? (·.1 == key)

def get? (m : OrderedMap κ ν) (key : κ) : Option ν := (m.entry? key).map (·.2)

def contains (m : OrderedMap κ ν) (key : κ) : Bool := (m.entry? key).isSome

/-- Puts a value under a key and says which value was there. -/
def exchange (m : OrderedMap κ ν) (key : κ) (value : ν) : Option ν × OrderedMap κ ν :=
  (m.get? key, m.insert key value)

/-- Changes the value under a key, if there is one. -/
def update (m : OrderedMap κ ν) (key : κ) (change : ν → ν) : OrderedMap κ ν :=
  match m.get? key with
  | some value => m.insert key (change value)
  | none => m

def size (m : OrderedMap κ ν) : Nat := m.toList.length

def keys (m : OrderedMap κ ν) : List κ := m.toList.map (·.1)

def values (m : OrderedMap κ ν) : List ν := m.toList.map (·.2)

instance [BEq ν] : BEq (OrderedMap κ ν) := ⟨fun a b => a.toList == b.toList⟩

@[simp] theorem toList_insert (m : OrderedMap κ ν) (key : κ) (value : ν) :
    (m.insert key value).toList = putEntry key value m.toList := rfl

section

variable [EquivBEq κ]

theorem get?_insert (m : OrderedMap κ ν) (key other : κ) (value : ν) :
    (m.insert key value).get? other = if key == other then some value else m.get? other :=
  find?_putEntry key other value m.toList

theorem get?_foldl_insert (pairs : List (κ × ν)) (m : OrderedMap κ ν) (key : κ) :
    (pairs.foldl (fun m (k, value) => m.insert k value) m).get? key =
      (((pairs.filter (·.1 == key)).getLast?).map (·.2)).or (m.get? key) := by
  induction pairs generalizing m with
  | nil => rfl
  | cons pair rest ih =>
    rw [List.foldl_cons, ih, get?_insert]
    by_cases here : (pair.1 == key) = true
    · rw [List.filter_cons, if_pos here, if_pos here, List.getLast?_cons]
      cases (rest.filter (·.1 == key)).getLast? <;> rfl
    · rw [List.filter_cons, if_neg here, if_neg here]

/-- Of several values under one key the last is kept. -/
theorem get?_ofList (pairs : List (κ × ν)) (key : κ) :
    (ofList pairs).get? key = ((pairs.filter (·.1 == key)).getLast?).map (·.2) :=
  (get?_foldl_insert pairs empty key).trans (Option.or_none)

end

theorem putEntry_of_new {key : κ} (value : ν) {entries : List (κ × ν)}
    (new : ∀ k ∈ entries.map (·.1), (k == key) = false) :
    putEntry key value entries = entries ++ [(key, value)] := by
  induction entries with
  | nil => rfl
  | cons entry rest ih =>
    obtain ⟨differ, new_rest⟩ := List.forall_mem_cons.mp new
    rw [putEntry, differ, if_neg Bool.false_ne_true, ih new_rest, List.cons_append]

/-- Where no key comes twice all pairs are kept as they are. -/
theorem toList_ofList {pairs : List (κ × ν)} (distinct : DistinctKeys pairs) :
    (ofList pairs).toList = pairs := by
  have keeps (pairs : List (κ × ν)) (m : OrderedMap κ ν)
      (distinct : DistinctKeys (m.toList ++ pairs)) :
      (pairs.foldl (fun m pair => m.insert pair.1 pair.2) m).toList = m.toList ++ pairs := by
    induction pairs generalizing m with
    | nil => simp
    | cons pair rest ih =>
      have new : ∀ k ∈ m.toList.map (·.1), (k == pair.1) = false := by
        rw [DistinctKeys, List.map_append] at distinct
        intro k member
        exact (List.pairwise_append.mp distinct).2.2 k member pair.1 List.mem_cons_self
      have added : (m.insert pair.1 pair.2).toList = m.toList ++ [pair] :=
        putEntry_of_new pair.2 new
      rw [List.foldl_cons, ih _ (by rw [added, List.append_assoc]; exact distinct), added,
        List.append_assoc]
      rfl
  exact keeps pairs empty distinct

/-! ### Keys -/

section

variable [EquivBEq κ]

omit [EquivBEq κ] in
/-- What holds of a row if it holds of the others than the first element, without those that equal
it, holds of every row. -/
theorem eraseDups_induction {motive : List κ → Prop} (nil : motive [])
    (cons : ∀ first rest, motive (rest.filter fun other => !other == first) →
      motive (first :: rest)) : (keys : List κ) → motive keys
  | [] => nil
  | first :: rest => cons first rest (eraseDups_induction nil cons _)
  termination_by keys => keys.length
  decreasing_by exact Nat.lt_succ_of_le (List.length_filter_le _ _)

/-- One more element is new, or equals one that is there. -/
theorem eraseDups_concat (keys : List κ) (key : κ) :
    (keys ++ [key]).eraseDups =
      if keys.any (· == key) then keys.eraseDups else keys.eraseDups ++ [key] := by
  induction keys using eraseDups_induction with
  | nil => rfl
  | cons first rest ih =>
    rw [List.cons_append, List.eraseDups_cons, List.eraseDups_cons, List.filter_append,
      List.any_cons]
    by_cases same : (key == first) = true
    · simp [same, BEq.symm same]
    · have differ : (first == key) = false := Bool.eq_false_iff.mpr fun again =>
        same (BEq.symm again)
      -- What equals the key does not equal the first element, so no such element is dropped.
      have kept : (rest.filter fun other => !other == first).any (· == key) =
          rest.any (· == key) := by
        rw [List.any_filter]
        congr 1
        funext other
        by_cases found : (other == key) = true
        · have apart : (other == first) = false := Bool.eq_false_iff.mpr fun again =>
            same (BEq.trans (BEq.symm found) again)
          simp [found, apart]
        · simp [found]
      have added : [key].filter (fun other => !other == first) = [key] := by simp [same]
      rw [added, ih, kept, differ, Bool.false_or]
      split <;> rfl

theorem any_eraseDups (keys : List κ) (key : κ) :
    keys.eraseDups.any (· == key) = keys.any (· == key) := by
  induction keys using eraseDups_induction with
  | nil => rfl
  | cons first rest ih =>
    rw [List.eraseDups_cons, List.any_cons, List.any_cons, ih, List.any_filter]
    by_cases here : (first == key) = true
    · simp [here]
    · have differ (other : κ) : (!other == first && other == key) = (other == key) := by
        by_cases found : (other == key) = true
        · have apart : (other == first) = false := Bool.eq_false_iff.mpr fun again =>
            here (BEq.trans (BEq.symm again) found)
          simp [found, apart]
        · simp [found]
      simp only [differ]

omit [EquivBEq κ] in
theorem nodup_eraseDups [LawfulBEq κ] (keys : List κ) : keys.eraseDups.Nodup := by
  induction keys using eraseDups_induction with
  | nil => exact List.Pairwise.nil
  | cons first rest ih =>
    rw [List.eraseDups_cons, List.nodup_cons]
    exact ⟨by simp [List.mem_eraseDups], ih⟩

omit [EquivBEq κ] in
theorem keys_putEntry (key : κ) (value : ν) (entries : List (κ × ν)) :
    (putEntry key value entries).map (·.1) =
      if (entries.map (·.1)).any (· == key) then entries.map (·.1)
      else entries.map (·.1) ++ [key] := by
  induction entries with
  | nil => rfl
  | cons entry rest ih =>
    obtain ⟨k, v⟩ := entry
    by_cases same : (k == key) = true
    · simp [putEntry, same]
    · rw [putEntry, if_neg same, List.map_cons, ih, List.map_cons, List.any_cons,
        Bool.eq_false_iff.mpr same, Bool.false_or]
      split <;> rfl

theorem keys_insert {m : OrderedMap κ ν} {given : List κ}
    (known : m.keys = given.eraseDups) (key : κ) (value : ν) :
    (m.insert key value).keys = (given ++ [key]).eraseDups := by
  have kept : m.toList.map (·.1) = given.eraseDups := known
  rw [keys, toList_insert, keys_putEntry, kept, any_eraseDups, eraseDups_concat]

theorem keys_foldl_insert {m : OrderedMap κ ν} {given : List κ}
    (known : m.keys = given.eraseDups) (pairs : List (κ × ν)) :
    (pairs.foldl (fun m pair => m.insert pair.1 pair.2) m).keys =
      (given ++ pairs.map (·.1)).eraseDups := by
  induction pairs generalizing m given with
  | nil => simpa using known
  | cons pair rest ih =>
    rw [List.foldl_cons, ih (keys_insert known pair.1 pair.2), List.map_cons,
      List.append_assoc, List.singleton_append]

/-- Keys stand in the order in which they first came. -/
theorem keys_ofList (pairs : List (κ × ν)) :
    (ofList pairs).keys = (pairs.map (·.1)).eraseDups := by
  have none_yet : (empty : OrderedMap κ ν).keys = ([] : List κ).eraseDups := rfl
  exact keys_foldl_insert none_yet pairs

end

theorem lookup_toList [LawfulBEq κ] (m : OrderedMap κ ν) (key : κ) :
    m.toList.lookup key = m.get? key := by
  rw [get?, entry?]
  induction m.toList with
  | nil => rfl
  | cons entry rest ih =>
    rw [List.lookup_cons, List.find?_cons, BEq.comm]
    cases entry.1 == key
    · exact ih
    · rfl

end OrderedMap

end DocRefs
