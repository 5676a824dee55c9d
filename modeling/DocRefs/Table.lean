/-!
# Tables

A table keeps values under distinct texts. Where a text comes twice the first value counts, so a
table answers exactly as a search from the front would (`get?_ofList`).
-/
namespace DocRefs

/-- Keeps the first pair of every key. -/
def firstPairs {α : Type} (pairs : List (String × α)) : List (String × α) :=
  pairs.foldr (fun pair kept => pair :: kept.filter (·.1 ≠ pair.1)) []

@[simp] theorem firstPairs_cons {α : Type} (pair : String × α) (rest : List (String × α)) :
    firstPairs (pair :: rest) = pair :: (firstPairs rest).filter (·.1 ≠ pair.1) := rfl

theorem lookup_filter_ne {κ α : Type} [DecidableEq κ] {key other : κ} (differ : key ≠ other) :
    (pairs : List (κ × α)) →
      (pairs.filter (·.1 ≠ other)).lookup key = pairs.lookup key
  | [] => rfl
  | (k, v) :: rest => by
    have ih := lookup_filter_ne differ rest
    by_cases same : k = other
    · subst same
      rw [List.filter_cons_of_neg (by simp), ih, List.lookup_cons, beq_false_of_ne differ]
    · by_cases found : key = k <;> simp_all [List.lookup_cons]

theorem lookup_filter_self {κ α : Type} [DecidableEq κ] (key : κ) (pairs : List (κ × α)) :
    (pairs.filter (·.1 ≠ key)).lookup key = none := by
  rw [List.lookup_eq_none_iff]
  intro pair member
  have other : pair.1 ≠ key := of_decide_eq_true (List.mem_filter.mp member).2
  exact bne_iff_ne.mpr other.symm

/-- Values that are changed under their keys are found changed. -/
theorem lookup_map_pairs {κ α β : Type} [DecidableEq κ] (f : κ → α → β) (pairs : List (κ × α))
    (key : κ) :
    (pairs.map fun pair => (pair.1, f pair.1 pair.2)).lookup key =
      (pairs.lookup key).map (f key) := by
  induction pairs with
  | nil => rfl
  | cons pair rest ih =>
    rw [List.map_cons, List.lookup_cons, List.lookup_cons]
    cases same : key == pair.1 with
    | true => rw [eq_of_beq same]; rfl
    | false => exact ih

/-- Where no key stands twice, every pair is found. -/
theorem mem_iff_lookup {κ α : Type} [DecidableEq κ] {pairs : List (κ × α)}
    (distinct : (pairs.map (·.1)).Nodup) (key : κ) (value : α) :
    (key, value) ∈ pairs ↔ pairs.lookup key = some value := by
  induction pairs with
  | nil => simp
  | cons pair rest ih =>
    obtain ⟨k, v⟩ := pair
    have ⟨fresh, distinct_rest⟩ := List.nodup_cons.1 distinct
    by_cases same : key = k
    · subst same
      have absent : (key, value) ∉ rest := fun later =>
        fresh (List.mem_map.2 ⟨(key, value), later, rfl⟩)
      simp [absent, eq_comm]
    · simp [same, List.lookup_cons, beq_false_of_ne same, ih distinct_rest]

theorem lookup_firstPairs {α : Type} (key : String) :
    (pairs : List (String × α)) → (firstPairs pairs).lookup key = pairs.lookup key
  | [] => rfl
  | (k, v) :: rest => by
    by_cases found : key = k
    · simp [found]
    · rw [firstPairs_cons, List.lookup_cons, List.lookup_cons, lookup_filter_ne found,
        lookup_firstPairs key rest]

theorem nodup_firstPairs {α : Type} :
    (pairs : List (String × α)) → ((firstPairs pairs).map (·.1)).Nodup
  | [] => by simp [firstPairs]
  | (k, v) :: rest => by
    have ih := nodup_firstPairs rest
    rw [firstPairs_cons, List.map_cons, List.nodup_cons]
    refine ⟨by simp, (ih.sublist ?_)⟩
    exact List.filter_sublist.map _

theorem firstPairs_map {α β : Type} (f : String → α → β) :
    (pairs : List (String × α)) →
      firstPairs (pairs.map fun (key, value) => (key, f key value)) =
        (firstPairs pairs).map fun (key, value) => (key, f key value)
  | [] => rfl
  | (k, v) :: rest => by
    rw [List.map_cons, firstPairs_cons, firstPairs_cons, firstPairs_map f rest, List.filter_map]
    rfl

structure Table (α : Type) where
  entries : List (String × α)
  distinct : (entries.map (·.1)).Nodup

namespace Table

variable {α : Type}

def empty : Table α := ⟨[], by simp⟩

instance : Inhabited (Table α) := ⟨empty⟩

/-- A table of the pairs, the first of each key. -/
def ofList (pairs : List (String × α)) : Table α := ⟨firstPairs pairs, nodup_firstPairs pairs⟩

def get? (t : Table α) (key : String) : Option α := t.entries.lookup key

def contains (t : Table α) (key : String) : Bool := (t.get? key).isSome

def keys (t : Table α) : List String := t.entries.map (·.1)

def size (t : Table α) : Nat := t.entries.length

/-- The table with a value that takes the place of the one under its key. -/
def insert (t : Table α) (key : String) (value : α) : Table α := ofList ((key, value) :: t.entries)

/-- The same keys with other values. -/
def mapValues {β : Type} (f : String → α → β) (t : Table α) : Table β :=
  ⟨t.entries.map fun (key, value) => (key, f key value), by rw [List.map_map]; exact t.distinct⟩

theorem mem_entries_iff (t : Table α) (key : String) (value : α) :
    (key, value) ∈ t.entries ↔ t.get? key = some value := mem_iff_lookup t.distinct key value

theorem mem_keys_iff (t : Table α) (key : String) : key ∈ t.keys ↔ (t.get? key).isSome = true := by
  rw [keys, List.mem_map, Option.isSome_iff_exists]
  constructor
  · rintro ⟨⟨k, value⟩, member, rfl⟩
    exact ⟨value, (t.mem_entries_iff k value).mp member⟩
  · rintro ⟨value, found⟩
    exact ⟨(key, value), (t.mem_entries_iff key value).mpr found, rfl⟩

@[simp] theorem get?_empty (key : String) : (empty : Table α).get? key = none := rfl

@[simp] theorem get?_ofList (pairs : List (String × α)) (key : String) :
    (ofList pairs).get? key = pairs.lookup key := lookup_firstPairs key pairs

theorem mem_of_get?_ofList {pairs : List (String × α)} {key : String} {value : α}
    (found : (ofList pairs).get? key = some value) : (key, value) ∈ pairs := by
  rw [get?_ofList] at found
  obtain ⟨before, after, split, _⟩ := List.lookup_eq_some_iff.1 found
  simp [split]

theorem get?_insert (t : Table α) (key other : String) (value : α) :
    (t.insert key value).get? other = if other = key then some value else t.get? other := by
  rw [insert, get?_ofList, List.lookup_cons]
  by_cases same : other = key
  · simp [same]
  · simp [same, beq_false_of_ne, get?]

theorem mapValues_insert {β : Type} (f : String → α → β) (t : Table α) (key : String) (value : α) :
    (t.insert key value).mapValues f = (t.mapValues f).insert key (f key value) := by
  simp only [mapValues, insert, ofList, ← firstPairs_map, List.map_cons]

theorem get?_mapValues {β : Type} (f : String → α → β) (t : Table α) (key : String) :
    (t.mapValues f).get? key = (t.get? key).map (f key) := by
  simp only [mapValues, get?]
  induction t.entries with
  | nil => rfl
  | cons pair rest ih =>
    obtain ⟨k, v⟩ := pair
    simp only [List.map_cons, List.lookup_cons, ih]
    cases found : key == k
    · rfl
    · simp [eq_of_beq found]

end Table

end DocRefs
