import DocRefs.OrderedMap
import Mathlib

/-!
# Indexed maps

An ordered map as it is kept in memory: the entries in a row, and beside them a hash index that
gives every key the position of its entry. Look-ups go through the index alone. That the index and
the entries agree is part of the type, so a position that is found always has an entry.
-/
namespace DocRefs

open Std (HashMap)

variable {κ ν : Type} [BEq κ] [Hashable κ]

/-- The index gives every key of an entry its position, and has no other keys. -/
def Indexes (positions : HashMap κ Nat) (entries : Array (κ × ν)) : Prop :=
  ∀ (key : κ) (i : Nat),
    positions[key]? = some i ↔ (entries[i]?.any fun entry => entry.1 == key) = true

structure IndexedMap (κ ν : Type) [BEq κ] [Hashable κ] where
  entries : Array (κ × ν)
  positions : HashMap κ Nat
  indexes : Indexes positions entries

namespace Indexes

variable {positions : HashMap κ Nat} {entries : Array (κ × ν)}

theorem lt_size (indexes : Indexes positions entries) {key : κ} {i : Nat}
    (found : positions[key]? = some i) : i < entries.size := by
  have there := (indexes key i).mp found
  by_contra beyond
  simp [Array.getElem?_eq_none (Nat.le_of_not_lt beyond)] at there

/-- A value takes the place of another; the key stays as it is. -/
theorem set (indexes : Indexes positions entries) {i : Nat} (within : i < entries.size)
    (value : ν) : Indexes positions (entries.set i (entries[i].1, value)) := by
  intro key j
  rw [indexes key j, Array.getElem?_set]
  by_cases here : i = j
  · subst here
    simp [within]
  · rw [if_neg here]

variable [EquivBEq κ] [LawfulHashable κ]

/-- An entry is added under a key that has none. -/
theorem push (indexes : Indexes positions entries) {key : κ} (new : positions[key]? = none)
    (value : ν) :
    Indexes (positions.insert key entries.size) (entries.push (key, value)) := by
  intro other j
  rw [HashMap.getElem?_insert, Array.getElem?_push]
  by_cases same : (key == other) = true
  · -- No earlier entry is under this key, so it has the new position only.
    have absent : (entries[j]?.any fun entry => entry.1 == other) = false := by
      rw [← Bool.not_eq_true, ← indexes other j, ← HashMap.getElem?_congr same, new]
      simp
    rw [if_pos same, Option.some.injEq]
    by_cases last : j = entries.size
    · simp [same, last]
    · simp [last, absent, Ne.symm last]
  · rw [if_neg same]
    by_cases last : j = entries.size
    · have beyond : positions[other]? ≠ some j := fun found =>
        absurd last (Nat.ne_of_lt (indexes.lt_size found))
      rw [if_pos last]
      exact iff_of_false beyond same
    · rw [if_neg last, indexes other j]

end Indexes

namespace IndexedMap

def empty : IndexedMap κ ν := ⟨#[], ∅, by simp [Indexes]⟩

instance : Inhabited (IndexedMap κ ν) := ⟨empty⟩

/-- The position of the entry of a key. -/
def position? (m : IndexedMap κ ν) (key : κ) : Option (Fin m.entries.size) :=
  match found : m.positions[key]? with
  | some i => some ⟨i, m.indexes.lt_size found⟩
  | none => none

theorem position?_eq_some_iff {m : IndexedMap κ ν} {key : κ} {i : Fin m.entries.size} :
    m.position? key = some i ↔ m.positions[key]? = some i.val := by
  unfold position?
  split
  next j found =>
    rw [Option.some.injEq, Fin.ext_iff]
    dsimp only
    rw [found, Option.some.injEq]
  next missing => simp [missing]

theorem position?_eq_none_iff {m : IndexedMap κ ν} {key : κ} :
    m.position? key = none ↔ m.positions[key]? = none := by
  unfold position?
  split <;> simp [*]

/-- The entry of a key, with the key as it was first put in. -/
def entry? (m : IndexedMap κ ν) (key : κ) : Option (κ × ν) :=
  (m.position? key).map fun i => m.entries[i]

def get? (m : IndexedMap κ ν) (key : κ) : Option ν :=
  (m.position? key).map fun i => m.entries[i].2

def contains (m : IndexedMap κ ν) (key : κ) : Bool := m.positions.contains key

/-- The entry at a place in the row. -/
def entryAt? (m : IndexedMap κ ν) (i : Nat) : Option (κ × ν) := m.entries[i]?

def size (m : IndexedMap κ ν) : Nat := m.entries.size

def toList (m : IndexedMap κ ν) : List (κ × ν) := m.entries.toList

instance [BEq ν] : BEq (IndexedMap κ ν) := ⟨fun a b => a.entries == b.entries⟩

/-- Puts a value in place of the one at a position. -/
def replaceAt (m : IndexedMap κ ν) (i : Fin m.entries.size) (value : ν) : IndexedMap κ ν :=
  ⟨m.entries.set i (m.entries[i].1, value), m.positions, m.indexes.set i.isLt value⟩

/-- Changes the value under a key, if there is one. -/
def update (m : IndexedMap κ ν) (key : κ) (change : ν → ν) : IndexedMap κ ν :=
  match m.position? key with
  | some i => m.replaceAt i (change m.entries[i].2)
  | none => m

variable [EquivBEq κ] [LawfulHashable κ]

/-- Puts a value at the end of the row, under a key that has no position yet. -/
def append (m : IndexedMap κ ν) (key : κ) (value : ν) (new : m.position? key = none) :
    IndexedMap κ ν :=
  ⟨m.entries.push (key, value), m.positions.insert key m.entries.size,
    m.indexes.push (position?_eq_none_iff.mp new) value⟩

/-- Puts a value under a key and says which value was there. -/
def exchange (m : IndexedMap κ ν) (key : κ) (value : ν) : Option ν × IndexedMap κ ν :=
  match place : m.position? key with
  | some i => (some m.entries[i].2, m.replaceAt i value)
  | none => (none, m.append key value place)

/-- The map of some pairs, put in one after another. -/
def ofList (pairs : List (κ × ν)) : IndexedMap κ ν :=
  pairs.foldl (fun m pair => (m.exchange pair.1 pair.2).2) empty

end IndexedMap

end DocRefs
