import DocRefs.Digest.Engine
import DocRefs.Proofs.Text.Utf8
import Mathlib.Algebra.Ring.Nat
import Mathlib.Data.List.Perm.Basic

/-!
# Bytes that can be read back

What the engine writes for a node determines what it was written from: texts have their lengths in
front, digests are all of one width, and the pairs of a mapping are in order.
-/
namespace DocRefs

open scoped List

/-! ### Numbers -/

@[simp] theorem length_littleEndian (count n : Nat) : (littleEndian count n).length = count := by
  simp [littleEndian]

theorem littleEndian_injective {m n count : Nat} (small : m < 256 ^ count) (other : n < 256 ^ count)
    (same : littleEndian count m = littleEndian count n) : m = n := by
  have digits : ∀ i < count, m / 256 ^ i % 256 = n / 256 ^ i % 256 := by
    intro i bound
    have here := congrArg (·[i]?) same
    simp only [littleEndian, List.getElem?_map, List.getElem?_range bound, Option.map_some,
      Option.some.injEq] at here
    have value := congrArg UInt8.toNat here
    simpa using value
  -- The digits up to any place determine the number up to there.
  have upTo : ∀ k ≤ count, m % 256 ^ k = n % 256 ^ k := by
    intro k
    induction k with
    | zero => intro; simp [Nat.mod_one]
    | succ k ih =>
      intro bound
      rw [Nat.mod_pow_succ, Nat.mod_pow_succ, ih (by omega), digits k (by omega)]
  have whole := upTo count (Nat.le_refl _)
  rwa [Nat.mod_eq_of_lt small, Nat.mod_eq_of_lt other] at whole

namespace Engine

/-! ### Scalars -/

theorem sized_append_injective {s t : String} {rest more : List UInt8}
    (small : (utf8Bytes s).length < 256 ^ 8) (other : (utf8Bytes t).length < 256 ^ 8)
    (same : sized s ++ rest = sized t ++ more) : s = t ∧ rest = more := by
  simp only [sized, List.append_assoc] at same
  obtain ⟨lengths, same⟩ := List.append_inj same (by simp)
  obtain ⟨texts, rests⟩ := List.append_inj same (littleEndian_injective small other lengths)
  exact ⟨utf8Bytes_injective texts, rests⟩

/-- The text is the last that is written, so it may be of any length. -/
theorem scalarBytes_injective {tag text otherTag otherText : String}
    (small : (utf8Bytes tag).length < 256 ^ 8) (other : (utf8Bytes otherTag).length < 256 ^ 8)
    (same : scalarBytes tag text = scalarBytes otherTag otherText) :
    tag = otherTag ∧ text = otherText := by
  simp only [scalarBytes, List.append_assoc] at same
  obtain ⟨tags, texts⟩ := sized_append_injective small other (List.append_cancel_left same)
  simp only [sized] at texts
  obtain ⟨_, texts⟩ := List.append_inj texts (by simp)
  exact ⟨tags, utf8Bytes_injective texts⟩

/-! ### Digests -/

theorem flatten_injective {α : Type} (width : Nat) (positive : 0 < width) {xs ys : List (List α)}
    (wide : ∀ x ∈ xs, x.length = width) (others : ∀ y ∈ ys, y.length = width)
    (same : xs.flatten = ys.flatten) : xs = ys := by
  induction xs generalizing ys with
  | nil =>
    cases ys with
    | nil => rfl
    | cons y ys =>
      have long := others y (by simp)
      have lengths := congrArg List.length same
      simp only [List.flatten_nil, List.length_nil, List.flatten_cons,
        List.length_append] at lengths
      omega
  | cons x xs ih =>
    obtain ⟨long, wide⟩ := List.forall_mem_cons.mp wide
    cases ys with
    | nil =>
      have lengths := congrArg List.length same
      simp only [List.flatten_nil, List.length_nil, List.flatten_cons,
        List.length_append] at lengths
      omega
    | cons y ys =>
      obtain ⟨otherLong, others⟩ := List.forall_mem_cons.mp others
      simp only [List.flatten_cons] at same
      obtain ⟨first, rest⟩ := List.append_inj same (long.trans otherLong.symm)
      rw [first, ih wide others rest]

/-- A digest as SHA-256 makes them. -/
def Wide (d : Digest) : Prop := d.bytes.length = 32

theorem listBytes_injective {mark : String} {ds es : List Digest} (wide : ∀ d ∈ ds, Wide d)
    (others : ∀ e ∈ es, Wide e) (same : listBytes mark ds = listBytes mark es) : ds = es := by
  simp only [listBytes, List.append_assoc] at same
  obtain ⟨_, digests⟩ := List.append_inj (List.append_cancel_left same) (by simp)
  have bytes : ds.map Digest.bytes = es.map Digest.bytes := by
    apply flatten_injective 32 (by omega)
    · simpa [Wide] using wide
    · simpa [Wide] using others
    · simpa [List.flatMap] using digests
  exact List.map_injective_iff.mpr (fun d e h => by cases d; cases e; simpa using h) bytes

/-- The bytes of a pair. -/
def row (p : Digest × Digest) : List UInt8 := p.1.bytes ++ p.2.bytes

def unrow (bytes : List UInt8) : Digest × Digest := (⟨bytes.take 32⟩, ⟨bytes.drop 32⟩)

theorem unrow_row {p : Digest × Digest} (wide : Wide p.1) : unrow (row p) = p := by
  simp [unrow, row, wide.symm]

/-- What is put in order is the same exactly if it was in another order. -/
theorem mergeSort_eq_iff {α : Type} [LE α] [DecidableLE α] [Std.IsLinearOrder α] {xs ys : List α} :
    (xs.mergeSort fun a b => decide (a ≤ b)) = (ys.mergeSort fun a b => decide (a ≤ b)) ↔
      xs ~ ys := by
  have sorted : ∀ zs : List α,
      (zs.mergeSort fun a b => decide (a ≤ b)).Pairwise fun a b => decide (a ≤ b) = true := by
    intro zs
    apply List.pairwise_mergeSort
    · intro a b c first second
      simp only [decide_eq_true_eq] at first second ⊢
      exact Std.le_trans first second
    · intro a b
      simpa using Std.le_total
  constructor
  · intro same
    exact (List.mergeSort_perm xs _).symm.trans (same ▸ List.mergeSort_perm ys _)
  · intro order
    refine List.Perm.eq_of_pairwise ?_ (sorted xs) (sorted ys)
      ((List.mergeSort_perm xs _).trans (order.trans (List.mergeSort_perm ys _).symm))
    intro a b _ _ first second
    simp only [decide_eq_true_eq] at first second
    exact Std.le_antisymm first second

theorem pairsBytes_eq (ps : List (Digest × Digest)) :
    pairsBytes ps = utf8Bytes "M" ++ littleEndian 8 ps.length ++
      ((ps.map row).mergeSort fun a b => decide (a ≤ b)).flatten := rfl

theorem pairsBytes_of_perm {ps qs : List (Digest × Digest)} (order : ps ~ qs) :
    pairsBytes ps = pairsBytes qs := by
  rw [pairsBytes_eq, pairsBytes_eq, mergeSort_eq_iff.mpr (order.map row), order.length_eq]

/-- The bytes of the pairs of a mapping are those of the pairs in any order, and of no others. -/
theorem pairsBytes_eq_iff {ps qs : List (Digest × Digest)}
    (wide : ∀ p ∈ ps, Wide p.1 ∧ Wide p.2) (others : ∀ q ∈ qs, Wide q.1 ∧ Wide q.2) :
    pairsBytes ps = pairsBytes qs ↔ ps ~ qs := by
  have long : ∀ rs : List (Digest × Digest), (∀ r ∈ rs, Wide r.1 ∧ Wide r.2) →
      ∀ bytes ∈ (rs.map row).mergeSort fun a b => decide (a ≤ b), bytes.length = 64 := by
    intro rs wide bytes member
    obtain ⟨r, there, rfl⟩ := List.mem_map.mp (List.mem_mergeSort.mp member)
    obtain ⟨first, second⟩ := wide r there
    rw [row, List.length_append, first, second]
  have unrows : ∀ rs : List (Digest × Digest), (∀ r ∈ rs, Wide r.1 ∧ Wide r.2) →
      (rs.map row).map unrow = rs := by
    intro rs wide
    rw [List.map_map]
    exact (List.map_congr_left fun r there => unrow_row (wide r there).1).trans (List.map_id rs)
  refine ⟨fun same => ?_, pairsBytes_of_perm⟩
  simp only [pairsBytes_eq, List.append_assoc] at same
  obtain ⟨_, rows⟩ := List.append_inj (List.append_cancel_left same) (by simp)
  -- The rows are of one width, so they can be cut apart; sorting them has only moved them.
  have order := mergeSort_eq_iff.mp
    (flatten_injective 64 (by omega) (long ps wide) (long qs others) rows)
  simpa only [unrows ps wide, unrows qs others] using order.map unrow

end Engine

end DocRefs
