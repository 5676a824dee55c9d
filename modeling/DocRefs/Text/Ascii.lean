/-!
# Comparing text without regard to ASCII case

Only the letters A to Z are folded; every other character stands for itself. The two comparisons
are equalities of folded texts, so they are equivalences by construction.
-/
namespace DocRefs.Text

/-- What holds of every ASCII character is checked code by code. -/
theorem forall_ascii {P : Char → Prop} (checked : ∀ code < 128, P (Char.ofNat code)) {c : Char}
    (ascii : c.toNat < 128) : P c := by
  have found := checked c.toNat ascii
  rwa [Char.ofNat_toNat] at found

theorem toLower_of_not_ascii {c : Char} (other : 128 ≤ c.toNat) : c.toLower = c := by
  have beyond : ¬ (c.val ≥ 'A'.val ∧ c.val ≤ 'Z'.val) := by
    rintro ⟨_, upTo⟩
    have code : c.toNat ≤ 90 := UInt32.le_iff_toNat_le.mp upTo
    omega
  exact dif_neg beyond

/-- The text with its ASCII capitals lowered. -/
def fold (text : String) : List Char := text.toList.map Char.toLower

/-- The texts are equal up to ASCII case. -/
def equalFold (a b : String) : Bool := fold a == fold b

/-- `text` begins with `start`, up to ASCII case. -/
def startsWithFold (text start : String) : Bool := (fold start).isPrefixOf (fold text)

@[simp] theorem equalFold_refl (a : String) : equalFold a a = true := by simp [equalFold]

theorem equalFold_iff {a b : String} : equalFold a b = true ↔ fold a = fold b := by
  simp [equalFold]

theorem equalFold_comm (a b : String) : equalFold a b = equalFold b a := by
  rw [Bool.eq_iff_iff, equalFold_iff, equalFold_iff, eq_comm]

theorem startsWithFold_iff {text start : String} :
    startsWithFold text start = true ↔ fold start <+: fold text := by
  simp [startsWithFold]

end DocRefs.Text
