import Mathlib.Algebra.Order.Floor.Ring
import Mathlib.Algebra.Order.Field.Basic
import Mathlib.Tactic.Linarith
import Mathlib.Tactic.NormNum
import Mathlib.Tactic.Ring

/-!
# Rounding toward zero and rounding half away from zero

The two ways a number is turned into an integer by a truncating conversion and
by `round`. They agree where the fractional part is below one half. Behind a
saturation they also agree beyond its limits.
-/

namespace Rounding

variable {k : Type*} [Field k] [LinearOrder k] [IsStrictOrderedRing k] [FloorRing k]

/-- Rounding toward zero. -/
def truncate (x : k) : ℤ := if 0 ≤ x then ⌊x⌋ else ⌈x⌉

/-- Rounding to the nearest integer, halves away from zero. -/
def halfAway (x : k) : ℤ := if 0 ≤ x then ⌊x + 1 / 2⌋ else ⌈x - 1 / 2⌉

/-- The nearest integer between two limits. -/
def saturate (low high i : ℤ) : ℤ := if high < i then high else if i < low then low else i

/-- Rounding toward zero is odd. -/
theorem truncate_neg (x : k) : truncate (-x) = -truncate x := by
  rcases lt_trichotomy x 0 with hneg | rfl | hpos
  · rw [truncate, truncate, if_pos (by linarith), if_neg (by linarith), Int.floor_neg]
  · simp [truncate]
  · rw [truncate, truncate, if_neg (by linarith), if_pos hpos.le, Int.ceil_neg]

/-- Rounding half away from zero is odd. -/
theorem halfAway_neg (x : k) : halfAway (-x) = -halfAway x := by
  rcases lt_trichotomy x 0 with hneg | rfl | hpos
  · rw [halfAway, halfAway, if_pos (by linarith), if_neg (by linarith), ← Int.floor_neg]
    congr 1
    ring
  · have hhalf : ⌊(0 + 1 / 2 : k)⌋ = 0 := Int.floor_eq_iff.mpr ⟨by norm_num, by norm_num⟩
    rw [neg_zero, halfAway, if_pos le_rfl, hhalf, neg_zero]
  · rw [halfAway, halfAway, if_neg (by linarith), if_pos hpos.le, ← Int.ceil_neg]
    congr 1
    ring

/-- Saturation between opposite limits. -/
theorem saturate_neg {low high : ℤ} (hle : low ≤ high) (i : ℤ) :
    saturate low high (-i) = -saturate (-high) (-low) i := by
  simp only [saturate]
  split_ifs <;> omega

/-- Above zero a number is rounded to its floor or to the next integer. -/
theorem halfAway_of_nonneg {x : k} (hx : 0 ≤ x) :
    (|x - truncate x| < 1 / 2 ∧ halfAway x = truncate x) ∨
      (¬ |x - truncate x| < 1 / 2 ∧ halfAway x = truncate x + 1) := by
  have htrunc : truncate x = ⌊x⌋ := if_pos hx
  have hfract : |x - ⌊x⌋| = Int.fract x := by
    rw [Int.self_sub_floor, abs_of_nonneg (Int.fract_nonneg x)]
  have hlow := Int.floor_le x
  have hhigh := Int.lt_floor_add_one x
  rw [htrunc, hfract, halfAway, if_pos hx, ← Int.self_sub_floor]
  by_cases hhalf : x - ⌊x⌋ < 1 / 2
  · refine .inl ⟨hhalf, Int.floor_eq_iff.mpr ⟨by linarith, by linarith⟩⟩
  · refine .inr ⟨hhalf, Int.floor_eq_iff.mpr ⟨?_, ?_⟩⟩
    · push_cast
      linarith
    · push_cast
      linarith

/-- Above zero, the two roundings agree behind a saturation where the fractional part is below
one half and from the upper limit on. -/
theorem saturate_eq_iff_of_nonneg {low : ℤ} (hlow : low ≤ 0) (high : ℤ) {x : k}
    (hx : 0 ≤ x) :
    saturate low high (truncate x) = saturate low high (halfAway x) ↔
      |x - truncate x| < 1 / 2 ∨ (high : k) ≤ x := by
  have hpos : 0 ≤ truncate x := by
    rw [truncate, if_pos hx]
    exact Int.floor_nonneg.mpr hx
  have hlimit : (high : k) ≤ x ↔ high ≤ truncate x := by
    rw [truncate, if_pos hx, Int.le_floor]
  rw [hlimit]
  rcases halfAway_of_nonneg hx with ⟨hhalf, heq⟩ | ⟨hhalf, heq⟩
  · rw [heq]
    exact iff_of_true rfl (.inl hhalf)
  · rw [heq]
    simp only [hhalf, false_or, saturate]
    split_ifs <;> omega

/-- **Where truncation and rounding agree behind a saturation**: where the fractional part is
below one half, and beyond the limits. -/
theorem saturate_truncate_eq_iff {low high : ℤ} (hlow : low ≤ 0) (hhigh : 0 ≤ high) (x : k) :
    saturate low high (truncate x) = saturate low high (halfAway x) ↔
      |x - truncate x| < 1 / 2 ∨ (high : k) ≤ x ∨ x ≤ low := by
  rcases le_or_gt 0 x with hx | hx
  · rw [saturate_eq_iff_of_nonneg hlow high hx]
    have hzero : x ≤ low → |x - truncate x| < 1 / 2 := by
      intro hxlow
      have hlow' : (low : k) ≤ 0 := by exact_mod_cast hlow
      obtain rfl : x = 0 := le_antisymm (hxlow.trans hlow') hx
      simp [truncate]
    tauto
  · -- Below zero the limits change places.
    have hneg := saturate_eq_iff_of_nonneg (neg_nonpos.mpr hhigh) (-low) (neg_nonneg.mpr hx.le)
    have hdist : -x - ((-truncate x : ℤ) : k) = -(x - truncate x) := by
      push_cast
      ring
    have hle : -high ≤ -low := by omega
    have hnot : ¬ (high : k) ≤ x := by
      have hhigh' : (0 : k) ≤ high := by exact_mod_cast hhigh
      linarith
    rw [truncate_neg, halfAway_neg, saturate_neg hle, saturate_neg hle, neg_neg, neg_neg, neg_inj,
      hdist, abs_neg, Int.cast_neg, neg_le_neg_iff] at hneg
    rw [hneg]
    tauto

end Rounding
