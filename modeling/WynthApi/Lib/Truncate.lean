import Mathlib.Data.Rat.Floor
import Mathlib.Algebra.Order.Field.Basic
import Mathlib.Tactic.Linarith

/-!
# Conversion of a number to an integer, towards zero
-/

namespace Truncate

open Int

variable (x : ℚ)

def truncate : ℤ := if 0 ≤ x then ⌊x⌋ else ⌈x⌉

variable (n : ℤ)

@[simp] theorem truncate_intCast : truncate n = n := by
  unfold truncate
  split_ifs
  · exact floor_intCast n
  · exact ceil_intCast n

theorem truncate_mem {x : ℚ} {lo hi : ℤ} (hlo : (lo : ℚ) < x) (hhi : x < hi) (h0 : lo < 0)
    (h1 : 0 < hi) : lo < truncate x ∧ truncate x < hi := by
  unfold truncate
  split_ifs with hx
  · have hnonneg : 0 ≤ ⌊x⌋ := floor_nonneg.mpr hx
    exact ⟨by omega, floor_lt.mpr hhi⟩
  · have hneg : ⌈x⌉ ≤ 0 := ceil_le.mpr (by exact_mod_cast (not_le.mp hx).le)
    exact ⟨lt_ceil.mpr hlo, by omega⟩

theorem truncate_nonpos {x : ℚ} (h : x ≤ 0) : truncate x ≤ 0 := by
  unfold truncate
  split_ifs with hx
  · rw [le_antisymm h hx, floor_zero]
  · exact ceil_le.mpr (by exact_mod_cast h)

theorem truncate_nonneg_iff : 0 ≤ truncate x ↔ -1 < x := by
  unfold truncate
  split_ifs with hx
  · have hfloor : 0 ≤ ⌊x⌋ := floor_nonneg.mpr hx
    exact ⟨fun _ => by linarith, fun _ => hfloor⟩
  · constructor
    · intro h
      have hlt : (-1 : ℤ) < ⌈x⌉ := by omega
      exact_mod_cast lt_ceil.mp hlt
    · intro h
      have hlt : (-1 : ℤ) < ⌈x⌉ := lt_ceil.mpr (by exact_mod_cast h)
      omega

theorem le_truncate_iff {x : ℚ} {n : ℤ} (hn : 0 < n) : n ≤ truncate x ↔ (n : ℚ) ≤ x := by
  unfold truncate
  split_ifs with hx
  · exact le_floor
  · have hneg : ⌈x⌉ ≤ 0 := ceil_le.mpr (by exact_mod_cast (not_le.mp hx).le)
    have hn' : (0 : ℚ) < n := by exact_mod_cast hn
    exact iff_of_false (by omega) (by linarith)

/-- Two numbers have the same whole part, one of them counted as zero if negative, exactly if no positive whole number
is between them. -/
theorem max_truncate_eq_iff {x y : ℚ} : max (truncate x) 0 = truncate y ↔
    -1 < y ∧ ∀ n : ℤ, 0 < n → ((n : ℚ) ≤ x ↔ (n : ℚ) ≤ y) := by
  rw [← truncate_nonneg_iff]
  constructor
  · intro h
    refine ⟨by omega, fun n hn => ?_⟩
    rw [← le_truncate_iff hn, ← le_truncate_iff hn]
    omega
  · rintro ⟨hy, h⟩
    have hx (hpos : 0 < truncate x) := (le_truncate_iff hpos).mpr ((h _ hpos).mp ((le_truncate_iff hpos).mp le_rfl))
    have hy' (hpos : 0 < truncate y) := (le_truncate_iff hpos).mpr ((h _ hpos).mpr ((le_truncate_iff hpos).mp le_rfl))
    omega

/-- **Scaling**: a positive factor `P` leaves an integer alone after truncation exactly if it adds
less than one to its size. -/
theorem truncate_mul_eq_iff {P : ℚ} (hP : 0 < P) :
    truncate (n * P) = n ↔ 0 ≤ |(n : ℚ)| * (P - 1) ∧ |(n : ℚ)| * (P - 1) < 1 := by
  unfold truncate
  rcases lt_trichotomy n 0 with hn | rfl | hn
  · have hn' : (n : ℚ) < 0 := by exact_mod_cast hn
    have hneg : ¬ 0 ≤ (n : ℚ) * P := not_le.mpr (mul_neg_of_neg_of_pos hn' hP)
    rw [if_neg hneg, ceil_eq_iff, abs_of_neg hn']
    constructor
    · rintro ⟨h1, h2⟩
      constructor <;> linarith
    · rintro ⟨h1, h2⟩
      constructor <;> linarith
  · simp
  · have hn' : 0 < (n : ℚ) := by exact_mod_cast hn
    have hpos : 0 ≤ (n : ℚ) * P := (mul_pos hn' hP).le
    rw [if_pos hpos, floor_eq_iff, abs_of_pos hn']
    constructor
    · rintro ⟨h1, h2⟩
      constructor <;> linarith
    · rintro ⟨h1, h2⟩
      constructor <;> linarith

end Truncate
