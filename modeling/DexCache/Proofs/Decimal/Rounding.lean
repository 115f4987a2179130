import DexCache.Decimal.Double
import Mathlib.Algebra.Order.Field.Basic
import Mathlib.Algebra.Order.Field.Power
import Mathlib.Data.Int.Log
import Mathlib.Data.Rat.Floor
import Mathlib.Tactic.Positivity

/-!
# Rounding to the nearest double

The nearest index of a quotient depends on the value of the quotient alone, the nearest index
of a magnitude is the magnitude's own, and the index read off a decimal depends on the value
of the decimal alone.
-/

namespace DexCache.Double

section Scaling

variable {num den c : Nat}

theorem roundHalfEven_mul (hc : 0 < c) :
    roundHalfEven (num * c) (den * c) = roundHalfEven num den := by
  have hscale (a b : Nat) : a * c < b * c ↔ a < b := Nat.mul_lt_mul_right hc
  unfold roundHalfEven
  rw [Nat.mul_div_mul_right _ _ hc, Nat.mul_mod_mul_right, ← Nat.mul_assoc]
  simp only [hscale]

theorem roundHalfEven_one (num : Nat) : roundHalfEven num 1 = num := by
  simp [roundHalfEven, Nat.mod_one]

theorem shifted_mul (shift : Int) :
    shifted (num * c) (den * c) shift =
      ((shifted num den shift).1 * c, (shifted num den shift).2 * c) := by
  unfold shifted
  split
  · simp only [Nat.mul_right_comm]
  · simp only [Nat.mul_right_comm]

theorem shifted_pos (hden : 0 < den) (shift : Int) : 0 < (shifted num den shift).2 := by
  unfold shifted
  split
  · exact Nat.mul_pos hden (Nat.two_pow_pos _)
  · exact hden

theorem cast_two_pow {shift : Int} (h : 0 ≤ shift) :
    ((Nat.pow 2 shift.toNat : Nat) : ℚ) = 2 ^ shift := by
  rw [Nat.pow_eq, Nat.cast_pow, ← zpow_natCast, Int.toNat_of_nonneg h]
  rfl

/-- Shifting multiplies the value of a quotient by a power of two. -/
theorem cast_shifted (num den : Nat) (shift : Int) :
    ((shifted num den shift).1 : ℚ) / (shifted num den shift).2 = num / den * 2 ^ shift := by
  unfold shifted
  split
  · next hneg =>
      simp only [Nat.cast_mul]
      rw [cast_two_pow (by omega), zpow_neg, ← div_div, div_inv_eq_mul]
  · next hpos =>
      simp only [Nat.cast_mul]
      rw [cast_two_pow (by omega), mul_div_right_comm]

/-- The binary exponent of a quotient is the logarithm of its value. -/
theorem floorLog2_eq_log (hnum : 0 < num) (hden : 0 < den) :
    floorLog2 num den = Int.log 2 ((num : ℚ) / den) := by
  let k := (num.log2 : Int) - den.log2
  have hvalue : (0 : ℚ) < num / den := by positivity
  have hnumLow := Nat.log2_self_le hnum.ne'
  have hnumHigh := (Nat.log2_lt hnum.ne').1 (Nat.lt_succ_self _)
  have hdenLow := Nat.log2_self_le hden.ne'
  have hdenHigh := (Nat.log2_lt hden.ne').1 (Nat.lt_succ_self _)
  -- The bit lengths tell the exponent up to one: the value lies between `2 ^ (k - 1)` and
  -- `2 ^ (k + 1)`.
  have hlow : (2 : ℚ) ^ (k - 1) ≤ num / den := by
    have hsplit : (2 : ℚ) ^ (k - 1) = 2 ^ num.log2 / 2 ^ (den.log2 + 1) := by
      rw [← zpow_natCast, ← zpow_natCast, ← zpow_sub₀ two_ne_zero]
      congr 1
      push_cast
      omega
    rw [hsplit]
    exact div_le_div₀ (Nat.cast_nonneg _) (by exact_mod_cast hnumLow)
      (by exact_mod_cast hden) (by exact_mod_cast hdenHigh.le)
  have hhigh : (num / den : ℚ) < 2 ^ (k + 1) := by
    have hsplit : (2 : ℚ) ^ (k + 1) = 2 ^ (num.log2 + 1) / 2 ^ den.log2 := by
      rw [← zpow_natCast, ← zpow_natCast, ← zpow_sub₀ two_ne_zero]
      congr 1
      push_cast
      omega
    rw [hsplit]
    exact div_lt_div₀ (by exact_mod_cast hnumHigh) (by exact_mod_cast hdenLow)
      (by positivity) (by positivity)
  -- The comparison of the shifted parts decides between the two halves.
  have hpos : (0 : ℚ) < (shifted num den (-k)).2 := by exact_mod_cast shifted_pos hden (-k)
  have hsmall : (shifted num den (-k)).1 < (shifted num den (-k)).2 ↔ (num / den : ℚ) < 2 ^ k := by
    rw [← Nat.cast_lt (α := ℚ), ← div_lt_one hpos, cast_shifted, zpow_neg, ← div_eq_mul_inv,
      div_lt_one (by positivity)]
  have hfloor : floorLog2 num den =
      if (shifted num den (-k)).1 < (shifted num den (-k)).2 then k - 1 else k := rfl
  rw [hfloor]
  refine le_antisymm ?_ ?_
  · rw [← Int.zpow_le_iff_le_log Nat.one_lt_two hvalue]
    split
    · exact hlow
    · next hlarge => exact not_lt.1 (mt hsmall.2 hlarge)
  · rw [← Int.lt_add_one_iff, ← Int.lt_zpow_iff_log_lt Nat.one_lt_two hvalue]
    split
    · next hless => simpa using hsmall.1 hless
    · exact hhigh

/-- The nearest index does not depend on how a quotient is written. -/
theorem nearestIndex_mul (hden : 0 < den) (hc : 0 < c) :
    nearestIndex (num * c) (den * c) = nearestIndex num den := by
  rcases Nat.eq_zero_or_pos num with rfl | hnum
  · simp [nearestIndex]
  -- The grid depends on the value, and on one grid the common factor cancels.
  · have hgrid : gridScale (num * c) (den * c) = gridScale num den := by
      have hne : (c : ℚ) ≠ 0 := by exact_mod_cast hc.ne'
      rw [gridScale, gridScale, floorLog2_eq_log (Nat.mul_pos hnum hc) (Nat.mul_pos hden hc),
        floorLog2_eq_log hnum hden]
      push_cast
      rw [mul_div_mul_right _ _ hne]
    have hboth : num * c ≠ 0 := (Nat.mul_pos hnum hc).ne'
    unfold nearestIndex
    rw [if_neg hboth, if_neg hnum.ne', hgrid]
    simp only [shifted_mul]
    rw [roundHalfEven_mul hc]

end Scaling

section Magnitudes

variable {index : Nat}

theorem significand_lt (index : Nat) : significand index < 2 * binade := by
  have hrest := Nat.mod_lt index (show 0 < binade by decide)
  unfold significand
  split <;> omega

theorem binade_le_significand (h : binade ≤ index) : binade ≤ significand index := by
  rw [significand, if_neg (Nat.not_lt.2 h)]
  exact Nat.le_add_right _ _

/-- A magnitude is told by its scale and its significand. -/
theorem scale_mul_add_significand (index : Nat) :
    scale index * binade + significand index = index := by
  have hsplit := Nat.div_add_mod index binade
  unfold scale significand
  split
  · next hsmall => simp [Nat.div_eq_of_lt hsmall]
  · next hlarge =>
      have hpos : 1 ≤ index / binade :=
        (Nat.one_le_div_iff (by decide)).2 (Nat.not_lt.1 hlarge)
      obtain ⟨q, hq⟩ := Nat.exists_eq_add_of_le hpos
      rw [hq, Nat.mul_add, Nat.mul_one] at hsplit
      rw [hq, Nat.add_sub_cancel_left, Nat.mul_comm q]
      omega

theorem scale_eq_zero (h : index < binade) : scale index = 0 := by
  rw [scale, Nat.div_eq_of_lt h]

theorem significand_pos (h : 0 < index) : 0 < significand index := by
  unfold significand
  split
  · exact h
  · exact Nat.lt_of_lt_of_le (by decide) (Nat.le_add_right _ _)

theorem ratio_pos (index : Nat) : 0 < (ratio index).2 := by
  unfold ratio
  split
  · exact Nat.two_pow_pos _
  · exact Nat.one_pos

theorem ratio_ne_zero (h : 0 < index) : (ratio index).1 ≠ 0 := by
  unfold ratio
  split
  · exact (significand_pos h).ne'
  · exact (Nat.mul_pos (significand_pos h) (Nat.two_pow_pos _)).ne'

/-- The value of a magnitude. -/
theorem cast_ratio (index : Nat) :
    ((ratio index).1 : ℚ) / (ratio index).2 =
      significand index * 2 ^ ((scale index : Int) - 1074) := by
  have hpow (a b : Nat) (h : b ≤ a) : ((Nat.pow 2 (a - b) : Nat) : ℚ) = 2 ^ ((a : Int) - b) := by
    rw [Nat.pow_eq, Nat.cast_pow, ← zpow_natCast, Nat.cast_sub h]
    rfl
  unfold ratio
  split
  · next hsmall =>
      rw [hpow _ _ hsmall.le, div_eq_mul_inv, ← zpow_neg, neg_sub]
      rfl
  · next hlarge =>
      rw [Nat.cast_one, div_one, Nat.cast_mul, hpow _ _ (Nat.not_lt.1 hlarge)]
      rfl

/-- A magnitude lies on its own grid. -/
theorem gridScale_ratio (h : 0 < index) :
    gridScale (ratio index).1 (ratio index).2 = scale index := by
  have hvalue : (0 : ℚ) < significand index * 2 ^ ((scale index : Int) - 1074) := by
    have hpos : (0 : ℚ) < significand index := by exact_mod_cast significand_pos h
    positivity
  have hscaled (exponent : Int) : (2 : ℚ) ^ (exponent + ((scale index : Int) - 1074)) =
      2 ^ exponent * 2 ^ ((scale index : Int) - 1074) := zpow_add₀ two_ne_zero _ _
  have hupper : Int.log 2 (significand index * 2 ^ ((scale index : Int) - 1074) : ℚ) <
      53 + ((scale index : Int) - 1074) := by
    rw [← Int.lt_zpow_iff_log_lt Nat.one_lt_two hvalue, Nat.cast_ofNat, hscaled]
    refine mul_lt_mul_of_pos_right ?_ (by positivity)
    exact_mod_cast significand_lt index
  rw [gridScale, floorLog2_eq_log (Nat.pos_of_ne_zero (ratio_ne_zero h)) (ratio_pos index),
    cast_ratio]
  -- Subnormal magnitudes share the grid of the smallest normal ones.
  rcases Nat.lt_or_ge index binade with hsmall | hlarge
  · have hstrict : Int.log 2 (significand index * 2 ^ ((scale index : Int) - 1074) : ℚ) <
        52 + ((scale index : Int) - 1074) := by
      rw [← Int.lt_zpow_iff_log_lt Nat.one_lt_two hvalue, Nat.cast_ofNat, hscaled]
      refine mul_lt_mul_of_pos_right ?_ (by positivity)
      rw [significand, if_pos hsmall]
      exact_mod_cast hsmall
    rw [scale_eq_zero hsmall] at hstrict ⊢
    omega
  · have hlower : 52 + ((scale index : Int) - 1074) ≤
        Int.log 2 (significand index * 2 ^ ((scale index : Int) - 1074) : ℚ) := by
      rw [← Int.zpow_le_iff_le_log Nat.one_lt_two hvalue, Nat.cast_ofNat, hscaled]
      refine mul_le_mul_of_nonneg_right ?_ (by positivity)
      exact_mod_cast binade_le_significand hlarge
    omega

/-- Each magnitude is the nearest one to its own value. -/
theorem nearestIndex_ratio (index : Nat) :
    nearestIndex (ratio index).1 (ratio index).2 = index := by
  rcases Nat.eq_zero_or_pos index with rfl | hpos
  · rfl
  · have hrounded : roundHalfEven
        (shifted (ratio index).1 (ratio index).2 (1074 - scale index)).1
        (shifted (ratio index).1 (ratio index).2 (1074 - scale index)).2 =
        significand index := by
      have hscaled (c : Nat) (hc : 0 < c) :
          roundHalfEven (significand index * c) c = significand index := by
        have hone : roundHalfEven (significand index * c) (1 * c) =
            roundHalfEven (significand index) 1 := roundHalfEven_mul hc
        rw [Nat.one_mul] at hone
        rw [hone, roundHalfEven_one]
      -- The shift cancels the denominator below scale 1074, and the factor of two above it.
      rcases Nat.lt_or_ge (scale index) 1074 with hless | hmore
      · have hshift : (1074 - (scale index : Int)).toNat = 1074 - scale index := by omega
        rw [ratio, if_pos hless, shifted, if_neg (by omega), hshift]
        exact hscaled _ (Nat.two_pow_pos _)
      · rw [ratio, if_neg (Nat.not_lt.2 hmore), shifted]
        split
        · have hshift : (-(1074 - (scale index : Int))).toNat = scale index - 1074 := by omega
          simp only [hshift, Nat.one_mul]
          exact hscaled _ (Nat.two_pow_pos _)
        · have hshift : (1074 - (scale index : Int)).toNat = 0 := by omega
          have hsame : scale index - 1074 = 0 := by omega
          simp only [hshift, hsame, Nat.pow_eq, Nat.pow_zero, Nat.mul_one]
          exact roundHalfEven_one _
    unfold nearestIndex
    rw [if_neg (ratio_ne_zero hpos), gridScale_ratio hpos]
    simp only [hrounded]
    exact scale_mul_add_significand index

end Magnitudes

end DexCache.Double
