import DexCache.Decimal.Amount
import Mathlib.Algebra.Order.Field.Power
import Mathlib.Data.Rat.Cast.Order
import Mathlib.Order.Compare

/-!
# The order of amounts

An amount stands for a rational number, whatever its number of digits, and the comparison of
amounts is that of these numbers.  Where the numbers of digits before the point differ they
decide, because a magnitude lies between the powers of ten around its first digit; elsewhere
both magnitudes are brought to the finer of the two scales.
-/

namespace DexCache.Amount

/-- The number that an amount stands for. -/
def value (a : Amount) : ℚ :=
  a.digits * 10 ^ (-a.scale)

/-- The number by which an amount is sorted; a missing one counts as zero. -/
def rank (a : Option Amount) : ℚ :=
  (a.getD zero).value

@[simp] theorem value_zero : zero.value = 0 := by
  simp [value, zero]

@[simp] theorem rank_none : rank none = 0 :=
  value_zero

theorem pow_scale_pos (s : Int) : (0 : ℚ) < 10 ^ (-s) :=
  zpow_pos (by norm_num) _

/-- A magnitude lies between the powers of ten around its first digit. -/
theorem width_bounds {n : Nat} (hn : 0 < n) :
    (10 : ℚ) ^ (width n - 1) ≤ n ∧ (n : ℚ) < 10 ^ width n := by
  obtain ⟨k, hk⟩ : ∃ k, (Nat.toDigits 10 n).length = k + 1 :=
    Nat.exists_eq_succ_of_ne_zero Nat.length_toDigits_pos.ne'
  have hwidth : width n = (k + 1 : Nat) := congrArg Nat.cast hk
  have hupper : n < 10 ^ (k + 1) :=
    (Nat.length_toDigits_le_iff (by decide) (Nat.succ_pos k)).1 hk.le
  have hlower : 10 ^ k ≤ n := by
    cases k with
    | zero => exact hn
    | succ k =>
        by_contra hlt
        have hshort := (Nat.length_toDigits_le_iff (b := 10) (by decide) (Nat.succ_pos k)).2
          (Nat.lt_of_not_le hlt)
        omega
  have hexponent : width n - 1 = (k : Int) := by omega
  constructor
  · rw [hexponent, zpow_natCast]
    exact_mod_cast hlower
  · rw [hwidth, zpow_natCast]
    exact_mod_cast hupper

/-- Fewer digits before the point make a smaller number. -/
theorem magnitude_lt_of_width {m n : Nat} (hm : 0 < m) (hn : 0 < n) {s t : Int}
    (h : width m - s < width n - t) : (m : ℚ) * 10 ^ (-s) < n * 10 ^ (-t) := by
  have hten : (10 : ℚ) ≠ 0 := by norm_num
  calc (m : ℚ) * 10 ^ (-s) < 10 ^ width m * 10 ^ (-s) :=
        mul_lt_mul_of_pos_right (width_bounds hm).2 (pow_scale_pos s)
    _ = 10 ^ (width m - s) := by rw [← zpow_add₀ hten, sub_eq_add_neg]
    _ ≤ 10 ^ (width n - 1 - t) := zpow_le_zpow_right₀ (by norm_num) (by omega)
    _ = 10 ^ (width n - 1) * 10 ^ (-t) := by rw [← zpow_add₀ hten, sub_eq_add_neg]
    _ ≤ n * 10 ^ (-t) := mul_le_mul_of_nonneg_right (width_bounds hn).1 (pow_scale_pos t).le

/-- On one scale magnitudes are compared by their digits. -/
theorem compare_mul_scale (m n : Nat) (s : Int) :
    compare ((m : ℚ) * 10 ^ (-s)) (n * 10 ^ (-s)) = compare m n := by
  have hmono : StrictMono fun k : Nat => (k : ℚ) * 10 ^ (-s) := fun a b h =>
    mul_lt_mul_of_pos_right (Nat.cast_lt.2 h) (pow_scale_pos s)
  rw [← cmp_eq_compare, ← cmp_eq_compare]
  exact hmono.cmp_map_eq m n

/-- A magnitude on a finer scale. -/
theorem mul_scale_eq (m : Nat) {s t : Int} (h : s ≤ t) :
    (m : ℚ) * 10 ^ (-s) = ((m * Nat.pow 10 (t - s).toNat : Nat) : ℚ) * 10 ^ (-t) := by
  have hsplit : -s = ((t - s).toNat : Int) + -t := by omega
  rw [hsplit, zpow_add₀ (by norm_num), zpow_natCast, ← mul_assoc]
  push_cast [Nat.pow_eq]
  rfl

/-- Positive magnitudes are compared by value. -/
theorem compareMagnitudes_eq {m n : Nat} (hm : 0 < m) (hn : 0 < n) (s t : Int) :
    compareMagnitudes m s n t = compare ((m : ℚ) * 10 ^ (-s)) (n * 10 ^ (-t)) := by
  unfold compareMagnitudes
  split
  · next hwidth =>
      rcases lt_or_gt_of_ne hwidth with hlt | hgt
      · rw [compare_lt_iff_lt.2 hlt, compare_lt_iff_lt.2 (magnitude_lt_of_width hm hn hlt)]
      · rw [compare_gt_iff_gt.2 hgt, compare_gt_iff_gt.2 (magnitude_lt_of_width hn hm hgt)]
  · split
    · next hscale => rw [mul_scale_eq m hscale, compare_mul_scale]
    · next hscale => rw [mul_scale_eq n (by omega : t ≤ s), compare_mul_scale]

theorem value_of_nonneg {a : Amount} (h : 0 ≤ a.digits) :
    a.value = (a.digits.natAbs : ℚ) * 10 ^ (-a.scale) := by
  rw [value, Nat.cast_natAbs, abs_of_nonneg h]

theorem value_of_neg {a : Amount} (h : a.digits < 0) :
    a.value = -((a.digits.natAbs : ℚ) * 10 ^ (-a.scale)) := by
  rw [value, Nat.cast_natAbs, abs_of_neg h, Int.cast_neg, neg_mul, neg_neg]

@[simp] theorem value_pos_iff {a : Amount} : 0 < a.value ↔ 0 < a.digits := by
  rw [value, mul_pos_iff_of_pos_right (pow_scale_pos _), Int.cast_pos]

@[simp] theorem value_neg_iff {a : Amount} : a.value < 0 ↔ a.digits < 0 := by
  rw [value, ← neg_pos, ← neg_mul, mul_pos_iff_of_pos_right (pow_scale_pos _), neg_pos,
    Int.cast_lt_zero]

@[simp] theorem value_eq_zero_iff {a : Amount} : a.value = 0 ↔ a.digits = 0 := by
  rw [value, mul_eq_zero_iff_right (pow_scale_pos _).ne', Int.cast_eq_zero]

theorem value_lt_of_sign_lt {a b : Amount} (h : a.digits.sign < b.digits.sign) :
    a.value < b.value := by
  rcases lt_trichotomy b.digits 0 with hb | hb | hb
  · rw [Int.sign_eq_neg_one_of_neg hb] at h
    have hleast := Int.sign_trichotomy a.digits
    omega
  · rw [hb, Int.sign_zero] at h
    rw [value_eq_zero_iff.2 hb]
    exact value_neg_iff.2 (Int.sign_neg_iff.1 h)
  · have ha : a.value ≤ 0 := by
      rw [← not_lt, value_pos_iff]
      intro hpos
      rw [Int.sign_eq_one_of_pos hpos, Int.sign_eq_one_of_pos hb] at h
      exact absurd h (lt_irrefl 1)
    exact ha.trans_lt (value_pos_iff.2 hb)

/-- Where the signs decide they compare like the values. -/
theorem compare_sign {a b : Amount}
    (h : a.digits = 0 ∨ b.digits = 0 ∨ a.digits.sign ≠ b.digits.sign) :
    compare a.digits.sign b.digits.sign = compare a.value b.value := by
  rcases lt_trichotomy a.digits.sign b.digits.sign with hlt | heq | hgt
  · rw [compare_lt_iff_lt.2 hlt, compare_lt_iff_lt.2 (value_lt_of_sign_lt hlt)]
  · have hboth : a.digits = 0 ∧ b.digits = 0 := by
      rcases h with ha | hb | hne
      · rw [ha, Int.sign_zero] at heq
        exact ⟨ha, Int.sign_eq_zero_iff_zero.1 heq.symm⟩
      · rw [hb, Int.sign_zero] at heq
        exact ⟨Int.sign_eq_zero_iff_zero.1 heq, hb⟩
      · exact absurd heq hne
    have hvalues : a.value = b.value := by
      rw [value_eq_zero_iff.2 hboth.1, value_eq_zero_iff.2 hboth.2]
    rw [compare_eq_iff_eq.2 heq, compare_eq_iff_eq.2 hvalues]
  · rw [compare_gt_iff_gt.2 hgt, compare_gt_iff_gt.2 (value_lt_of_sign_lt hgt)]

/-- Amounts are compared by value. -/
theorem cmp_eq (a b : Amount) : cmp a b = compare a.value b.value := by
  unfold cmp
  split
  · next hsigns => exact compare_sign hsigns
  · next hsigns =>
      obtain ⟨ha, hb, hsame⟩ : a.digits ≠ 0 ∧ b.digits ≠ 0 ∧ a.digits.sign = b.digits.sign := by
        simpa [not_or] using hsigns
      split
      · next hpos =>
          have hposB : 0 < b.digits := by
            rwa [← Int.sign_pos_iff, ← hsame, Int.sign_pos_iff]
          rw [compareMagnitudes_eq (by omega) (by omega), value_of_nonneg hpos.le,
            value_of_nonneg hposB.le]
      -- both are negative, and the greater magnitude is the lesser amount
      · next hpos =>
          have hneg : a.digits < 0 := by omega
          have hnegB : b.digits < 0 := by
            rwa [← Int.sign_neg_iff, ← hsame, Int.sign_neg_iff]
          have hanti : StrictAnti fun q : ℚ => -q := fun _ _ => neg_lt_neg
          rw [compareMagnitudes_eq (by omega) (by omega), value_of_neg hneg, value_of_neg hnegB,
            ← cmp_eq_compare, ← cmp_eq_compare]
          exact (hanti.cmp_map_eq _ _).symm

/-- With missing amounts as zero, too. -/
theorem cmpMissing_eq (a b : Option Amount) : cmpMissing a b = compare (rank a) (rank b) :=
  cmp_eq _ _

end DexCache.Amount
