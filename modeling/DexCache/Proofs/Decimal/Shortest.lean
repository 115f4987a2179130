import DexCache.Decimal.Shortest
import DexCache.Proofs.Decimal.Rounding

/-!
# The shortest decimal reads back

The index read off a decimal does not change when zeros are moved between its digits and its
exponent.  So the decimal that is found for a magnitude still reads back after its trailing
zeros are dropped, and so does the exact one that stands in where none is found.
-/

namespace DexCache

namespace Double

theorem length_toDigits_mul_pow {n : Nat} (hn : 0 < n) (k : Nat) :
    (Nat.toDigits 10 (n * 10 ^ k)).length = (Nat.toDigits 10 n).length + k := by
  induction k with
  | zero => simp
  | succ k ih =>
      have hpos : 0 < n * 10 ^ k := Nat.mul_pos hn (Nat.pow_pos (by decide))
      have hsplit : n * 10 ^ (k + 1) = 10 * (n * 10 ^ k) + 0 := by
        rw [Nat.pow_succ, ← Nat.mul_assoc, Nat.mul_comm, Nat.add_zero]
      rw [hsplit, ← Nat.toDigits_append_toDigits (by decide) hpos (by decide), List.length_append,
        ih]
      rfl

/-- Zeros moved from the exponent to the digits change the quotient by a common factor. -/
theorem nearestIndex_decimalRatio_mul_pow (digits k : Nat) (exponent : Int) :
    nearestIndex (decimalRatio (digits * 10 ^ k) exponent).1
        (decimalRatio (digits * 10 ^ k) exponent).2 =
      nearestIndex (decimalRatio digits (exponent + k)).1
        (decimalRatio digits (exponent + k)).2 := by
  have hpow (a : Nat) : 0 < 10 ^ a := Nat.pow_pos (by decide)
  unfold decimalRatio
  simp only [Nat.pow_eq]
  -- Three cases: the moved zeros leave a denominator, use it up, or find none.
  rcases lt_or_ge exponent 0 with hneg | hpos
  · rw [if_pos hneg]
    rcases lt_or_ge (exponent + k) 0 with hneg' | hpos'
    · have hsplit : (-exponent).toNat = (-(exponent + k)).toNat + k := by omega
      rw [if_pos hneg', hsplit, Nat.pow_add]
      exact nearestIndex_mul (hpow _) (hpow k)
    · have hsplit : k = (exponent + k).toNat + (-exponent).toNat := by omega
      have hdigits : digits * 10 ^ k =
          digits * 10 ^ (exponent + k).toNat * 10 ^ (-exponent).toNat := by
        rw [Nat.mul_assoc, ← Nat.pow_add, ← hsplit]
      have hone : nearestIndex (digits * 10 ^ (exponent + k).toNat * 10 ^ (-exponent).toNat)
          (1 * 10 ^ (-exponent).toNat) = nearestIndex (digits * 10 ^ (exponent + k).toNat) 1 :=
        nearestIndex_mul Nat.one_pos (hpow _)
      rw [Nat.one_mul] at hone
      rw [if_neg (Int.not_lt.2 hpos'), hdigits]
      exact hone
  · have hsplit : (exponent + k).toNat = k + exponent.toNat := by omega
    rw [if_neg (Int.not_lt.2 hpos), if_neg (by omega), hsplit, Nat.pow_add, Nat.mul_assoc]

/-- The index read off a decimal depends on its value alone. -/
theorem decimalIndex_mul_pow (digits k : Nat) (exponent : Int) :
    decimalIndex (digits * 10 ^ k) exponent = decimalIndex digits (exponent + k) := by
  rcases Nat.eq_zero_or_pos digits with rfl | hdigits
  · simp [decimalIndex]
  · have hpos : digits * 10 ^ k ≠ 0 := (Nat.mul_pos hdigits (Nat.pow_pos (by decide))).ne'
    have htop : (((Nat.toDigits 10 (digits * 10 ^ k)).length : Nat) : Int) + exponent =
        ((Nat.toDigits 10 digits).length : Int) + (exponent + k) := by
      rw [length_toDigits_mul_pow hdigits]
      push_cast
      omega
    unfold decimalIndex
    simp only [htop, if_neg hpos, if_neg hdigits.ne', nearestIndex_decimalRatio_mul_pow]

/-- Between its bounds a decimal is read as the quotient it stands for. -/
theorem decimalIndex_eq_nearestIndex {digits : Nat} {exponent : Int} (hdigits : 0 < digits)
    (hlow : -330 ≤ ((Nat.toDigits 10 digits).length : Int) + exponent)
    (hhigh : ((Nat.toDigits 10 digits).length : Int) + exponent ≤ 310) :
    decimalIndex digits exponent =
      nearestIndex (decimalRatio digits exponent).1 (decimalRatio digits exponent).2 := by
  unfold decimalIndex
  rw [if_neg hdigits.ne']
  simp only
  rw [if_neg (Int.not_lt.2 hhigh), if_neg (Int.not_lt.2 hlow)]

theorem scale_lt {index : Nat} (h : index < magnitudes) : scale index < 2046 := by
  have hquot : index / binade < 2047 := Nat.div_lt_of_lt_mul (by rwa [Nat.mul_comm])
  unfold scale
  omega

end Double

namespace Decimal

open Double (binade decimalIndex decimalRatio magnitudes nearestIndex ratio scale significand)

variable {index : Nat}

theorem two_pow_le_ten_pow {a b : Nat} (h : 2 ^ a ≤ 10 ^ b) (k : Nat) :
    2 ^ (a + 93 * k) ≤ 10 ^ (b + 28 * k) := by
  rw [Nat.pow_add, Nat.pow_add, Nat.pow_mul, Nat.pow_mul]
  exact Nat.mul_le_mul h (Nat.pow_le_pow_left (by decide) k)

theorem exact_eq (index : Nat) : exact index =
    if scale index < 1074 then
      (significand index * Nat.pow 5 (1074 - scale index), (scale index : Int) - 1074)
    else (significand index * Nat.pow 2 (scale index - 1074), 0) := rfl

/-- The exact decimal of a magnitude stands for the magnitude. -/
theorem nearestIndex_exact (index : Nat) :
    nearestIndex (decimalRatio (exact index).1 (exact index).2).1
      (decimalRatio (exact index).1 (exact index).2).2 = index := by
  have hratio := Double.nearestIndex_ratio index
  unfold ratio at hratio
  rw [exact_eq]
  split
  · next hsmall =>
      have hneg : (scale index : Int) - 1074 < 0 := by omega
      have hplaces : (-((scale index : Int) - 1074)).toNat = 1074 - scale index := by omega
      -- The powers of five in the digits cancel those in the power of ten.
      have hten : Nat.pow 10 (1074 - scale index) =
          Nat.pow 2 (1074 - scale index) * Nat.pow 5 (1074 - scale index) :=
        Nat.mul_pow 2 5 _
      rw [if_pos hsmall] at hratio
      have hscaled : nearestIndex (significand index * Nat.pow 5 (1074 - scale index))
          (Nat.pow 2 (1074 - scale index) * Nat.pow 5 (1074 - scale index)) =
          nearestIndex (significand index) (Nat.pow 2 (1074 - scale index)) :=
        Double.nearestIndex_mul (Nat.two_pow_pos _) (Nat.pow_pos (by decide))
      rw [decimalRatio, if_pos hneg, hplaces, hten]
      exact hscaled.trans hratio
  · next hlarge =>
      rw [if_neg hlarge] at hratio
      rw [decimalRatio, if_neg (Int.lt_irrefl 0)]
      simpa using hratio

theorem exact_pos (h : 0 < index) : 0 < (exact index).1 := by
  have hsignificand := Double.significand_pos h
  rw [exact_eq]
  split
  · exact Nat.mul_pos hsignificand (Nat.pow_pos (by decide))
  · exact Nat.mul_pos hsignificand (Nat.two_pow_pos _)

/-- The exact decimal of a magnitude is not too great to be read. -/
theorem exact_top_le (h : index < magnitudes) :
    ((Nat.toDigits 10 (exact index).1).length : Int) + (exact index).2 ≤ 310 := by
  have hsignificand := Double.significand_lt index
  rw [exact_eq]
  split
  · next hsmall =>
      have hdigits : significand index * Nat.pow 5 (1074 - scale index) <
          10 ^ (16 + (1074 - scale index)) := by
        rw [Nat.pow_add]
        refine Nat.mul_lt_mul_of_lt_of_le ?_ ?_ (Nat.pow_pos (by decide))
        · exact hsignificand.trans (by decide)
        · exact Nat.pow_le_pow_left (by decide) _
      have hlength := (Nat.length_toDigits_le_iff (b := 10) (by decide) (by omega)).2 hdigits
      simp only
      omega
  · next hlarge =>
      have hscale := Double.scale_lt h
      have hdigits : significand index * Nat.pow 2 (scale index - 1074) < 10 ^ (2 + 28 * 11) := by
        calc significand index * Nat.pow 2 (scale index - 1074)
            < 2 ^ 53 * 2 ^ (scale index - 1074) :=
              Nat.mul_lt_mul_of_pos_right hsignificand (Nat.two_pow_pos _)
          _ = 2 ^ (53 + (scale index - 1074)) := (Nat.pow_add ..).symm
          _ ≤ 2 ^ (1 + 93 * 11) := Nat.pow_le_pow_right (by decide) (by omega)
          _ ≤ 10 ^ (2 + 28 * 11) := two_pow_le_ten_pow (a := 1) (b := 2) (by decide) 11
      have hlength := (Nat.length_toDigits_le_iff (b := 10) (by decide) (by decide)).2 hdigits
      simp only
      omega

/-- The exact decimal of a magnitude is not too small to be read. -/
theorem le_exact_top (h : 0 < index) :
    -330 ≤ ((Nat.toDigits 10 (exact index).1).length : Int) + (exact index).2 := by
  have hsignificand := Double.significand_pos h
  rw [exact_eq]
  split
  · next hsmall =>
      obtain ⟨places, hplaces⟩ : ∃ places, places = 1074 - scale index := ⟨_, rfl⟩
      have hexponent : (scale index : Int) - 1074 = -places := by omega
      rw [← hplaces, hexponent]
      -- Were there fewer digits, `5 ^ places` would be below `10 ^ (places - 331)`, and so
      -- `10 ^ places` below itself.
      have hlength : places ≤ (Nat.toDigits 10 (significand index * Nat.pow 5 places)).length +
          330 := by
        by_contra hshort
        have hpos := Nat.length_toDigits_pos (b := 10)
          (n := significand index * Nat.pow 5 places)
        have hdigits := (Nat.length_toDigits_le_iff (b := 10)
          (n := significand index * Nat.pow 5 places) (k := places - 331) (by decide)
          (by omega)).1 (by omega)
        have hfive : 5 ^ places < 10 ^ (places - 331) :=
          (Nat.le_mul_of_pos_left _ hsignificand).trans_lt hdigits
        have htwo : 2 ^ places ≤ 10 ^ (23 + 28 * 11) := by
          calc 2 ^ places ≤ 2 ^ (51 + 93 * 11) :=
                Nat.pow_le_pow_right (by decide) (by omega)
            _ ≤ 10 ^ (23 + 28 * 11) := two_pow_le_ten_pow (a := 51) (b := 23) (by decide) 11
        have hboth : 2 ^ places * 5 ^ places < 10 ^ (23 + 28 * 11) * 10 ^ (places - 331) :=
          Nat.mul_lt_mul_of_le_of_lt htwo hfive (Nat.pow_pos (by decide))
        rw [← Nat.mul_pow, ← Nat.pow_add, Nat.add_sub_cancel' (by omega)] at hboth
        exact Nat.lt_irrefl _ hboth
      simp only
      omega
  · simp only
    omega

/-- The exact decimal of a magnitude reads back. -/
theorem decimalIndex_exact (hpos : 0 < index) (hfinite : index < magnitudes) :
    decimalIndex (exact index).1 (exact index).2 = index := by
  rw [Double.decimalIndex_eq_nearestIndex (exact_pos hpos) (le_exact_top hpos)
    (exact_top_le hfinite), nearestIndex_exact]

/-- A neighbour is only taken if it reads back. -/
theorem decimalIndex_of_neighbour? {tie : Tie} {exponent : Int} {digits : Nat}
    (h : neighbour? tie index exponent = some digits) : decimalIndex digits exponent = index := by
  have hreads {candidate : Nat} (hback : readsBack index candidate exponent = true)
      (htaken : some candidate = some digits) : decimalIndex digits exponent = index := by
    rw [readsBack, beq_iff_eq] at hback
    rwa [Option.some.inj htaken] at hback
  unfold neighbour? at h
  simp only at h
  generalize (if exponent < 0 then ((ratio index).1 * Nat.pow 10 (-exponent).toNat,
    (ratio index).2) else ((ratio index).1, (ratio index).2 * Nat.pow 10 exponent.toNat)) = grid
    at h
  -- Every arm that takes a candidate has tested that it reads back.
  split at h
  · next hlow _ => exact hreads hlow h
  · next _ hnext => exact hreads hnext h
  · cases h
  · next hlow hnext =>
      split at h
      · exact hreads hlow h
      · split at h
        · exact hreads hnext h
        · cases tie with
          | up => exact hreads hnext h
          | even =>
              simp only at h
              split at h
              · exact hreads hlow h
              · exact hreads hnext h

/-- Whatever the search returns reads back. -/
theorem decimalIndex_searchFrom (hpos : 0 < index) (hfinite : index < magnitudes) (tie : Tie)
    (exponent : Int) (tries : Nat) :
    decimalIndex (searchFrom tie index exponent tries).1
      (searchFrom tie index exponent tries).2 = index := by
  induction tries generalizing exponent with
  | zero => exact decimalIndex_exact hpos hfinite
  | succ tries ih =>
      rw [searchFrom]
      cases hfound : neighbour? tie index exponent with
      | some digits => exact decimalIndex_of_neighbour? hfound
      | none => exact ih (exponent - 1)

/-- Dropping trailing zeros does not change what is read. -/
theorem decimalIndex_dropZeros (fuel : Nat) (r : Nat × Int) :
    decimalIndex (dropZeros fuel r).1 (dropZeros fuel r).2 = decimalIndex r.1 r.2 := by
  induction fuel generalizing r with
  | zero => rfl
  | succ fuel ih =>
      obtain ⟨digits, exponent⟩ := r
      rw [dropZeros]
      split
      · next hzero =>
          have hdigits : digits / 10 * 10 ^ 1 = digits := by omega
          have hmoved := Double.decimalIndex_mul_pow (digits / 10) 1 exponent
          rw [hdigits] at hmoved
          rw [ih]
          exact hmoved.symm
      · rfl

/-- The shortest decimal of a magnitude reads back. -/
theorem decimalIndex_shortest (hpos : 0 < index) (hfinite : index < magnitudes) (tie : Tie) :
    decimalIndex (shortest tie index).1 (shortest tie index).2 = index := by
  unfold shortest
  simp only
  rw [decimalIndex_dropZeros, decimalIndex_searchFrom hpos hfinite]

end Decimal

end DexCache
