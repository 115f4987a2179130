import DexCache.Proofs.Decimal.Digits
import DexCache.Proofs.Decimal.Order

/-!
# Amounts are read exactly

A decimal of any length is read as the number that it writes: nothing is rounded and no digit
is dropped.
-/

namespace DexCache

namespace Text

theorem dropWhile_isBlank {cs : List Char} (h : ∀ c ∈ cs, isBlank c = false) :
    cs.dropWhile isBlank = cs := by
  cases cs with
  | nil => rfl
  | cons c cs => rw [List.dropWhile_cons_of_neg (by simp [h c List.mem_cons_self])]

/-- A text that begins and ends with no blank is not trimmed. -/
theorem trim_eq_self {cs : List Char} (h : ∀ c ∈ cs, isBlank c = false) : trim cs = cs := by
  rw [trim, dropWhile_isBlank h, dropWhile_isBlank fun c hc => h c (List.mem_reverse.1 hc),
    List.reverse_reverse]

theorem isBlank_of_visible {c : Char} (hlow : 32 < c.toNat) (hhigh : c.toNat < 127) :
    isBlank c = false := by
  have hranges : ∀ r ∈ blankRanges, r.2 < 33 ∨ 126 < r.1 := by decide
  rw [isBlank, Bool.eq_false_iff, Ne, inRanges_iff]
  rintro ⟨r, hr, hfirst, hlast⟩
  have hr := hranges r hr
  omega

theorem isBlank_of_isDigit {c : Char} (h : c.isDigit = true) : isBlank c = false := by
  have hbounds : 48 ≤ c.toNat ∧ c.toNat ≤ 57 := by
    simpa [Char.isDigit, UInt32.le_iff_toNat_le] using h
  exact isBlank_of_visible (by omega) (by omega)

end Text

namespace Decimal

/-- The digits before and behind a point, as one number. -/
theorem digitsValue_append (whole fraction : List Char) :
    digitsValue (whole ++ fraction) =
      digitsValue whole * 10 ^ fraction.length + digitsValue fraction := by
  rw [digitsValue, Nat.ofDigitChars_append, Nat.ofDigitChars_eq_ofDigitChars_zero, Nat.mul_comm]
  rfl

end Decimal

namespace Amount

open Decimal (digitsValue digitsValue_append)

/-- A decimal: digits, maybe with more behind a point, after an optional minus sign. -/
def decimalChars (negative : Bool) (whole : List Char) (fraction : Option (List Char)) :
    List Char :=
  (if negative then ['-'] else []) ++ whole ++ fraction.elim [] ('.' :: ·)

/-- The number that a decimal writes. -/
def decimalValue (negative : Bool) (whole : List Char) (fraction : Option (List Char)) : ℚ :=
  (if negative then -1 else 1) *
    (digitsValue whole + digitsValue (fraction.getD []) / 10 ^ (fraction.getD []).length)

section Reading

variable {negative : Bool} {whole : List Char} {fraction : Option (List Char)}

theorem naturalOf_digits {ds : List Char} (hds : ∀ d ∈ ds, d.isDigit = true) (hne : ds ≠ []) :
    naturalOf ds = .ok (digitsValue ds) := by
  unfold naturalOf
  split
  · exact absurd rfl hne
  · exact absurd (hds '_' List.mem_cons_self) (by decide)
  · have hall : (ds.all fun c => c.isDigit || c = '_') = true :=
      List.all_eq_true.2 fun d hd => by rw [hds d hd]; rfl
    rw [if_pos hall, List.filter_eq_self.2 hds]

theorem unsignedOf_digits {ds : List Char} (hds : ∀ d ∈ ds, d.isDigit = true) (hne : ds ≠ []) :
    unsignedOf ds = .ok (digitsValue ds) := by
  unfold unsignedOf
  split
  · exact absurd (hds '+' List.mem_cons_self) (by decide)
  · exact absurd (hds '+' List.mem_cons_self) (by decide)
  · exact naturalOf_digits hds hne

theorem integerOf_digits {ds : List Char} (hds : ∀ d ∈ ds, d.isDigit = true) (hne : ds ≠ []) :
    integerOf ((if negative then ['-'] else []) ++ ds) =
      .ok (if negative then -(digitsValue ds : Int) else digitsValue ds) := by
  cases negative with
  | true =>
      have hplus : ∀ rest, ds ≠ '+' :: rest := by
        rintro rest rfl
        exact absurd (hds '+' List.mem_cons_self) (by decide)
      simp only [if_true, List.singleton_append]
      unfold integerOf
      split
      · next heq => exact absurd (List.cons.inj heq).2 (hplus _)
      · next heq =>
          obtain ⟨-, rfl⟩ := List.cons.inj heq
          rw [unsignedOf_digits hds hne]
          rfl
      · next h => exact absurd rfl (h _)
  | false =>
      simp only [Bool.false_eq_true, if_false, List.nil_append]
      unfold integerOf
      split
      · exact absurd (hds '-' List.mem_cons_self) (by decide)
      · exact absurd (hds '-' List.mem_cons_self) (by decide)
      · rw [unsignedOf_digits hds hne]
        rfl

/-- The characters of a decimal are digits, a sign and a point. -/
theorem mem_decimalChars (hwhole : ∀ d ∈ whole, d.isDigit = true)
    (hfraction : ∀ ds ∈ fraction, ∀ d ∈ ds, d.isDigit = true) {c : Char}
    (hc : c ∈ decimalChars negative whole fraction) :
    c.isDigit = true ∨ c = '-' ∨ c = '.' := by
  unfold decimalChars at hc
  rcases List.mem_append.1 hc with hc | hc
  · rcases List.mem_append.1 hc with hc | hc
    · cases negative <;> simp_all
    · exact .inl (hwhole c hc)
  · cases fraction with
    | none => cases hc
    | some ds =>
        rcases List.mem_cons.1 hc with rfl | hc
        · exact .inr (.inr rfl)
        · exact .inl (hfraction ds rfl c hc)

/-- A decimal goes up to the mark of an exponent. -/
theorem span_exponent (hwhole : ∀ d ∈ whole, d.isDigit = true)
    (hfraction : ∀ ds ∈ fraction, ∀ d ∈ ds, d.isDigit = true) {behind : List Char}
    (hbehind : ∀ c ∈ behind.head?, c = 'e' ∨ c = 'E') :
    (decimalChars negative whole fraction ++ behind).span (fun c => c ≠ 'e' && c ≠ 'E') =
      (decimalChars negative whole fraction, behind) := by
  refine span_append (fun c hc => ?_) fun c hc => ?_
  · have hother := mem_decimalChars hwhole hfraction hc
    rw [Bool.and_eq_true, decide_eq_true_eq, decide_eq_true_eq]
    constructor
    · rintro rfl
      exact absurd hother (by decide)
    · rintro rfl
      exact absurd hother (by decide)
  · rcases hbehind c hc with rfl | rfl
    · decide
    · decide

theorem span_point (hwhole : ∀ d ∈ whole, d.isDigit = true) :
    (decimalChars negative whole fraction).span (fun c => c ≠ '.') =
      ((if negative then ['-'] else []) ++ whole, fraction.elim [] ('.' :: ·)) := by
  refine span_append (fun c hc => ?_) (by cases fraction <;> simp)
  have hdot : c ≠ '.' := by
    rintro rfl
    rcases List.mem_append.1 hc with hc | hc
    · cases negative <;> simp at hc
    · exact absurd (hwhole '.' hc) (by decide)
  simpa using hdot

/-- A decimal and what the mark of an exponent begins are read part by part: the exponent, the
scale, the digits. -/
theorem ofChars_marked (hwhole : ∀ d ∈ whole, d.isDigit = true) (hne : whole ≠ [])
    (hfraction : ∀ ds ∈ fraction, ∀ d ∈ ds, d.isDigit = true) {behind : List Char}
    (hbehind : ∀ c ∈ behind.head?, c = 'e' ∨ c = 'E') :
    ofChars (decimalChars negative whole fraction ++ behind) =
      (if behind = [] then .ok 0 else exponentOf behind.tail).bind fun power =>
        if ((fraction.getD []).length : Int) - power < -9223372036854775808 ∨
            9223372036854775807 < ((fraction.getD []).length : Int) - power then
          .error (.scaleOutOfRange
            (String.ofList (decimalChars negative whole fraction ++ behind)))
        else .ok ⟨if negative then -(digitsValue (whole ++ fraction.getD []) : Int)
          else digitsValue (whole ++ fraction.getD []), (fraction.getD []).length - power⟩ := by
  have hpointed : (fraction.elim [] ('.' :: ·)).drop 1 = fraction.getD [] := by
    cases fraction <;> rfl
  have hdigits : ∀ d ∈ fraction.getD [], d.isDigit = true := by
    cases fraction with
    | none => exact fun d hd => nomatch hd
    | some ds => exact hfraction ds rfl
  have hplain : (fraction.getD []).filter (fun c => c ≠ '_') = fraction.getD [] :=
    List.filter_eq_self.2 fun d hd =>
      decide_eq_true (Decimal.ne_of_isDigit (hdigits d hd) (by decide))
  have hinteger : integerOf ((if negative then ['-'] else []) ++ whole ++ fraction.getD []) =
      .ok (if negative then -(digitsValue (whole ++ fraction.getD []) : Int)
        else digitsValue (whole ++ fraction.getD [])) := by
    rw [List.append_assoc]
    exact integerOf_digits (List.forall_mem_append.2 ⟨hwhole, hdigits⟩) (by simp [hne])
  have hsome : (decimalChars negative whole fraction).isEmpty = false := by
    simp [decimalChars, hne]
  rw [ofChars]
  simp only [span_exponent hwhole hfraction hbehind, span_point hwhole, hpointed, hplain, hsome,
    hinteger, bind]
  cases behind with
  | nil => rfl
  | cons mark rest => rfl

/-- A decimal is read with all its digits. -/
theorem ofText?_decimal (hwhole : ∀ d ∈ whole, d.isDigit = true) (hne : whole ≠ [])
    (hfraction : ∀ ds ∈ fraction, ∀ d ∈ ds, d.isDigit = true)
    (hplaces : (fraction.getD []).length < 9223372036854775808) :
    ofText? (String.ofList (decimalChars negative whole fraction)) =
      some ⟨if negative then -(digitsValue (whole ++ fraction.getD []) : Int)
        else digitsValue (whole ++ fraction.getD []), (fraction.getD []).length⟩ := by
  have htrim : Text.trim (decimalChars negative whole fraction) =
      decimalChars negative whole fraction := by
    refine Text.trim_eq_self fun c hc => ?_
    rcases mem_decimalChars hwhole hfraction hc with h | rfl | rfl
    · exact Text.isBlank_of_isDigit h
    · decide
    · decide
  have hbound : ¬(((fraction.getD []).length : Int) - 0 < -9223372036854775808 ∨
      9223372036854775807 < ((fraction.getD []).length : Int) - 0) := by
    omega
  have hnothing : ∀ c ∈ ([] : List Char).head?, c = 'e' ∨ c = 'E' := fun c hc => nomatch hc
  have hread := @ofChars_marked negative whole fraction hwhole hne hfraction [] hnothing
  rw [List.append_nil, if_pos rfl, Except.bind, if_neg hbound, sub_zero] at hread
  rw [ofText?, parse, String.toList_ofList, htrim, hread]
  rfl

/-- A decimal counts for the number that it writes, whatever its length. -/
theorem rank_decimal (hwhole : ∀ d ∈ whole, d.isDigit = true) (hne : whole ≠ [])
    (hfraction : ∀ ds ∈ fraction, ∀ d ∈ ds, d.isDigit = true)
    (hplaces : (fraction.getD []).length < 9223372036854775808) :
    rank (ofText? (String.ofList (decimalChars negative whole fraction))) =
      decimalValue negative whole fraction := by
  have hpow : (10 : ℚ) ^ (fraction.getD []).length ≠ 0 := pow_ne_zero _ (by norm_num)
  have hmagnitude : (digitsValue (whole ++ fraction.getD []) : ℚ) *
      ((10 : ℚ) ^ (fraction.getD []).length)⁻¹ =
        digitsValue whole + digitsValue (fraction.getD []) / 10 ^ (fraction.getD []).length := by
    rw [digitsValue_append, Nat.cast_add, Nat.cast_mul, Nat.cast_pow, Nat.cast_ofNat, add_mul,
      mul_assoc, mul_inv_cancel₀ hpow, mul_one, div_eq_mul_inv]
  rw [ofText?_decimal hwhole hne hfraction hplaces, rank, Option.getD_some, value, decimalValue,
    zpow_neg, zpow_natCast, ← hmagnitude]
  cases negative with
  | true => simp
  | false => simp

end Reading

end Amount

end DexCache
