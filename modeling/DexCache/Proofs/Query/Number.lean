import DexCache.Proofs.Decimal.Digits
import DexCache.Proofs.Decimal.Shortest
import DexCache.Proofs.Query.Layout
import DexCache.Query.Printer

/-!
# Numbers read back

The text of an integer is read as the integer, and the text of a finite double as the double,
whatever follows that does not run together with it.
-/

namespace DexCache

namespace Query

open Decimal (digitsValue intChars natChars takeDigits takeDigits_append)

theorem isSticky_of_isDigit {c : Char} (h : c.isDigit = true) : isSticky c = true := by
  simp [isSticky, Char.isAlphanum, h]

theorem not_isDigit_of_not_isSticky {c : Char} (h : isSticky c = false) : c.isDigit = false := by
  cases hdigit : c.isDigit with
  | false => rfl
  | true => rw [isSticky_of_isDigit hdigit] at h; cases h

section Parts

variable {rest : List Char}

theorem fraction?_eq_none (hrest : ∀ c ∈ rest.head?, isSticky c = false) :
    fraction? rest = none := by
  cases rest with
  | nil => rfl
  | cons c rest =>
      have hc : c ≠ '.' := by
        rintro rfl
        exact absurd (hrest '.' rfl) (by decide)
      exact fraction?.eq_2 _ fun more heq => hc (List.cons.inj heq).1

theorem exponent?_eq_none (hrest : ∀ c ∈ rest.head?, isSticky c = false) :
    exponent? rest = none := by
  cases rest with
  | nil => rfl
  | cons c rest =>
      have hc : ¬(c = 'e' || c = 'E') = true := by
        intro h
        rw [Bool.or_eq_true, decide_eq_true_eq, decide_eq_true_eq] at h
        have hsticky := hrest c rfl
        rcases h with rfl | rfl
        · exact absurd hsticky (by decide)
        · exact absurd hsticky (by decide)
      exact if_neg hc

/-- Digits behind a point are a fraction. -/
theorem fraction?_point {digits : List Char} (hdigits : ∀ d ∈ digits, d.isDigit = true)
    (hne : digits ≠ []) (hrest : ∀ c ∈ rest.head?, c.isDigit = false) :
    fraction? ('.' :: (digits ++ rest)) = some (digits, rest) := by
  rw [fraction?, takeDigits_append hdigits hrest]
  simp [hne]

/-- An integer behind the mark is an exponent. -/
theorem exponent?_int (e : Int) (hrest : ∀ c ∈ rest.head?, c.isDigit = false) :
    exponent? ('e' :: (intChars e ++ rest)) = some (e, rest) := by
  obtain ⟨d, ds, hds⟩ := List.exists_cons_of_ne_nil (Decimal.natChars_ne_nil e.natAbs)
  have hdigits : ∀ c ∈ natChars e.natAbs, c.isDigit = true := fun c hc =>
    Decimal.isDigit_of_mem_natChars hc
  have hvalue : digitsValue (d :: ds) = e.natAbs := by
    rw [← hds, Decimal.digitsValue_natChars]
  have hd : d.isDigit = true := hdigits d (hds ▸ List.mem_cons_self)
  have htake : takeDigits (d :: (ds ++ rest)) = (d :: ds, rest) := by
    rw [hds] at hdigits
    exact takeDigits_append hdigits hrest
  unfold intChars
  split
  · next hneg =>
      rw [hds]
      simp [exponent?, htake, hvalue, abs_of_neg hneg]
  · next hpos =>
      have hminus : d ≠ '-' := Decimal.ne_of_isDigit hd rfl
      have hplus : d ≠ '+' := Decimal.ne_of_isDigit hd rfl
      rw [hds]
      simp [exponent?, hminus, hplus, htake, hvalue, abs_of_nonneg (Int.not_lt.1 hpos)]

/-- A number is read part by part. -/
theorem number?_sign_append (negative : Bool) {whole : List Char}
    (hwhole : ∀ d ∈ whole, d.isDigit = true) (hne : whole ≠ [])
    (hrest : ∀ c ∈ rest.head?, c.isDigit = false) :
    number? ((if negative then ['-'] else []) ++ (whole ++ rest)) =
      let fraction := fraction? rest
      let (digits, rest) := fraction.getD ([], rest)
      let exponent := exponent? rest
      let (e, rest) := exponent.getD (0, rest)
      let n := digitsValue whole
      let i : Int := if negative then -n else n
      if fraction.isNone && exponent.isNone && fitsInt64 i then
        some (.int (Int64.ofInt i), rest)
      else
        let value := digitsValue (whole ++ digits)
        some (.float (Double.ofScientific negative value (e - digits.length)), rest) := by
  have htake := takeDigits_append hwhole hrest
  obtain ⟨d, ds, rfl⟩ := List.exists_cons_of_ne_nil hne
  rw [List.cons_append] at htake
  cases negative with
  | true => simp [number?, htake]
  | false =>
      -- without a sign the text must not be taken for one: its first character is a digit
      have hminus : ∀ more, d :: (ds ++ rest) = '-' :: more → False := by
        intro more heq
        have hd := hwhole d List.mem_cons_self
        rw [(List.cons.inj heq).1] at hd
        cases hd
      simp only [Bool.false_eq_true, if_false, List.nil_append, List.cons_append]
      rw [number?.eq_2 _ hminus]
      simp [htake]

/-- Digits around a point are read as a double. -/
theorem number?_positional (negative : Bool) {whole digits : List Char}
    (hwhole : ∀ d ∈ whole, d.isDigit = true) (hne : whole ≠ [])
    (hdigits : ∀ d ∈ digits, d.isDigit = true) (hne' : digits ≠ [])
    (hrest : ∀ c ∈ rest.head?, isSticky c = false) :
    number? ((if negative then ['-'] else []) ++ (whole ++ '.' :: (digits ++ rest))) =
      some (.float (Double.ofScientific negative (digitsValue (whole ++ digits))
        (-digits.length)), rest) := by
  have hfraction := fraction?_point hdigits hne' fun c hc =>
    not_isDigit_of_not_isSticky (hrest c hc)
  have hpoint : ∀ c ∈ ('.' :: (digits ++ rest)).head?, c.isDigit = false := by
    simp only [List.head?_cons, Option.mem_some_iff, forall_eq']
    decide
  rw [number?_sign_append negative hwhole hne hpoint, hfraction]
  simp [exponent?_eq_none hrest]

/-- A digit, further digits behind a point and an exponent are read as a double. -/
theorem number?_exponential (negative : Bool) {d : Char} {ds : List Char}
    (hdigits : ∀ c ∈ d :: ds, c.isDigit = true) (e : Int)
    (hrest : ∀ c ∈ rest.head?, isSticky c = false) :
    number? ((if negative then ['-'] else []) ++
        (Decimal.exponential false (d :: ds) e ++ rest)) =
      some (.float (Double.ofScientific negative (digitsValue (d :: ds)) (e - ds.length)),
        rest) := by
  have hexponent := exponent?_int e fun c hc => not_isDigit_of_not_isSticky (hrest c hc)
  have hd : ∀ c ∈ [d], c.isDigit = true := by simpa using hdigits d List.mem_cons_self
  have hmark : ∀ c ∈ ('e' :: (intChars e ++ rest)).head?, c.isDigit = false := by
    simp only [List.head?_cons, Option.mem_some_iff, forall_eq']
    decide
  -- a single digit has no point, so there is no fraction to read
  cases ds with
  | nil =>
      have hread := number?_sign_append negative hd (List.cons_ne_nil _ _) hmark
      rw [fraction?.eq_2 _ (by simp)] at hread
      simp only [Decimal.exponential, List.cons_append, Bool.false_and, Bool.false_eq_true,
        if_false, List.nil_append] at hread ⊢
      rw [hread]
      simp [hexponent]
  | cons d' ds =>
      have hpoint : ∀ c ∈ ('.' :: (d' :: ds ++ 'e' :: (intChars e ++ rest))).head?,
          c.isDigit = false := by
        simp only [List.head?_cons, Option.mem_some_iff, forall_eq']
        decide
      have hfraction := fraction?_point
        (fun c hc => hdigits c (List.mem_cons_of_mem _ hc)) (List.cons_ne_nil d' ds) hmark
      have hread := number?_sign_append negative hd (List.cons_ne_nil _ _) hpoint
      rw [hfraction] at hread
      simp only [Decimal.exponential, List.cons_append, List.append_assoc, Bool.false_and,
        Bool.false_eq_true, if_false, List.nil_append] at hread ⊢
      rw [hread]
      simp [hexponent]

/-- A signed integer of 64 bits reads back. -/
theorem number?_int (i : Int64) (hrest : ∀ c ∈ rest.head?, isSticky c = false) :
    number? (intChars i.toInt ++ rest) = some (.int i, rest) := by
  have hsplit : intChars i.toInt ++ rest =
      (if decide (i.toInt < 0) then ['-'] else []) ++ (natChars i.toInt.natAbs ++ rest) := by
    unfold intChars
    by_cases hneg : i.toInt < 0 <;> simp [hneg]
  have hread := number?_sign_append (decide (i.toInt < 0))
    (fun c hc => Decimal.isDigit_of_mem_natChars hc) (Decimal.natChars_ne_nil i.toInt.natAbs)
    fun c hc => not_isDigit_of_not_isSticky (hrest c hc)
  have hvalue : (if decide (i.toInt < 0) = true then -(i.toInt.natAbs : Int)
      else (i.toInt.natAbs : Int)) = i.toInt := by
    by_cases hneg : i.toInt < 0
    · rw [if_pos (decide_eq_true hneg)]
      omega
    · rw [if_neg (by simpa using hneg)]
      omega
  have hfits : fitsInt64 i.toInt = true := by
    have hlow := i.le_toInt
    have hhigh := i.toInt_lt
    simp only [fitsInt64, Bool.and_eq_true, decide_eq_true_eq]
    omega
  rw [hsplit, hread, fraction?_eq_none hrest]
  simp only [Option.getD_none, exponent?_eq_none hrest, Decimal.digitsValue_natChars, hvalue,
    hfits, Option.isNone_none, Bool.and_self, if_true, Int64.ofInt_toInt]

/-- Digits in positional notation, a point and a zero behind whole ones, are read as the
double of their value. -/
theorem number?_chars_positional (negative : Bool) {ds : List Char}
    (hds : ∀ d ∈ ds, d.isDigit = true) (hne : ds ≠ []) (first : Int)
    (hrest : ∀ c ∈ rest.head?, isSticky c = false) :
    number? ((if negative then ['-'] else []) ++
        (Decimal.positional true ds first ++ rest)) =
      some (.float (Double.ofScientific negative (digitsValue ds) (first + 1 - ds.length)),
        rest) := by
  have hzeros (k : Nat) : ∀ d ∈ List.replicate k '0', d.isDigit = true := by
    intro d hd
    rw [List.eq_of_mem_replicate hd]
    rfl
  have happend {xs ys : List Char} (hxs : ∀ d ∈ xs, d.isDigit = true)
      (hys : ∀ d ∈ ys, d.isDigit = true) : ∀ d ∈ xs ++ ys, d.isDigit = true := by
    intro d hd
    rcases List.mem_append.1 hd with hd | hd
    · exact hxs d hd
    · exact hys d hd
  -- The three layouts of positional notation: zeros in front of the digits, behind them, or none.
  by_cases hneg : first < 0
  · let zeros := List.replicate (-first - 1).toNat '0'
    have hread := number?_positional negative (hzeros 1) (by simp)
      (happend (hzeros (-first - 1).toNat) hds) (by simp [hne]) hrest
    have hvalue : digitsValue (List.replicate 1 '0' ++ (zeros ++ ds)) = digitsValue ds := by
      rw [Decimal.digitsValue_zeros_append, Decimal.digitsValue_zeros_append]
    have hplaces : -((zeros ++ ds).length : Int) = first + 1 - ds.length := by
      simp only [zeros, List.length_append, List.length_replicate]
      omega
    rw [hvalue, hplaces] at hread
    rw [Decimal.positional, if_pos hneg]
    exact hread
  · rw [Decimal.positional, if_neg hneg]
    by_cases hwhole : ds.length ≤ first.toNat + 1
    · let k := first.toNat + 1 - ds.length
      have hread := number?_positional negative (happend hds (hzeros k)) (by simp [hne])
        (hzeros 1) (by simp) hrest
      have hvalue : digitsValue (ds ++ List.replicate k '0' ++ List.replicate 1 '0') =
          digitsValue ds * 10 ^ (k + 1) := by
        rw [List.append_assoc, List.replicate_append_replicate, Decimal.digitsValue_append_zeros]
      have hplaces : -((List.replicate 1 '0').length : Int) + ((k + 1 : Nat) : Int) =
          first + 1 - ds.length := by
        simp only [k, List.length_replicate]
        omega
      rw [hvalue, Double.ofScientific, Double.decimalIndex_mul_pow, hplaces] at hread
      simp only [if_pos hwhole]
      simpa [Double.ofScientific] using hread
    · let whole := first.toNat + 1
      have hread := number?_positional negative
        (fun c hc => hds c (List.mem_of_mem_take (i := whole) hc)) (by simp [hne, whole])
        (fun c hc => hds c (List.mem_of_mem_drop (i := whole) hc))
        (by simpa [whole] using hwhole) hrest
      have hplaces : -((ds.drop whole).length : Int) = first + 1 - ds.length := by
        simp only [List.length_drop, whole]
        omega
      rw [List.take_append_drop, hplaces] at hread
      simp only [if_neg hwhole]
      simpa using hread

/-- The text of a finite magnitude reads back. -/
theorem number?_magnitude (negative : Bool) {index : Nat} (hfinite : index < Double.magnitudes)
    (hrest : ∀ c ∈ rest.head?, isSticky c = false) :
    number? ((if negative then ['-'] else []) ++
        (Decimal.magnitudeChars Decimal.Form.literal index ++ rest)) =
      some (.float (Double.ofIndex negative index), rest) := by
  by_cases hzero : index = 0
  · have hdigit : ∀ d ∈ ['0'], d.isDigit = true := by simp
    have hread := number?_chars_positional negative hdigit (by simp) 0 hrest
    rw [Decimal.magnitudeChars, if_pos hzero, hzero]
    exact hread
  -- the shortest digits name the magnitude, so either notation of them reads back as it
  · obtain ⟨⟨digits, exponent⟩, hshortest⟩ :
        ∃ r, Decimal.shortest Decimal.Form.literal.tie index = r := ⟨_, rfl⟩
    have hback := Decimal.decimalIndex_shortest (Nat.pos_of_ne_zero hzero) hfinite
      Decimal.Form.literal.tie
    rw [hshortest] at hback
    have hdigits : ∀ c ∈ natChars digits, c.isDigit = true := fun c hc =>
      Decimal.isDigit_of_mem_natChars hc
    obtain ⟨d, ds, hds⟩ := List.exists_cons_of_ne_nil (Decimal.natChars_ne_nil digits)
    have hvalue : digitsValue (d :: ds) = digits := by
      rw [← hds, Decimal.digitsValue_natChars]
    let first : Int := exponent + (d :: ds).length - 1
    have htext : Decimal.magnitudeChars Decimal.Form.literal index =
        if Decimal.Form.literal.positionalFrom ≤ first ∧
            first ≤ Decimal.Form.literal.positionalTo then Decimal.positional true (d :: ds) first
        else Decimal.exponential false (d :: ds) first := by
      rw [Decimal.magnitudeChars, if_neg hzero, hshortest]
      simp only [hds]
      rfl
    rw [hds] at hdigits
    rw [htext]
    by_cases hpositional : Decimal.Form.literal.positionalFrom ≤ first ∧
        first ≤ Decimal.Form.literal.positionalTo
    · have hread := number?_chars_positional negative hdigits (List.cons_ne_nil d ds) first hrest
      have hexponent : first + 1 - (d :: ds).length = exponent := by omega
      rw [hexponent, hvalue, Double.ofScientific, hback] at hread
      rw [if_pos hpositional]
      exact hread
    · have hread := number?_exponential negative hdigits first hrest
      have hexponent : first - ds.length = exponent := by
        simp only [first, List.length_cons]
        omega
      rw [hexponent, hvalue, Double.ofScientific, hback] at hread
      rw [if_neg hpositional]
      exact hread

/-- The text of a finite double reads back. -/
theorem number?_double {d : Double} (hd : d.isFinite = true)
    (hrest : ∀ c ∈ rest.head?, isSticky c = false) :
    number? (Decimal.Form.literal.chars d ++ rest) = some (.float d, rest) := by
  cases d with
  | finite negative index =>
      have hread := number?_magnitude negative index.isLt hrest
      rw [Double.ofIndex, dif_pos index.isLt] at hread
      cases negative with
      | true => exact hread
      | false => exact hread
  | infinite negative => cases hd
  | nan => cases hd

end Parts

section Characters

theorem isSticky_of_mem_natChars {n : Nat} {c : Char} (h : c ∈ natChars n) : isSticky c = true :=
  isSticky_of_isDigit (Decimal.isDigit_of_mem_natChars h)

theorem isSticky_of_mem_intChars {i : Int} {c : Char} (h : c ∈ intChars i) :
    isSticky c = true := by
  unfold intChars at h
  split at h
  · rcases List.mem_cons.1 h with rfl | h
    · decide
    · exact isSticky_of_mem_natChars h
  · exact isSticky_of_mem_natChars h

theorem isSticky_of_mem_positional {ds : List Char} (hds : ∀ d ∈ ds, isSticky d = true)
    {first : Int} {c : Char} (h : c ∈ Decimal.positional true ds first) : isSticky c = true := by
  have hzero {k : Nat} (hc : c ∈ List.replicate k '0') : isSticky c = true :=
    List.eq_of_mem_replicate hc ▸ by decide
  have hpoint (hc : c ∈ ['.', '0']) : isSticky c = true := by
    rcases List.mem_pair.1 hc with rfl | rfl
    · decide
    · decide
  unfold Decimal.positional at h
  split at h
  · simp only [List.mem_cons, List.mem_append] at h
    rcases h with rfl | rfl | h | h
    · decide
    · decide
    · exact hzero h
    · exact hds c h
  · simp only at h
    split at h
    · simp only [if_true, List.mem_append] at h
      rcases h with (h | h) | h
      · exact hds c h
      · exact hzero h
      · exact hpoint h
    · simp only [List.mem_append, List.mem_cons] at h
      rcases h with h | rfl | h
      · exact hds c (List.mem_of_mem_take h)
      · decide
      · exact hds c (List.mem_of_mem_drop h)

theorem isSticky_of_mem_exponential {ds : List Char} (hds : ∀ d ∈ ds, isSticky d = true)
    {first : Int} {c : Char} (h : c ∈ Decimal.exponential false ds first) :
    isSticky c = true := by
  unfold Decimal.exponential at h
  simp only [Bool.false_and, Bool.false_eq_true, if_false, List.nil_append, List.mem_append,
    List.mem_cons] at h
  rcases h with h | rfl | h
  · -- the mantissa: no digit, one digit, or digits with a point behind the first
    split at h
    · rw [List.mem_singleton] at h
      exact h ▸ by decide
    · exact hds c h
    · simp only [List.mem_cons] at h
      rcases h with rfl | rfl | h
      · exact hds _ List.mem_cons_self
      · decide
      · exact hds c (List.mem_cons_of_mem _ h)
  · decide
  · exact isSticky_of_mem_intChars h

/-- The text of a finite double runs together with names and numbers. -/
theorem isSticky_of_mem_double {d : Double} (hd : d.isFinite = true) {c : Char}
    (h : c ∈ Decimal.Form.literal.chars d) : isSticky c = true := by
  have hmagnitude {index : Nat}
      (hc : c ∈ Decimal.magnitudeChars Decimal.Form.literal index) : isSticky c = true := by
    unfold Decimal.magnitudeChars at hc
    split at hc
    · refine isSticky_of_mem_positional ?_ hc
      simp only [List.mem_singleton, forall_eq]
      decide
    · simp only at hc
      split at hc
      · exact isSticky_of_mem_positional (fun d hd => isSticky_of_mem_natChars hd) hc
      · exact isSticky_of_mem_exponential (fun d hd => isSticky_of_mem_natChars hd) hc
  cases d with
  | finite negative index =>
      unfold Decimal.Form.chars at h
      simp only at h
      split at h
      · rcases List.mem_cons.1 h with rfl | h
        · decide
        · exact hmagnitude h
      · exact hmagnitude h
  | infinite negative => cases hd
  | nan => cases hd

/-- Where a number is read there is a sign or a digit. -/
theorem number?_eq_none {c : Char} (hminus : c ≠ '-') (hdigit : c.isDigit = false)
    (rest : List Char) : number? (c :: rest) = none := by
  rw [number?.eq_2 _ fun more heq => hminus (List.cons.inj heq).1]
  simp [takeDigits, hdigit]

end Characters

end Query

end DexCache
