import DexCache.Proofs.Decimal.Exact
import DexCache.Proofs.Query.Number

/-!
# Numerals

The numbers of a query document are numerals: digits after an optional minus sign, maybe with
more behind a point, maybe with an exponent.  A numeral writes one number exactly.  As a text it
is read as that number, unless its exponent or its scale is out of range; as a literal it is an
integer of 64 bits where it is written as one, and otherwise the nearest double.
-/

namespace DexCache

namespace Query

open Decimal (digitsValue takeDigits)

/-- The exponent of a numeral: digits behind a mark and an optional sign. -/
structure Exponent where
  mark : Char
  sign : Option Char
  digits : List Char
  isMark : mark = 'e' ∨ mark = 'E'
  isSign : ∀ c ∈ sign, c = '+' ∨ c = '-'
  isDigit : ∀ d ∈ digits, d.isDigit = true
  ne_nil : digits ≠ []

/-- A number as it is written. -/
structure Numeral where
  negative : Bool
  whole : List Char
  fraction : Option (List Char)
  exponent : Option Exponent
  isDigit_whole : ∀ d ∈ whole, d.isDigit = true
  whole_ne_nil : whole ≠ []
  isDigit_fraction : ∀ ds ∈ fraction, ∀ d ∈ ds, d.isDigit = true
  fraction_ne_nil : ∀ ds ∈ fraction, ds ≠ []

namespace Exponent

/-- The text of an exponent. -/
def chars (e : Exponent) : List Char :=
  e.mark :: (e.sign.toList ++ e.digits)

/-- The power that an exponent writes. -/
def power (e : Exponent) : Int :=
  if e.sign = some '-' then -(digitsValue e.digits : Int) else digitsValue e.digits

end Exponent

namespace Numeral

/-- The text of a numeral. -/
def chars (n : Numeral) : List Char :=
  Amount.decimalChars n.negative n.whole n.fraction ++ n.exponent.elim [] Exponent.chars

/-- The text of a numeral as a string. -/
def text (n : Numeral) : String :=
  String.ofList n.chars

/-- All digits of a numeral but those of its exponent, as one number. -/
def digits (n : Numeral) : Nat :=
  digitsValue (n.whole ++ n.fraction.getD [])

/-- How many of the digits stand behind the point. -/
def places (n : Numeral) : Nat :=
  (n.fraction.getD []).length

/-- The power of ten of a numeral, zero where it has no exponent. -/
def power (n : Numeral) : Int :=
  n.exponent.elim 0 Exponent.power

/-- The number that a numeral writes. -/
def value (n : Numeral) : ℚ :=
  (if n.negative then -1 else 1) * n.digits * 10 ^ (n.power - n.places)

/-- An exponent of 128 bits and a scale of 64. -/
@[mk_iff]
structure InRange (n : Numeral) : Prop where
  least : -170141183460469231731687303715884105728 ≤ n.power
  greatest : n.power ≤ 170141183460469231731687303715884105727
  scale : -9223372036854775808 ≤ n.places - n.power ∧ n.places - n.power ≤ 9223372036854775807

instance (n : Numeral) : Decidable n.InRange :=
  decidable_of_iff' _ (inRange_iff n)

/-- The integer in front of the point. -/
def integer (n : Numeral) : Int :=
  if n.negative then -(digitsValue n.whole : Int) else digitsValue n.whole

/-- The literal that a numeral is read as. -/
def literal (n : Numeral) : Literal :=
  if n.fraction.isNone && n.exponent.isNone && fitsInt64 n.integer then
    .int (Int64.ofInt n.integer)
  else .float (Double.ofScientific n.negative n.digits (n.power - n.places))

/-- What holds of digits, of signs, of the point and of the marks of an exponent holds of all
characters of a numeral. -/
theorem forall_mem_chars (n : Numeral) {p : Char → Prop}
    (hdigit : ∀ c : Char, c.isDigit = true → p c) (hsigns : p '-' ∧ p '+') (hpoint : p '.')
    (hmarks : p 'e' ∧ p 'E') : ∀ c ∈ n.chars, p c := by
  intro c hc
  rcases List.mem_append.1 hc with hc | hc
  · rcases Amount.mem_decimalChars n.isDigit_whole n.isDigit_fraction hc with h | rfl | rfl
    · exact hdigit c h
    · exact hsigns.1
    · exact hpoint
  · cases he : n.exponent with
    | none =>
        rw [he] at hc
        cases hc
    | some e =>
        rw [he] at hc
        rcases List.mem_cons.1 hc with rfl | hc
        · rcases e.isMark with h | h
          · exact h ▸ hmarks.1
          · exact h ▸ hmarks.2
        · rcases List.mem_append.1 hc with hc | hc
          · rcases e.isSign c (by simpa using hc) with rfl | rfl
            · exact hsigns.2
            · exact hsigns.1
          · exact hdigit c (e.isDigit c hc)

theorem chars_ne_nil (n : Numeral) : n.chars ≠ [] := by
  simp [chars, Amount.decimalChars, n.whole_ne_nil]

end Numeral

section Grammar

variable {rest : List Char}

theorem takeDigits_spec (cs : List Char) :
    cs = (takeDigits cs).1 ++ (takeDigits cs).2 ∧
      (∀ d ∈ (takeDigits cs).1, d.isDigit = true) ∧
      ∀ c ∈ (takeDigits cs).2.head?, c.isDigit = false := by
  simp only [takeDigits, List.span_eq_takeWhile_dropWhile]
  refine ⟨List.takeWhile_append_dropWhile.symm, fun d hd => List.mem_takeWhile_imp hd, ?_⟩
  intro c hc
  have hnot := List.head?_dropWhile_not Char.isDigit cs
  rw [hc] at hnot
  simpa using hnot

/-- A fraction is a point and digits. -/
theorem eq_of_fraction? {cs digits : List Char} (h : fraction? cs = some (digits, rest)) :
    cs = '.' :: (digits ++ rest) ∧ (∀ d ∈ digits, d.isDigit = true) ∧ digits ≠ [] := by
  unfold fraction? at h
  split at h
  · next more =>
      simp only at h
      split at h
      · cases h
      · next hne =>
          obtain ⟨rfl, rfl⟩ := Prod.mk.inj (Option.some.inj h)
          obtain ⟨hsplit, hdigits, -⟩ := takeDigits_spec more
          exact ⟨by rw [← hsplit], hdigits, by simpa using hne⟩
  · cases h

/-- Every text is what stands behind either sign, or has none. -/
theorem exists_sign (cs : List Char) : ∃ (sign : Option Char) (more : List Char),
    cs = sign.toList ++ more ∧ (∀ s ∈ sign, s = '+' ∨ s = '-') ∧
      (sign = none → ∀ c ∈ more.head?, c ≠ '+' ∧ c ≠ '-') := by
  cases cs with
  | nil => exact ⟨none, [], rfl, by simp, by simp⟩
  | cons c more =>
      by_cases hc : c = '+' ∨ c = '-'
      · exact ⟨some c, more, rfl, by simpa using hc, by simp⟩
      · exact ⟨none, c :: more, rfl, by simp, by simpa using hc⟩

/-- What an exponent is read as, its sign split off. -/
theorem exponent?_signed {mark : Char} (hmark : mark = 'e' ∨ mark = 'E') {sign : Option Char}
    (hsign : ∀ s ∈ sign, s = '+' ∨ s = '-') {more : List Char}
    (hnone : sign = none → ∀ c ∈ more.head?, c ≠ '+' ∧ c ≠ '-') :
    exponent? (mark :: (sign.toList ++ more)) =
      if (takeDigits more).1.isEmpty then none
      else some (if sign = some '-' then -(digitsValue (takeDigits more).1 : Int)
        else digitsValue (takeDigits more).1, (takeDigits more).2) := by
  have hmarked : (mark = 'e' || mark = 'E') = true := by simpa using hmark
  cases sign with
  | some s =>
      rcases hsign s rfl with rfl | rfl
      all_goals
        simp [exponent?, hmarked]
  | none =>
      cases more with
      | nil => simp [exponent?, hmarked]
      | cons c more =>
          obtain ⟨hplus, hminus⟩ := hnone rfl c rfl
          simp [exponent?, hmarked, hplus, hminus]

/-- An exponent is a mark, an optional sign and digits. -/
theorem exists_of_exponent? {cs : List Char} {power : Int} (h : exponent? cs = some (power, rest)) :
    ∃ e : Exponent, cs = e.chars ++ rest ∧ e.power = power := by
  cases cs with
  | nil => cases h
  | cons mark cs =>
      have hmark : mark = 'e' ∨ mark = 'E' := by
        by_contra hother
        simp [exponent?, not_or.1 hother] at h
      obtain ⟨sign, more, rfl, hsign, hnone⟩ := exists_sign cs
      rw [exponent?_signed hmark hsign hnone] at h
      split at h
      · cases h
      · next hne =>
          obtain ⟨hsplit, hdigits, -⟩ := takeDigits_spec more
          obtain ⟨hpower, rfl⟩ := Prod.mk.inj (Option.some.inj h)
          refine ⟨⟨mark, sign, (takeDigits more).1, hmark, hsign, hdigits, by simpa using hne⟩,
            ?_, hpower⟩
          rw [Exponent.chars, List.cons_append, List.append_assoc, ← hsplit]

/-- An exponent is read as the power that it writes. -/
theorem exponent?_chars (e : Exponent) (hrest : ∀ c ∈ rest.head?, c.isDigit = false) :
    exponent? (e.chars ++ rest) = some (e.power, rest) := by
  have hsign : e.sign = none → ∀ c ∈ (e.digits ++ rest).head?, c ≠ '+' ∧ c ≠ '-' := by
    intro _ c hc
    obtain ⟨d, ds, hds⟩ := List.exists_cons_of_ne_nil e.ne_nil
    have hd : d.isDigit = true := e.isDigit d (hds ▸ List.mem_cons_self)
    obtain rfl : d = c := by simpa [hds] using hc
    exact ⟨Decimal.ne_of_isDigit hd rfl, Decimal.ne_of_isDigit hd rfl⟩
  rw [Exponent.chars, List.cons_append, List.append_assoc,
    exponent?_signed e.isMark e.isSign hsign, Decimal.takeDigits_append e.isDigit hrest,
    if_neg (by simpa using e.ne_nil), Exponent.power]

theorem Exponent.head?_not_isDigit (e : Option Exponent)
    (hrest : ∀ c ∈ rest.head?, c.isDigit = false) :
    ∀ c ∈ (e.elim [] Exponent.chars ++ rest).head?, c.isDigit = false := by
  cases e with
  | none => exact hrest
  | some e =>
      intro c hc
      obtain rfl : e.mark = c := by simpa [Exponent.chars] using hc
      rcases e.isMark with h | h
      all_goals
        rw [h]
        decide

/-- A number is read as the literal of its parts. -/
theorem number?_of_parts (n : Numeral) {more behind last : List Char}
    (hmore : ∀ c ∈ more.head?, c.isDigit = false)
    (hfraction : fraction? more = n.fraction.map (·, behind))
    (hnone : n.fraction = none → behind = more)
    (hexponent : exponent? behind = n.exponent.map fun e => (e.power, last))
    (hlast : n.exponent = none → last = behind) :
    number? ((if n.negative then ['-'] else []) ++ (n.whole ++ more)) =
      some (n.literal, last) := by
  rw [number?_sign_append n.negative n.isDigit_whole n.whole_ne_nil hmore, hfraction]
  obtain ⟨negative, whole, fraction, exponent, hwhole, hne, hdigits, hdigits'⟩ := n
  -- only without a fraction and without an exponent can the literal be an integer
  cases hplain : fraction.isNone && exponent.isNone with
  | true =>
      obtain ⟨rfl, rfl⟩ : fraction = none ∧ exponent = none := by simpa using hplain
      obtain rfl := hnone rfl
      obtain rfl := hlast rfl
      cases hfits : fitsInt64 (if negative then -(digitsValue whole : Int) else digitsValue whole)
      all_goals
        simp_all [Numeral.literal, Numeral.integer, Numeral.digits, Numeral.places, Numeral.power]
  | false =>
      cases fraction
      all_goals
        cases exponent
        all_goals
          simp_all [Numeral.literal, Numeral.digits, Numeral.places, Numeral.power]

/-- A numeral is read as its literal, whatever follows that does not run together with it. -/
theorem number?_numeral (n : Numeral) (hrest : ∀ c ∈ rest.head?, isSticky c = false) :
    number? (n.chars ++ rest) = some (n.literal, rest) := by
  have hdigit : ∀ c ∈ rest.head?, c.isDigit = false := fun c hc =>
    not_isDigit_of_not_isSticky (hrest c hc)
  have hexponent : exponent? (n.exponent.elim [] Exponent.chars ++ rest) =
      n.exponent.map fun e => (e.power, rest) := by
    cases n.exponent with
    | none => exact exponent?_eq_none hrest
    | some e => exact exponent?_chars e hdigit
  have hbehind := Exponent.head?_not_isDigit n.exponent hdigit
  have hlast : n.exponent = none → rest = n.exponent.elim [] Exponent.chars ++ rest := by
    intro hnone
    rw [hnone]
    rfl
  rw [Numeral.chars, Amount.decimalChars, List.append_assoc, List.append_assoc, List.append_assoc]
  cases hfraction : n.fraction with
  | some ds =>
      have hread := fraction?_point (n.isDigit_fraction ds hfraction)
        (n.fraction_ne_nil ds hfraction) hbehind
      refine number?_of_parts n (fun c hc => ?_) (hread.trans (by rw [hfraction]; rfl))
        (fun hnone => by rw [hfraction] at hnone; cases hnone) hexponent hlast
      obtain rfl : '.' = c := by simpa using hc
      decide
  | none =>
      refine number?_of_parts n hbehind ?_ (fun _ => rfl) hexponent hlast
      rw [hfraction]
      refine fraction?.eq_2 _ fun more heq => ?_
      have hpoint : '.' ∈ (n.exponent.elim [] Exponent.chars ++ rest).head? :=
        congrArg List.head? heq
      cases hexp : n.exponent with
      | none =>
          rw [hexp] at hpoint
          exact absurd (hrest '.' hpoint) (by decide)
      | some e =>
          rw [hexp] at hpoint
          obtain heq : e.mark = '.' := by simpa [Exponent.chars] using hpoint
          rcases e.isMark with h | h
          all_goals
            rw [h] at heq
            cases heq

/-- What stands in front of the digits of a number is at most a minus sign. -/
theorem exists_of_number? {cs : List Char} {l : Literal} (h : number? cs = some (l, rest)) :
    ∃ (negative : Bool) (whole more : List Char),
      cs = (if negative then ['-'] else []) ++ (whole ++ more) ∧
        (∀ d ∈ whole, d.isDigit = true) ∧ whole ≠ [] ∧ ∀ c ∈ more.head?, c.isDigit = false := by
  obtain ⟨negative, unsigned, hsplit, hread⟩ : ∃ (negative : Bool) (unsigned : List Char),
      cs = (if negative then ['-'] else []) ++ unsigned ∧
        ((takeDigits unsigned).1 = [] → number? cs = none) := by
    by_cases hminus : cs.head? = some '-'
    · obtain ⟨unsigned, rfl⟩ := List.head?_eq_some_iff.1 hminus
      exact ⟨true, unsigned, rfl, fun hempty => by simp [number?, hempty]⟩
    · have hother : ∀ more, cs = '-' :: more → False := fun more heq => hminus (by rw [heq]; rfl)
      refine ⟨false, cs, rfl, fun hempty => ?_⟩
      rw [number?.eq_2 _ hother]
      simp [hempty]
  obtain ⟨hunsigned, hdigits, hmore⟩ := takeDigits_spec unsigned
  refine ⟨negative, (takeDigits unsigned).1, (takeDigits unsigned).2, by rw [← hunsigned, hsplit],
    hdigits, fun hempty => ?_, hmore⟩
  rw [hread hempty] at h
  cases h

/-- Whatever is read as a number is a numeral, and is read as its literal. -/
theorem exists_numeral {cs : List Char} {l : Literal} (h : number? cs = some (l, rest)) :
    ∃ n : Numeral, cs = n.chars ++ rest ∧ n.literal = l := by
  obtain ⟨negative, whole, more, rfl, hwhole, hne, hmore⟩ := exists_of_number? h
  obtain ⟨fraction, behind, hparts, hdigits, hdigits', hfraction, hnone⟩ :
      ∃ (fraction : Option (List Char)) (behind : List Char),
        more = fraction.elim [] ('.' :: ·) ++ behind ∧
          (∀ ds ∈ fraction, ∀ d ∈ ds, d.isDigit = true) ∧ (∀ ds ∈ fraction, ds ≠ []) ∧
          fraction? more = fraction.map (·, behind) ∧ (fraction = none → behind = more) := by
    cases hread : fraction? more with
    | none => exact ⟨none, more, rfl, by simp, by simp, rfl, fun _ => rfl⟩
    | some read =>
        obtain ⟨ds, behind⟩ := read
        obtain ⟨hsplit, hdigits, hne⟩ := eq_of_fraction? hread
        exact ⟨some ds, behind, hsplit, by simpa using hdigits, by simpa using hne, rfl, by simp⟩
  obtain ⟨exponent, last, hbehind, hexponent, hlast⟩ :
      ∃ (exponent : Option Exponent) (last : List Char),
        behind = exponent.elim [] Exponent.chars ++ last ∧
          exponent? behind = exponent.map (fun e => (e.power, last)) ∧
          (exponent = none → last = behind) := by
    cases hread : exponent? behind with
    | none => exact ⟨none, behind, rfl, rfl, fun _ => rfl⟩
    | some read =>
        obtain ⟨power, last⟩ := read
        obtain ⟨e, hsplit, hpower⟩ := exists_of_exponent? hread
        exact ⟨some e, last, hsplit, by rw [Option.map_some, hpower], by simp⟩
  let n : Numeral := ⟨negative, whole, fraction, exponent, hwhole, hne, hdigits, hdigits'⟩
  have hread := number?_of_parts n hmore hfraction hnone hexponent hlast
  obtain ⟨hl, rfl⟩ := Prod.mk.inj (Option.some.inj (hread.symm.trans h))
  refine ⟨n, ?_, hl⟩
  rw [Numeral.chars, Amount.decimalChars, List.append_assoc, List.append_assoc, List.append_assoc,
    hparts, hbehind]

end Grammar

end Query

namespace Amount

open Decimal (digitsValue)
open Query (Exponent Numeral)

section Exponents

/-- Digits are read as long as their value stays within the bound. -/
theorem exponentDigits_digits {bound : Nat} (fault : Fault) {ds : List Char}
    (hds : ∀ d ∈ ds, d.isDigit = true) {value : Nat} (hvalue : value ≤ bound) :
    exponentDigits bound fault value ds =
      if Nat.ofDigitChars 10 ds value ≤ bound then .ok (Nat.ofDigitChars 10 ds value)
      else .error fault := by
  induction ds generalizing value with
  | nil => simp [exponentDigits, hvalue]
  | cons d ds ih =>
      have hd : d.isDigit = true := hds d List.mem_cons_self
      have hnext : value * 10 + (d.toNat - 48) = 10 * value + (d.toNat - '0'.toNat) := by
        rw [Nat.mul_comm]
        rfl
      rw [exponentDigits, if_pos hd, Nat.ofDigitChars_cons, ← hnext]
      simp only
      split
      · next hfar =>
          -- further digits never make a value smaller
          have hgrows : value * 10 + (d.toNat - 48) ≤
              Nat.ofDigitChars 10 ds (value * 10 + (d.toNat - 48)) := by
            rw [Nat.ofDigitChars_eq_ofDigitChars_zero]
            have hpow : 0 < 10 ^ ds.length := Nat.pow_pos (by decide)
            exact (Nat.le_mul_of_pos_left _ hpow).trans (Nat.le_add_right _ _)
          rw [if_neg (by omega)]
      · next hnear => exact ih (fun c hc => hds c (List.mem_cons_of_mem _ hc)) (by omega)

/-- The power of an exponent is read if it fits 128 bits. -/
theorem toOption_exponentOf (e : Exponent) :
    (exponentOf (e.sign.toList ++ e.digits)).toOption =
      if -170141183460469231731687303715884105728 ≤ e.power ∧
          e.power ≤ 170141183460469231731687303715884105727 then some e.power else none := by
  obtain ⟨mark, sign, digits, hmark, hsign, hdigits, hne⟩ := e
  obtain ⟨d, ds, rfl⟩ := List.exists_cons_of_ne_nil hne
  have hd : d.isDigit = true := hdigits d List.mem_cons_self
  have hminus : d ≠ '-' := Decimal.ne_of_isDigit hd rfl
  have hplus : d ≠ '+' := Decimal.ne_of_isDigit hd rfl
  obtain ⟨value, hvalue⟩ : ∃ value, digitsValue (d :: ds) = value := ⟨_, rfl⟩
  have hread (bound : Nat) (fault : Fault) : exponentDigits bound fault 0 (d :: ds) =
      if value ≤ bound then .ok value else .error fault := by
    rw [← hvalue]
    exact exponentDigits_digits fault hdigits (Nat.zero_le bound)
  have hupper : ((exponentDigits (exponentBound - 1) .tooLarge 0 (d :: ds)).map
      Int.ofNat).toOption =
        if -170141183460469231731687303715884105728 ≤ (value : Int) ∧
          (value : Int) ≤ 170141183460469231731687303715884105727 then some (value : Int)
        else none := by
    rw [hread, exponentBound]
    split
    · next hfits =>
        rw [if_pos (by omega)]
        rfl
    · next hfar =>
        rw [if_neg (by omega)]
        rfl
  cases sign with
  | none =>
      have hopens : exponentOf (d :: ds) =
          (exponentDigits (exponentBound - 1) .tooLarge 0 (d :: ds)).map Int.ofNat := by
        simp [exponentOf, hminus, hplus]
      rw [Option.toList_none, List.nil_append, hopens, hupper, Exponent.power, hvalue]
      rfl
  | some s =>
      rcases hsign s rfl with rfl | rfl
      · have hopens : exponentOf ('+' :: d :: ds) =
            (exponentDigits (exponentBound - 1) .tooLarge 0 (d :: ds)).map Int.ofNat := by
          simp [exponentOf]
        rw [Option.toList_some, List.singleton_append, hopens, hupper, Exponent.power, hvalue]
        rfl
      · have hopens : exponentOf ('-' :: d :: ds) =
            (exponentDigits exponentBound .tooSmall 0 (d :: ds)).map fun n => -(n : Int) := by
          simp [exponentOf]
        rw [Option.toList_some, List.singleton_append, hopens, hread, exponentBound,
          Exponent.power, hvalue, if_pos rfl]
        split
        · next hfits =>
            rw [if_pos (by omega)]
            rfl
        · next hfar =>
            rw [if_neg (by omega)]
            rfl

end Exponents

section Numerals

variable (n : Numeral)

/-- The amount that a numeral writes. -/
def ofNumeral : Amount :=
  ⟨if n.negative then -(n.digits : Int) else n.digits, n.places - n.power⟩

@[simp] theorem value_ofNumeral : (ofNumeral n).value = n.value := by
  rw [ofNumeral, value, Numeral.value, neg_sub]
  cases n.negative with
  | true => simp
  | false => simp

/-- A numeral is read as an amount part by part: its exponent, its scale, its digits. -/
theorem ofChars_numeral : ofChars n.chars =
    (n.exponent.elim (.ok 0) fun e => exponentOf (e.sign.toList ++ e.digits)).bind fun power =>
      if (n.places : Int) - power < -9223372036854775808 ∨
          9223372036854775807 < (n.places : Int) - power then
        .error (.scaleOutOfRange (String.ofList n.chars))
      else .ok ⟨(ofNumeral n).digits, n.places - power⟩ := by
  have hmark : ∀ c ∈ (n.exponent.elim [] Exponent.chars).head?, c = 'e' ∨ c = 'E' := by
    cases n.exponent with
    | none => exact fun c hc => nomatch hc
    | some e =>
        rintro _ ⟨rfl⟩
        exact e.isMark
  rw [Numeral.chars, ofChars_marked n.isDigit_whole n.whole_ne_nil n.isDigit_fraction hmark]
  cases n.exponent with
  | none => rfl
  | some e => rfl

/-- As a text a numeral is read as the amount that it writes, if its exponent and its scale are
in range, and is no amount otherwise. -/
theorem ofText?_numeral : ofText? n.text = if n.InRange then some (ofNumeral n) else none := by
  have htrim : Text.trim n.chars = n.chars :=
    Text.trim_eq_self (n.forall_mem_chars (fun _ => Text.isBlank_of_isDigit) (by decide)
      (by decide) (by decide))
  have hpower : (n.exponent.elim (.ok 0) fun e =>
      exponentOf (e.sign.toList ++ e.digits)).toOption =
        if -170141183460469231731687303715884105728 ≤ n.power ∧
          n.power ≤ 170141183460469231731687303715884105727 then some n.power else none := by
    rw [Numeral.power]
    cases n.exponent with
    | none => rfl
    | some e => exact toOption_exponentOf e
  rw [ofText?, parse, Numeral.text, String.toList_ofList, htrim, ofChars_numeral]
  cases hread : n.exponent.elim (.ok 0) fun e => exponentOf (e.sign.toList ++ e.digits) with
  | error fault =>
      rw [hread] at hpower
      have hout : ¬n.InRange := by
        intro h
        rw [if_pos ⟨h.least, h.greatest⟩] at hpower
        cases hpower
      rw [if_neg hout]
      rfl
  | ok power =>
      rw [hread] at hpower
      split at hpower
      · next hin =>
          obtain rfl : power = n.power := Option.some.inj hpower
          simp only [Except.bind]
          split
          · next hscale =>
              have hout : ¬n.InRange := by
                intro h
                have hfits := h.scale
                omega
              rw [if_neg hout]
              rfl
          · next hscale =>
              rw [if_pos ⟨hin.1, hin.2, by omega⟩]
              rfl
      · cases hpower

end Numerals

end Amount

end DexCache
