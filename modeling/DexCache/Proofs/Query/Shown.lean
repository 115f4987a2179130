import DexCache.Json.Amount
import DexCache.Proofs.Query.Numeral
import DexCache.Query.Argument

/-!
# Numbers handed on

A double is handed on as the shortest decimal that reads back, and this text is a numeral whose
exponent and scale are small.  So every numeric literal is an amount where one is asked for,
unless it is past the doubles: an integer of 64 bits is the number that is written, and any other
literal is the shortest decimal of the double nearest to it.
-/

namespace DexCache

namespace Decimal

open Double (decimalIndex magnitudes ratio)

section Bounds

variable {index : Nat}

/-- What reads back as a positive magnitude is neither too great nor too small. -/
theorem top_of_decimalIndex {digits : Nat} {exponent : Int} (hpos : 0 < index)
    (hfinite : index < magnitudes) (h : decimalIndex digits exponent = index) :
    0 < digits ∧ -330 ≤ ((natChars digits).length : Int) + exponent ∧
      ((natChars digits).length : Int) + exponent ≤ 310 := by
  unfold decimalIndex at h
  simp only at h
  split at h
  · omega
  · next hdigits =>
      split at h
      · omega
      · next hhigh =>
          split at h
          · omega
          · next hlow => exact ⟨Nat.pos_of_ne_zero hdigits, Int.not_lt.1 hlow, Int.not_lt.1 hhigh⟩

theorem length_ratio_le (index : Nat) : (Nat.toDigits 10 (ratio index).2).length ≤ 1075 := by
  refine (Nat.length_toDigits_le_iff (by decide) (by decide)).2 ?_
  obtain ⟨k, hk, hden⟩ : ∃ k ≤ 1074, (ratio index).2 = 2 ^ k := by
    unfold ratio
    split
    · exact ⟨_, Nat.sub_le _ _, rfl⟩
    · exact ⟨0, Nat.zero_le _, rfl⟩
  calc (ratio index).2 = 2 ^ k := hden
    _ ≤ 10 ^ k := Nat.pow_le_pow_left (by decide) k
    _ < 10 ^ 1075 := Nat.pow_lt_pow_right (by decide) (Nat.lt_succ_of_le hk)

theorem le_floorLog10 (num den : Nat) :
    -((Nat.toDigits 10 den).length : Int) ≤ floorLog10 num den := by
  have hpos := Nat.length_toDigits_pos (b := 10) (n := num)
  unfold floorLog10
  simp only
  split
  · split
    · omega
    · omega
  · split
    · omega
    · omega

theorem le_exact_exponent (index : Nat) : -1074 ≤ (exact index).2 := by
  rw [exact_eq]
  split
  · simp only
    omega
  · simp

theorem le_searchFrom_exponent (tie : Tie) (index : Nat) (exponent : Int) (tries : Nat) :
    min (-1074) (exponent - tries) ≤ (searchFrom tie index exponent tries).2 := by
  induction tries generalizing exponent with
  | zero =>
      have hexact := le_exact_exponent index
      rw [searchFrom]
      omega
  | succ tries ih =>
      rw [searchFrom]
      cases neighbour? tie index exponent with
      | some digits =>
          simp only
          omega
      | none =>
          have hrest := ih (exponent - 1)
          simp only
          omega

theorem le_dropZeros_exponent (fuel : Nat) (r : Nat × Int) : r.2 ≤ (dropZeros fuel r).2 := by
  induction fuel generalizing r with
  | zero => exact le_rfl
  | succ fuel ih =>
      obtain ⟨digits, exponent⟩ := r
      rw [dropZeros]
      split
      · have hrest := ih (digits / 10, exponent + 1)
        simp only at hrest ⊢
        omega
      · exact le_rfl

/-- The shortest decimal has no digit far behind the point. -/
theorem le_shortest_exponent (tie : Tie) (index : Nat) : -1092 ≤ (shortest tie index).2 := by
  have hlength := length_ratio_le index
  have hfloor := le_floorLog10 (ratio index).1 (ratio index).2
  have hsearch := le_searchFrom_exponent tie index
    (floorLog10 (ratio index).1 (ratio index).2) 17
  have hdrop := le_dropZeros_exponent 800
    (searchFrom tie index (floorLog10 (ratio index).1 (ratio index).2) 17)
  unfold shortest
  simp only
  omega

end Bounds

end Decimal

/-- The number that a finite double is handed on as: the shortest decimal that reads back. -/
def Double.shown? : Double → Option ℚ
  | .finite negative index =>
    if index.val = 0 then some 0
    else
      let (digits, exponent) := Decimal.shortest Decimal.Form.body.tie index
      some ((if negative then -1 else 1) * digits * 10 ^ exponent)
  | _ => none

namespace Query.Numeral

open Decimal (digitsValue intChars natChars)

section Doubles

variable (negative : Bool)

theorem forall_replicate_zero (k : Nat) : ∀ d ∈ List.replicate k '0', d.isDigit = true := by
  intro d hd
  rw [List.eq_of_mem_replicate hd]
  rfl

/-- Digits around a point are a numeral. -/
theorem exists_pointed {whole digits : List Char} (hwhole : ∀ d ∈ whole, d.isDigit = true)
    (hne : whole ≠ []) (hdigits : ∀ d ∈ digits, d.isDigit = true) (hne' : digits ≠ []) :
    ∃ n : Numeral, n.chars = (if negative then ['-'] else []) ++ (whole ++ '.' :: digits) ∧
      n.power = 0 ∧ n.places = digits.length ∧
        n.value = (if negative then -1 else 1) * digitsValue (whole ++ digits) *
          10 ^ (-(digits.length : Int)) := by
  refine ⟨⟨negative, whole, some digits, none, hwhole, hne, by simpa using hdigits,
    by simpa using hne'⟩, ?_, rfl, rfl, ?_⟩
  · simp [chars, Amount.decimalChars]
  · simp [value, Numeral.digits, places, power]

/-- Digits in positional notation are a numeral without an exponent. -/
theorem exists_positional {ds : List Char} (hds : ∀ d ∈ ds, d.isDigit = true) (hne : ds ≠ [])
    (first : Int) : ∃ n : Numeral,
      n.chars = (if negative then ['-'] else []) ++ Decimal.positional true ds first ∧
        n.power = 0 ∧ n.places ≤ ds.length + first.natAbs + 1 ∧
        n.value = (if negative then -1 else 1) * digitsValue ds *
          10 ^ (first + 1 - ds.length) := by
  have happend {xs ys : List Char} (hxs : ∀ d ∈ xs, d.isDigit = true)
      (hys : ∀ d ∈ ys, d.isDigit = true) : ∀ d ∈ xs ++ ys, d.isDigit = true :=
    List.forall_mem_append.2 ⟨hxs, hys⟩
  -- zeros in front of the digits, behind them, or none
  by_cases hneg : first < 0
  · let zeros := List.replicate (-first - 1).toNat '0'
    obtain ⟨n, hchars, hpower, hplaces, hvalue⟩ := exists_pointed negative
      (forall_replicate_zero 1) (by simp) (happend (forall_replicate_zero _) hds : ∀ d ∈
        zeros ++ ds, d.isDigit = true) (by simp [hne])
    have hlength : -((zeros ++ ds).length : Int) = first + 1 - ds.length := by
      simp only [zeros, List.length_append, List.length_replicate]
      omega
    have hdigits : digitsValue (List.replicate 1 '0' ++ (zeros ++ ds)) = digitsValue ds := by
      rw [Decimal.digitsValue_zeros_append, Decimal.digitsValue_zeros_append]
    refine ⟨n, ?_, hpower, by omega, ?_⟩
    · rw [hchars, Decimal.positional, if_pos hneg]
      rfl
    · rw [hvalue, hdigits, hlength]
  · rw [Decimal.positional, if_neg hneg]
    by_cases hwhole : ds.length ≤ first.toNat + 1
    · let k := first.toNat + 1 - ds.length
      obtain ⟨n, hchars, hpower, hplaces, hvalue⟩ := exists_pointed negative
        (happend hds (forall_replicate_zero k)) (by simp [hne]) (forall_replicate_zero 1) (by simp)
      have hdigits : digitsValue (ds ++ List.replicate k '0' ++ List.replicate 1 '0') =
          digitsValue ds * 10 ^ (k + 1) := by
        rw [List.append_assoc, List.replicate_append_replicate, Decimal.digitsValue_append_zeros]
      have hlength : first + 1 - ds.length = ((k + 1 : Nat) : Int) + -1 := by
        simp only [k]
        omega
      refine ⟨n, ?_, hpower, by simp at hplaces; omega, ?_⟩
      · rw [hchars]
        simp [hwhole, k]
      · rw [hvalue, hdigits, hlength, zpow_add₀ (by norm_num), zpow_natCast]
        simp [mul_assoc]
    · let whole := first.toNat + 1
      obtain ⟨n, hchars, hpower, hplaces, hvalue⟩ := exists_pointed negative
        (fun c hc => hds c (List.mem_of_mem_take (i := whole) hc)) (by simp [hne, whole])
        (fun c hc => hds c (List.mem_of_mem_drop (i := whole) hc))
        (by simpa [whole] using hwhole)
      have hlength : -((ds.drop whole).length : Int) = first + 1 - ds.length := by
        simp only [List.length_drop, whole]
        omega
      refine ⟨n, ?_, hpower, by simp at hplaces; omega, ?_⟩
      · rw [hchars]
        simp [hwhole, whole]
      · rw [hvalue, List.take_append_drop, hlength]

/-- An integer behind its sign is an exponent. -/
theorem exists_exponent (first : Int) : ∃ e : Exponent,
    e.chars = 'e' :: ((if 0 ≤ first then ['+'] else []) ++ intChars first) ∧ e.power = first := by
  have hdigits : ∀ c ∈ natChars first.natAbs, c.isDigit = true := fun c hc =>
    Decimal.isDigit_of_mem_natChars hc
  have hne := Decimal.natChars_ne_nil first.natAbs
  by_cases hpos : 0 ≤ first
  · refine ⟨⟨'e', some '+', natChars first.natAbs, .inl rfl, by simp, hdigits, hne⟩, ?_, ?_⟩
    · simp [Exponent.chars, intChars, hpos, Int.not_lt.2 hpos]
    · simp [Exponent.power, hpos]
  · refine ⟨⟨'e', some '-', natChars first.natAbs, .inl rfl, by simp, hdigits, hne⟩, ?_, ?_⟩
    · simp [Exponent.chars, intChars, hpos, Int.not_le.1 hpos]
    · rw [Exponent.power, if_pos rfl, Decimal.digitsValue_natChars]
      omega

/-- A digit, further digits behind a point and an exponent are a numeral. -/
theorem exists_exponential {d : Char} {ds : List Char} (hdigits : ∀ c ∈ d :: ds, c.isDigit = true)
    (first : Int) : ∃ n : Numeral,
      n.chars = (if negative then ['-'] else []) ++ Decimal.exponential true (d :: ds) first ∧
        n.power = first ∧ n.places = ds.length ∧
        n.value = (if negative then -1 else 1) * digitsValue (d :: ds) *
          10 ^ (first - ds.length) := by
  obtain ⟨e, he, hpower⟩ := exists_exponent first
  have hd : ∀ c ∈ [d], c.isDigit = true := by simpa using hdigits d List.mem_cons_self
  -- a single digit has no point
  cases ds with
  | nil =>
      refine ⟨⟨negative, [d], none, some e, hd, by simp, by simp, by simp⟩, ?_, hpower, rfl, ?_⟩
      · simp [chars, Amount.decimalChars, Decimal.exponential, he]
      · simp [value, Numeral.digits, places, power, hpower]
  | cons d' ds =>
      refine ⟨⟨negative, [d], some (d' :: ds), some e, hd, by simp, ?_, by simp⟩, ?_, hpower, rfl,
        ?_⟩
      · rintro _ ⟨rfl⟩ c hc
        exact hdigits c (List.mem_cons_of_mem _ hc)
      · simp [chars, Amount.decimalChars, Decimal.exponential, he]
      · simp [value, Numeral.digits, places, power, hpower]

/-- The text of a finite double is a numeral, and it writes the number that is handed on. -/
theorem exists_body {d : Double} (hd : d.isFinite = true) : ∃ n : Numeral,
    n.chars = Decimal.Form.body.chars d ∧ n.InRange ∧ d.shown? = some n.value := by
  obtain ⟨negative, index, rfl⟩ : ∃ negative index, d = .finite negative index := by
    cases d with
    | finite negative index => exact ⟨negative, index, rfl⟩
    | infinite negative => cases hd
    | nan => cases hd
  have hchars : Decimal.Form.body.chars (.finite negative index) =
      (if negative then ['-'] else []) ++ Decimal.magnitudeChars Decimal.Form.body index := by
    cases negative <;> rfl
  rw [hchars]
  by_cases hzero : index.val = 0
  · obtain ⟨n, hn, hpower, hplaces, hvalue⟩ := exists_positional negative
      (forall_replicate_zero 1) (by simp) 0
    refine ⟨n, ?_, ?_, ?_⟩
    · rw [hn, Decimal.magnitudeChars, if_pos hzero]
      rfl
    · simp only [List.length_replicate] at hplaces
      exact ⟨by omega, by omega, by omega, by omega⟩
    · have hnothing : digitsValue (List.replicate 1 '0') = 0 := rfl
      rw [hvalue, hnothing, Double.shown?, if_pos hzero]
      simp
  · obtain ⟨⟨digits, exponent⟩, hshortest⟩ :
        ∃ r, Decimal.shortest Decimal.Form.body.tie index = r := ⟨_, rfl⟩
    have hback := Decimal.decimalIndex_shortest (Nat.pos_of_ne_zero hzero) index.isLt
      Decimal.Form.body.tie
    have hleast := Decimal.le_shortest_exponent Decimal.Form.body.tie index
    rw [hshortest] at hback hleast
    obtain ⟨-, hlow, hhigh⟩ := Decimal.top_of_decimalIndex (Nat.pos_of_ne_zero hzero) index.isLt
      hback
    have hdigits : ∀ c ∈ natChars digits, c.isDigit = true := fun c hc =>
      Decimal.isDigit_of_mem_natChars hc
    have hvalue : digitsValue (natChars digits) = digits := Decimal.digitsValue_natChars digits
    obtain ⟨d, ds, hds⟩ := List.exists_cons_of_ne_nil (Decimal.natChars_ne_nil digits)
    rw [hds] at hdigits hvalue hlow hhigh
    let first : Int := exponent + (d :: ds).length - 1
    have htext : Decimal.magnitudeChars Decimal.Form.body index =
        if Decimal.Form.body.positionalFrom ≤ first ∧ first ≤ Decimal.Form.body.positionalTo then
          Decimal.positional true (d :: ds) first
        else Decimal.exponential true (d :: ds) first := by
      rw [Decimal.magnitudeChars, if_neg hzero, hshortest]
      simp only [hds]
      rfl
    have hshown : (Double.finite negative index).shown? =
        some ((if negative then -1 else 1) * (digits : ℚ) * 10 ^ exponent) := by
      rw [Double.shown?, if_neg hzero, hshortest]
    rw [htext, hshown]
    by_cases hpositional : Decimal.Form.body.positionalFrom ≤ first ∧
        first ≤ Decimal.Form.body.positionalTo
    · obtain ⟨n, hn, hpower, hplaces, hnumber⟩ := exists_positional negative hdigits
        (List.cons_ne_nil d ds) first
      have hexponent : first + 1 - (d :: ds).length = exponent := by omega
      refine ⟨n, by rw [if_pos hpositional, hn], ?_, by rw [hnumber, hvalue, hexponent]⟩
      exact ⟨by omega, by omega, by omega, by omega⟩
    · obtain ⟨n, hn, hpower, hplaces, hnumber⟩ := exists_exponential negative hdigits first
      have hexponent : first - ds.length = exponent := by
        simp only [first, List.length_cons]
        omega
      refine ⟨n, by rw [if_neg hpositional, hn], ?_, by rw [hnumber, hvalue, hexponent]⟩
      exact ⟨by omega, by omega, by omega, by omega⟩

end Doubles

end Query.Numeral

namespace Query

/-- The number that a numeric literal is handed on as, if there is one. -/
def Literal.shown? : Literal → Option ℚ
  | .int i => some i.toInt
  | .float d => d.shown?
  | _ => none

namespace Numeral

open Decimal (digitsValue)

variable (n : Numeral)

/-- As a text and as a literal the numeral is the number that it writes. -/
def Exact : Prop :=
  n.InRange ∧ n.literal.shown? = some n.value

theorem literal_cases : (∃ i, n.literal = .int i) ∨ ∃ d, n.literal = .float d := by
  unfold literal
  split
  · exact .inl ⟨_, rfl⟩
  · exact .inr ⟨_, rfl⟩

/-- A numeral that is read as an integer is exact. -/
theorem exact_of_int {i : Int64} (h : n.literal = .int i) : n.Exact := by
  rw [Exact, h, Literal.shown?]
  unfold literal at h
  split at h
  · next hint =>
      simp only [Bool.and_eq_true, Option.isNone_iff_eq_none, fitsInt64, decide_eq_true_eq] at hint
      obtain ⟨⟨hfraction, hexponent⟩, hlow, hhigh⟩ := hint
      have hpower : n.power = 0 := by rw [power, hexponent, Option.elim_none]
      have hplaces : n.places = 0 := by rw [places, hfraction]; rfl
      have hdigits : n.digits = digitsValue n.whole := by
        rw [Numeral.digits, hfraction, Option.getD_none, List.append_nil]
      refine ⟨⟨by omega, by omega, by omega, by omega⟩, ?_⟩
      rw [← Literal.int.inj h, Int64.toInt_ofInt_of_le hlow (by omega), integer, value, hdigits,
        hpower, hplaces]
      cases n.negative with
      | true => simp
      | false => simp
  · cases h

/-- Where an amount is asked for, the literal of a numeral is the number that is handed on. -/
theorem exists_amount (supplied : Json.Object) : ∃ v read,
    n.literal.toJson supplied = .ok v ∧ Json.Reader.amount v = .ok read ∧
      read.map Amount.value = n.literal.shown? := by
  rcases n.literal_cases with ⟨i, h⟩ | ⟨d, h⟩
  · refine ⟨.int i.toInt, some (.ofInt i.toInt), by rw [h, Literal.toJson], rfl, ?_⟩
    simp [h, Literal.shown?, Amount.value, Amount.ofInt]
  · cases hd : d.isFinite with
    | true =>
        obtain ⟨m, hchars, hrange, hshown⟩ := exists_body hd
        have hbody : (Json.float d).body = m.text := by
          rw [Json.body, Json.chars, if_pos hd, ← hchars, text]
        have hread : (Json.float d).amount? = some (.ofNumeral m) := by
          rw [Json.amount?, hbody, Amount.ofText?_numeral, if_pos hrange]
        refine ⟨.float d, some (.ofNumeral m), by rw [h, Literal.toJson, if_pos hd], ?_, ?_⟩
        · simp [Json.Reader.amount, hread]
        · rw [h, Literal.shown?, hshown, Option.map_some, Amount.value_ofNumeral]
    | false =>
        refine ⟨.null, none, by simp [h, Literal.toJson, hd], rfl, ?_⟩
        cases d with
        | finite negative index => cases hd
        | infinite negative => rw [h]; rfl
        | nan => rw [h]; rfl

/-- The number that is handed on is written by some text. -/
theorem exists_text {q : ℚ} (h : n.literal.shown? = some q) :
    ∃ text a, Amount.ofText? text = some a ∧ a.value = q := by
  have hnumeral {m : Numeral} (hm : m.InRange) (hvalue : m.value = q) :
      ∃ text a, Amount.ofText? text = some a ∧ a.value = q :=
    ⟨m.text, .ofNumeral m, by rw [Amount.ofText?_numeral, if_pos hm],
      by rw [Amount.value_ofNumeral, hvalue]⟩
  rcases n.literal_cases with ⟨i, hl⟩ | ⟨d, hl⟩
  · obtain ⟨hrange, hshown⟩ := n.exact_of_int hl
    exact hnumeral hrange (Option.some.inj (hshown.symm.trans h))
  · rw [hl, Literal.shown?] at h
    have hd : d.isFinite = true := by
      cases d with
      | finite negative index => rfl
      | infinite negative => cases h
      | nan => cases h
    obtain ⟨m, -, hrange, hshown⟩ := exists_body hd
    exact hnumeral hrange (Option.some.inj (hshown.symm.trans h))

end Numeral

end Query

end DexCache
