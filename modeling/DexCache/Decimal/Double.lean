/-!
# Binary64 numbers

A finite double is a sign and an index: index `i` names the `i`-th non-negative
double, so the order of indices is the order of magnitudes and the next index is
the next double.  Everything is exact arithmetic on natural numbers.

The main operation rounds a quotient to the nearest double, ties going to the
even index.  This module does not do arithmetic on doubles.
-/

namespace DexCache

/-- How many magnitudes share a binary exponent: `2 ^ 52`. -/
abbrev Double.binade : Nat := 4503599627370496

/-- How many finite magnitudes there are. -/
abbrev Double.magnitudes : Nat := 2047 * Double.binade

/-- A binary64 number; the index of a finite one counts the magnitudes below it. -/
inductive Double where
  | finite (negative : Bool) (index : Fin Double.magnitudes)
  | infinite (negative : Bool)
  | nan
deriving DecidableEq, Repr

namespace Double

/-- The finite double with this sign and magnitude index, infinity past the last. -/
def ofIndex (negative : Bool) (index : Nat) : Double :=
  if h : index < magnitudes then .finite negative ⟨index, h⟩ else .infinite negative

/-- Positive zero. -/
def zero : Double := .finite false ⟨0, by decide⟩

instance : Inhabited Double := ⟨zero⟩

/-- A double that is neither infinite nor a NaN. -/
def isFinite : Double → Bool
  | .finite _ _ => true
  | _ => false

/-- The integer significand of a magnitude, below `2 ^ 53`. -/
def significand (index : Nat) : Nat :=
  if index < binade then index else binade + index % binade

/-- How far the binary exponent of a magnitude lies above the least one, `-1074`. -/
def scale (index : Nat) : Nat :=
  index / binade - 1

/-- Numerator and denominator of a magnitude: `significand · 2 ^ (scale - 1074)`. -/
def ratio (index : Nat) : Nat × Nat :=
  if scale index < 1074 then (significand index, Nat.pow 2 (1074 - scale index))
  else (significand index * Nat.pow 2 (scale index - 1074), 1)

/-- The quotient rounded to the nearest integer, a half going to the even one. -/
def roundHalfEven (num den : Nat) : Nat :=
  let q := num / den
  let r := 2 * (num % den)
  if r < den then q
  else if den < r then q + 1
  else if q % 2 = 0 then q else q + 1

/-- `num / den · 2 ^ shift` as a quotient of naturals. -/
def shifted (num den : Nat) (shift : Int) : Nat × Nat :=
  if shift < 0 then (num, den * Nat.pow 2 (-shift).toNat)
  else (num * Nat.pow 2 shift.toNat, den)

/-- The greatest `k` with `2 ^ k ≤ num / den`, for positive `num` and `den`. -/
def floorLog2 (num den : Nat) : Int :=
  let k := (num.log2 : Int) - (den.log2 : Int)
  let (n, d) := shifted num den (-k)
  if n < d then k - 1 else k

/-- The scale of the grid on which a positive quotient is rounded. -/
def gridScale (num den : Nat) : Nat :=
  (floorLog2 num den + 1022).toNat

/-- The index nearest to a quotient; it may lie past the last finite one. -/
def nearestIndex (num den : Nat) : Nat :=
  if num = 0 then 0
  else
    let q := gridScale num den
    let (n, d) := shifted num den (1074 - q)
    q * binade + roundHalfEven n d

/-- The double nearest to a quotient with the given sign. -/
def ofRatio (negative : Bool) (num den : Nat) : Double :=
  ofIndex negative (nearestIndex num den)

/-- `digits · 10 ^ exponent` as a quotient of naturals. -/
def decimalRatio (digits : Nat) (exponent : Int) : Nat × Nat :=
  if exponent < 0 then (digits, Nat.pow 10 (-exponent).toNat)
  else (digits * Nat.pow 10 exponent.toNat, 1)

/-- The index nearest to `digits · 10 ^ exponent`.  Beyond `10 ^ 310` every number is
past the last finite index and below `10 ^ -330` every number rounds to zero, so no
power is computed there. -/
def decimalIndex (digits : Nat) (exponent : Int) : Nat :=
  if digits = 0 then 0
  else
    let top := ((Nat.toDigits 10 digits).length : Int) + exponent
    if 310 < top then magnitudes
    else if top < -330 then 0
    else
      let (n, d) := decimalRatio digits exponent
      nearestIndex n d

/-- The double nearest to `digits · 10 ^ exponent` with the given sign. -/
def ofScientific (negative : Bool) (digits : Nat) (exponent : Int) : Double :=
  ofIndex negative (decimalIndex digits exponent)

/-- The double nearest to an integer. -/
def ofInt (i : Int) : Double :=
  ofRatio (decide (i < 0)) i.natAbs 1

/-- The natural number nearest to a magnitude, a half going up. -/
def nearestNat (index : Nat) : Nat :=
  let (num, den) := ratio index
  (2 * num + den) / (2 * den)

end Double

end DexCache
