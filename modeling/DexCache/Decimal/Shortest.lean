import DexCache.Decimal.Double

/-!
# The shortest decimal that reads back

For each number of digits from one to seventeen, the two neighbours of a double on
that decimal grid are tried; the first grid with a neighbour that rounds to the
double wins, and of two the nearer one.  If none did, the exact value would be given,
so whatever is returned reads back.
-/

namespace DexCache.Decimal

/-- Which of two equally near decimals is taken. -/
inductive Tie where
  | even
  | up
deriving DecidableEq, Repr

/-- The greatest `k` with `10 ^ k ≤ num / den`, for positive `num` and `den`. -/
def floorLog10 (num den : Nat) : Int :=
  let k := ((Nat.toDigits 10 num).length : Int) - (Nat.toDigits 10 den).length
  let (n, d) := if k < 0 then (num * Nat.pow 10 (-k).toNat, den)
    else (num, den * Nat.pow 10 k.toNat)
  if n < d then k - 1 else k

/-- Does `digits · 10 ^ exponent` round to the magnitude `index`? -/
def readsBack (index digits : Nat) (exponent : Int) : Bool :=
  Double.decimalIndex digits exponent == index

/-- The neighbour of a magnitude on the grid of multiples of `10 ^ exponent` that reads
back, the nearer one if both do. -/
def neighbour? (tie : Tie) (index : Nat) (exponent : Int) : Option Nat :=
  let (num, den) := Double.ratio index
  let (n, d) := if exponent < 0 then (num * Nat.pow 10 (-exponent).toNat, den)
    else (num, den * Nat.pow 10 exponent.toNat)
  let low := n / d
  let rest := 2 * (n % d)
  match readsBack index low exponent, readsBack index (low + 1) exponent with
  | true, false => some low
  | false, true => some (low + 1)
  | false, false => none
  | true, true =>
    if rest < d then some low
    else if d < rest then some (low + 1)
    else match tie with
      | .up => some (low + 1)
      | .even => some (if low % 2 = 0 then low else low + 1)

/-- The exact value of a magnitude as digits and a decimal exponent. -/
def exact (index : Nat) : Nat × Int :=
  let s := Double.scale index
  if s < 1074 then (Double.significand index * Nat.pow 5 (1074 - s), (s : Int) - 1074)
  else (Double.significand index * Nat.pow 2 (s - 1074), 0)

/-- The first grid of at most `tries` further digits with a neighbour that reads back. -/
def searchFrom (tie : Tie) (index : Nat) (exponent : Int) : Nat → Nat × Int
  | 0 => exact index
  | tries + 1 =>
    match neighbour? tie index exponent with
    | some digits => (digits, exponent)
    | none => searchFrom tie index (exponent - 1) tries

/-- Drops trailing zeros, at most `fuel` of them. -/
def dropZeros : Nat → Nat × Int → Nat × Int
  | 0, r => r
  | fuel + 1, (digits, exponent) =>
    if digits ≠ 0 ∧ digits % 10 = 0 then dropZeros fuel (digits / 10, exponent + 1)
    else (digits, exponent)

/-- The fewest digits, and their exponent, that read back as a positive magnitude. -/
def shortest (tie : Tie) (index : Nat) : Nat × Int :=
  let (num, den) := Double.ratio index
  dropZeros 800 (searchFrom tie index (floorLog10 num den) 17)

end DexCache.Decimal
