import DexCache.Decimal.Digits
import DexCache.Decimal.Double

/-!
# Reading decimals step by step

A decimal in a JSON text is not rounded at once.  Its leading digits make a significand of
64 bits, which is rounded to a double; that is then multiplied or divided by a power of
ten, itself rounded, and the result is rounded again.  It may be a neighbour of the double
nearest to the decimal.  A decimal too great for a double is refused.
-/

namespace DexCache.Double

/-- The product of two magnitudes, rounded. -/
def product (a b : Nat) : Nat :=
  let (n, d) := ratio a
  let (m, e) := ratio b
  nearestIndex (n * m) (d * e)

/-- The quotient of two magnitudes, rounded; the second is not zero. -/
def quotient (a b : Nat) : Nat :=
  let (n, d) := ratio a
  let (m, e) := ratio b
  nearestIndex (n * e) (d * m)

/-- The greatest power of ten below the greatest double. -/
def greatestPower : Nat := 308

/-- The magnitude nearest to a power of ten. -/
def powerOfTen (exponent : Nat) : Nat :=
  decimalIndex 1 exponent

/-- Divides a magnitude by a power of ten, in several steps if the power is no double. -/
def shrink (index exponent : Nat) : Nat :=
  if exponent ≤ greatestPower then quotient index (powerOfTen exponent)
  else if index = 0 then 0
  else shrink (quotient index (powerOfTen greatestPower)) (exponent - greatestPower)
termination_by exponent
decreasing_by simp only [greatestPower] at *; omega

/-- Multiplies a magnitude by a power of ten, unless the product is past the last double. -/
def grow? (index exponent : Nat) : Option Nat :=
  if exponent ≤ greatestPower then
    let grown := product index (powerOfTen exponent)
    if grown < magnitudes then some grown else none
  else if index = 0 then some 0
  else none

/-- A significand times a power of ten, rounded at every step. -/
def stepwise? (negative : Bool) (significand : Nat) (exponent : Int) : Option Double :=
  let index := nearestIndex significand 1
  (if exponent < 0 then some (shrink index exponent.natAbs)
    else grow? index exponent.natAbs).map (ofIndex negative)

end DexCache.Double

namespace DexCache.Decimal

/-- The greatest significand. -/
def greatestSignificand : Nat := 18446744073709551615

/-- Appends digits to a significand as long as it stays in its bounds; also tells how many
digits were left out. -/
def absorb (significand : Nat) : List Char → Nat × Nat
  | [] => (significand, 0)
  | d :: ds =>
    let next := significand * 10 + digitsValue [d]
    if next ≤ greatestSignificand then absorb next ds else (significand, ds.length + 1)

/-- The double read off the digits before and behind a point and an exponent. -/
def stepwise? (negative : Bool) (whole fraction : List Char) (exponent : Int) :
    Option Double :=
  let (significand, left) := absorb 0 whole
  let (significand, unread) := absorb significand fraction
  Double.stepwise? negative significand (exponent + left + unread - fraction.length)

end DexCache.Decimal
