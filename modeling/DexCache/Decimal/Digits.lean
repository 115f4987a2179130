/-!
# Decimal digits

Signed and unsigned integers as text over lists of characters: writing, and reading
a run of digits off the front.
-/

namespace DexCache.Decimal

/-- The decimal digits of a natural number. -/
def natChars (n : Nat) : List Char :=
  Nat.toDigits 10 n

/-- An integer with a minus sign if it is negative. -/
def intChars (i : Int) : List Char :=
  if i < 0 then '-' :: natChars i.natAbs else natChars i.natAbs

/-- The value of a run of digits. -/
def digitsValue (ds : List Char) : Nat :=
  Nat.ofDigitChars 10 ds 0

/-- The longest run of digits at the front, and what follows it. -/
def takeDigits (cs : List Char) : List Char × List Char :=
  cs.span Char.isDigit

/-- Reads a whole text as a non-empty run of digits. -/
def natOfChars? (cs : List Char) : Option Nat :=
  if cs.isEmpty || !cs.all Char.isDigit then none else some (digitsValue cs)

/-- Reads a whole text as digits after an optional plus sign. -/
def unsignedOfChars? : List Char → Option Nat
  | '+' :: cs => natOfChars? cs
  | cs => natOfChars? cs

/-- Reads a whole text as digits after an optional sign. -/
def signedOfChars? : List Char → Option Int
  | '-' :: cs => (natOfChars? cs).map fun n => -(n : Int)
  | cs => (unsignedOfChars? cs).map Int.ofNat

end DexCache.Decimal
