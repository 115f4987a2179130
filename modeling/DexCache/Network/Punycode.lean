/-!
# Labels in ASCII

A label of a domain name with characters beyond ASCII can be written in ASCII alone: its
ASCII characters, a hyphen, and numbers that tell where the others belong.  A number is
written in letters and digits, and the weight of its digits adapts to the numbers before
it.  Numbers of more than 32 bits are not read.
-/

namespace DexCache.Network.Punycode

/-- The value of a digit, of base 36. -/
def digit? (c : Char) : Option Nat :=
  if c.isLower then some (c.toNat - 97)
  else if c.isUpper then some (c.toNat - 65)
  else if c.isDigit then some (c.toNat - 22)
  else none

/-- The least digit that does not end a number, for the digit with offset `k`. -/
def threshold (bias k : Nat) : Nat :=
  if k ≤ bias then 1 else min (k - bias) 26

/-- A value if it has 32 bits. -/
def word? (n : Nat) : Option Nat :=
  if n < 4294967296 then some n else none

/-- Reads the digits of a number onto `value` up to its end, from the digit with offset `k`
and the given weight on. -/
def number? (bias : Nat) : Nat → Nat → Nat → List Char → Option (Nat × List Char)
  | _, _, _, [] => none
  | k, weight, value, c :: rest => do
    let d ← digit? c
    let value ← word? (value + (← word? (d * weight)))
    let t := threshold bias k
    if d < t then return (value, rest)
    else number? bias (k + 36) (← word? (weight * (36 - t))) value rest

/-- The bias after a step of `delta`: `k` is the offset so far, and `fuel` bounds how often
the step can be divided. -/
def settle : Nat → Nat → Nat → Nat
  | 0, k, _ => k
  | fuel + 1, k, delta =>
    if 455 < delta then settle fuel (k + 36) (delta / 35) else k + 36 * delta / (delta + 38)

/-- The bias behind a number, when a label has so many characters; `delta` is how far the
number went. -/
def adapt (delta count : Nat) (first : Bool) : Nat :=
  let delta := if first then delta / 700 else delta / 2
  settle 32 0 (delta + delta / count)

/-- What is read so far: the label, the code point and the place that the last number went
to, and the bias of the next one. -/
structure Progress where
  label : List Char
  code : Nat := 128
  place : Nat := 0
  bias : Nat := 72
deriving DecidableEq, Repr

/-- Puts in the character that a number stands for. -/
def Progress.insert? (p : Progress) (value : Nat) : Option Progress := do
  let count := p.label.length + 1
  let code ← word? (p.code + value / count)
  let place := value % count
  if decide code.isValidChar then
    return {
      label := p.label.take place ++ Char.ofNat code :: p.label.drop place
      code
      place := place + 1
      bias := adapt (value - p.place) count (p.place = 0) }
  else none

/-- Reads numbers up to the end of a text; `fuel` bounds how many. -/
def insertAll? : Nat → Progress → List Char → Option Progress
  | _, p, [] => some p
  | 0, _, _ :: _ => none
  | fuel + 1, p, cs => do
    let (value, rest) ← number? p.bias 36 1 p.place cs
    insertAll? fuel (← p.insert? value) rest

/-- The characters up to the last hyphen, and those behind it. -/
def cut (cs : List Char) : List Char × List Char :=
  let behind := (cs.reverse.takeWhile fun c => c ≠ '-').reverse
  (cs.take (cs.length - behind.length - 1), behind)

/-- The label that a text stands for. -/
def decode? (cs : List Char) : Option (List Char) :=
  let (plain, numbers) := cut cs
  if cs.head? = some '-' && plain.isEmpty then none
  else (insertAll? numbers.length { label := plain } numbers).map Progress.label

end DexCache.Network.Punycode
