import DexCache.Decimal.Digits
import DexCache.Decimal.Shortest

/-!
# Doubles as text

Three written forms share one writer: the form inside JSON bodies, the form inside query
documents and the plain form of settings.  They differ in where positional notation begins
and ends, in the point of a whole number, in the sign of a positive exponent and in the
choice between two equally near decimals.
-/

namespace DexCache.Decimal

/-- How a double is written. -/
structure Form where
  /-- Least exponent of the first digit that is still written positionally. -/
  positionalFrom : Int
  /-- Greatest exponent of the first digit that is still written positionally. -/
  positionalTo : Int
  /-- Does a whole number have a point and a zero behind it? -/
  wholePoint : Bool
  /-- Is a positive exponent written with a plus sign? -/
  plusSign : Bool
  tie : Tie

/-- Numbers in JSON bodies: positional from `1e-5` up to `1e16`, exponents signed. -/
def Form.body : Form := ⟨-5, 15, true, true, .even⟩

/-- Numbers in query documents: positional from `1e-4` up to `1e16`. -/
def Form.literal : Form := ⟨-4, 15, true, false, .up⟩

/-- Numbers as settings: always positional, whole ones without a point. -/
def Form.plain : Form := ⟨-400, 400, false, false, .up⟩

/-- Digits whose first one has the given exponent, with a point inside or, if `wholePoint`,
also behind them. -/
def positional (wholePoint : Bool) (ds : List Char) (first : Int) : List Char :=
  if first < 0 then '0' :: '.' :: (List.replicate (-first - 1).toNat '0' ++ ds)
  else
    let whole := first.toNat + 1
    if ds.length ≤ whole then
      ds ++ List.replicate (whole - ds.length) '0' ++ if wholePoint then ['.', '0'] else []
    else ds.take whole ++ '.' :: ds.drop whole

/-- One digit, a point if more follow, and the exponent of the first. -/
def exponential (plusSign : Bool) (ds : List Char) (first : Int) : List Char :=
  let mantissa := match ds with
    | [] => ['0']
    | [d] => [d]
    | d :: rest => d :: '.' :: rest
  let sign := if plusSign && decide (0 ≤ first) then ['+'] else []
  mantissa ++ 'e' :: (sign ++ intChars first)

/-- The magnitude with this index, unsigned. -/
def magnitudeChars (form : Form) (index : Nat) : List Char :=
  if index = 0 then positional form.wholePoint ['0'] 0
  else
    let (digits, exponent) := shortest form.tie index
    let ds := natChars digits
    let first := exponent + ds.length - 1
    if form.positionalFrom ≤ first ∧ first ≤ form.positionalTo then
      positional form.wholePoint ds first
    else exponential form.plusSign ds first

/-- A double in the given form. -/
def Form.chars (form : Form) : Double → List Char
  | .finite negative index =>
    if negative then '-' :: magnitudeChars form index else magnitudeChars form index
  | .infinite false => ['i', 'n', 'f']
  | .infinite true => ['-', 'i', 'n', 'f']
  | .nan => ['N', 'a', 'N']

/-- The exponent after `e` or `E`, zero where there is none; `none` for a malformed one. -/
def exponentOfChars? : List Char → Option Int
  | [] => some 0
  | c :: cs => if c = 'e' ∨ c = 'E' then signedOfChars? cs else none

/-- Reads unsigned decimal text: digits, a fraction and an exponent, with a digit on at
least one side of the point. -/
def unsignedDouble? (negative : Bool) (cs : List Char) : Option Double :=
  let (whole, rest) := takeDigits cs
  let (fraction, rest) := match rest with
    | '.' :: more => takeDigits more
    | _ => ([], rest)
  if whole.isEmpty && fraction.isEmpty then none
  else
    (exponentOfChars? rest).map fun e =>
      Double.ofScientific negative (digitsValue (whole ++ fraction)) (e - fraction.length)

/-- Reads the words for infinities and NaN, in any mixture of cases. -/
def wordDouble? (negative : Bool) (cs : List Char) : Option Double :=
  let word := String.ofList (cs.map Char.toLower)
  if word = "inf" ∨ word = "infinity" then some (.infinite negative)
  else if word = "nan" then some .nan
  else none

/-- Reads a double off a whole text, with an optional sign. -/
def doubleOfChars? (cs : List Char) : Option Double :=
  let (negative, body) := match cs with
    | '-' :: rest => (true, rest)
    | '+' :: rest => (false, rest)
    | _ => (false, cs)
  (unsignedDouble? negative body).orElse fun _ => wordDouble? negative body

end DexCache.Decimal
