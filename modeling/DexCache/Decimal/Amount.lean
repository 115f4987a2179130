import DexCache.Decimal.Digits
import DexCache.Text.Blank

/-!
# Exact decimal amounts

Amounts have more digits than a double holds, so they are kept as an integer and a
decimal scale, exactly as written, and compared by value.
-/

namespace DexCache

/-- The number `digits · 10 ^ -scale`. -/
structure Amount where
  digits : Int
  scale : Int
deriving DecidableEq, Repr, Inhabited

namespace Amount

/-- Why a text is not an amount. -/
inductive Fault where
  | empty
  | noDigits
  | invalidDigit
  | tooLarge
  | tooSmall
  | scaleOutOfRange (text : String)
deriving DecidableEq, Repr

/-- The report of a fault. -/
def Fault.message : Fault → String
  | .empty => "Failed to parse empty string"
  | .noDigits => "cannot parse integer from empty string"
  | .invalidDigit => "invalid digit found in string"
  | .tooLarge => "number too large to fit in target type"
  | .tooSmall => "number too small to fit in target type"
  | .scaleOutOfRange text => "Exponent overflow when parsing '" ++ text ++ "'"

/-- The amount zero. -/
def zero : Amount := ⟨0, 0⟩

/-- An integer as an amount. -/
def ofInt (i : Int) : Amount := ⟨i, 0⟩

/-- How far an exponent of 128 bits may lie below zero: `2 ^ 127`. -/
def exponentBound : Nat := 170141183460469231731687303715884105728

/-- Digits of an exponent read onto a value that must stay at most `bound`. -/
def exponentDigits (bound : Nat) (tooFar : Fault) : Nat → List Char → Except Fault Nat
  | value, [] => .ok value
  | value, c :: rest =>
    if c.isDigit then
      let next := value * 10 + (c.toNat - 48)
      if bound < next then .error tooFar else exponentDigits bound tooFar next rest
    else .error .invalidDigit

/-- An exponent: digits after an optional sign, within 128 bits. -/
def exponentOf (cs : List Char) : Except Fault Int :=
  match cs with
  | [] => .error .noDigits
  | ['+'] | ['-'] => .error .invalidDigit
  | '-' :: rest =>
    (exponentDigits exponentBound .tooSmall 0 rest).map fun n => -(n : Int)
  | '+' :: rest => (exponentDigits (exponentBound - 1) .tooLarge 0 rest).map Int.ofNat
  | rest => (exponentDigits (exponentBound - 1) .tooLarge 0 rest).map Int.ofNat

/-- Digits with underscores between or behind them. -/
def naturalOf (cs : List Char) : Except Fault Nat :=
  match cs with
  | [] => .error .noDigits
  | '_' :: _ => .error .invalidDigit
  | _ =>
    if cs.all fun c => c.isDigit || c = '_' then
      .ok (Decimal.digitsValue (cs.filter Char.isDigit))
    else .error .invalidDigit

/-- Digits after an optional plus sign; a second sign is not dropped. -/
def unsignedOf (cs : List Char) : Except Fault Nat :=
  match cs with
  | '+' :: '+' :: _ => .error .invalidDigit
  | '+' :: rest => naturalOf rest
  | _ => naturalOf cs

/-- Digits after an optional sign. -/
def integerOf (cs : List Char) : Except Fault Int :=
  match cs with
  | '-' :: '+' :: _ => .error .invalidDigit
  | '-' :: rest => (unsignedOf rest).map fun n => -(n : Int)
  | _ => (unsignedOf cs).map Int.ofNat

/-- Reads an amount off a trimmed text. -/
def ofChars (cs : List Char) : Except Fault Amount := do
  let (base, marked) := cs.span fun c => c ≠ 'e' && c ≠ 'E'
  let exponent ← match marked with
    | [] => .ok 0
    | _ :: rest => exponentOf rest
  if base.isEmpty then .error .empty
  let (whole, pointed) := base.span fun c => c ≠ '.'
  let fraction := pointed.drop 1
  let places : Int := (fraction.filter fun c => c ≠ '_').length
  let scale := places - exponent
  if scale < -9223372036854775808 ∨ 9223372036854775807 < scale then
    .error (.scaleOutOfRange (String.ofList cs))
  return ⟨← integerOf (whole ++ fraction), scale⟩

/-- Reads an amount, blanks around it ignored. -/
def parse (text : String) : Except Fault Amount :=
  ofChars (Text.trim text.toList)

/-- Reads an amount, `none` where there is none. -/
def ofText? (text : String) : Option Amount :=
  (parse text).toOption

/-- The number of decimal digits of a magnitude. -/
def width (n : Nat) : Int :=
  (Nat.toDigits 10 n).length

/-- Compares two positive magnitudes.  Unless they have equally many digits before the
point that decides, so powers are only computed for scales about as far apart as the
numbers of digits. -/
def compareMagnitudes (m : Nat) (s : Int) (n : Nat) (t : Int) : Ordering :=
  if width m - s ≠ width n - t then compare (width m - s) (width n - t)
  else if s ≤ t then compare (m * Nat.pow 10 (t - s).toNat) n
  else compare m (n * Nat.pow 10 (s - t).toNat)

/-- Compares two amounts by value. -/
def cmp (a b : Amount) : Ordering :=
  if a.digits = 0 ∨ b.digits = 0 ∨ a.digits.sign ≠ b.digits.sign then
    compare a.digits.sign b.digits.sign
  else if 0 < a.digits then
    compareMagnitudes a.digits.natAbs a.scale b.digits.natAbs b.scale
  else
    compareMagnitudes b.digits.natAbs b.scale a.digits.natAbs a.scale

/-- Compares two amounts of which either may be missing; a missing one counts as zero. -/
def cmpMissing (a b : Option Amount) : Ordering :=
  cmp (a.getD zero) (b.getD zero)

/-- Is there a readable amount, and is it at least `minimum`? -/
def atLeast (text : Option String) (minimum : Amount) : Bool :=
  match text.bind ofText? with
  | some a => cmp a minimum != .lt
  | none => false

end Amount

end DexCache
