import DexCache.Decimal.Text
import DexCache.Json.Value
import DexCache.Text.Hex

/-!
# Numbers of a settings document

Integers of 64 bits, in base ten with a sign or in base sixteen, eight or two behind a
prefix; doubles with a fraction, an exponent or both, which must be finite, and the words
for those that are not.  Single underscores may stand between digits.
-/

namespace DexCache.Settings.Document

/-- May the character stand in a key without quotes, or in a word or a number? -/
def isKeyChar (c : Char) : Bool :=
  c.isAlphanum || c = '_' || c = '-'

/-- Is the character a digit in this base? -/
def isDigitOf (base : Nat) (c : Char) : Bool :=
  (Text.hexDigit? c).any fun d => decide (d < base)

/-- Digits with single underscores between them, and what follows.  Unless `zeros` allows
it there is no superfluous zero in front. -/
def digits? (base : Nat) (zeros : Bool) (cs : List Char) : Option (List Char × List Char) :=
  let (run, rest) := cs.span fun c => isDigitOf base c || c = '_'
  let parts := run.splitOn '_'
  if parts.any List.isEmpty then none
  else
    match parts.flatten with
    | '0' :: d :: ds => if zeros then some ('0' :: d :: ds, rest) else none
    | ds => some (ds, rest)

/-- An integer of 64 bits. -/
def integer? (i : Int) : Option Json :=
  if -9223372036854775808 ≤ i ∧ i ≤ 9223372036854775807 then some (.int i) else none

/-- A whole word as digits of a base. -/
def based? (base : Nat) (cs : List Char) : Option Json :=
  match digits? base true cs with
  | some (ds, []) => integer? (ds.foldl (fun n c => n * base + (Text.hexDigit? c).getD 0) 0 : Nat)
  | _ => none

/-- A minus sign, if there is one, and what follows. -/
def sign : List Char → Bool × List Char
  | '-' :: rest => (true, rest)
  | cs => (false, cs)

/-- A whole word as an integer in base ten. -/
def decimal? (cs : List Char) : Option Json :=
  let (negative, cs) := sign cs
  match digits? 10 false cs with
  | some (ds, []) =>
    let n := Decimal.digitsValue ds
    integer? (if negative then -n else n)
  | _ => none

/-- A whole word as the digits of an exponent. -/
def power? (cs : List Char) : Option Nat :=
  match digits? 10 true cs with
  | some (ds, []) => some (Decimal.digitsValue ds)
  | _ => none

/-- The exponent that a word ends with, and what follows the word: behind `e` the word may
stop, if a plus sign and another word come next. -/
def exponent? (word rest : List Char) : Option (Int × List Char) :=
  match word, rest with
  | [], rest => some (0, rest)
  | [_], '+' :: rest =>
    let (digits, rest) := rest.span isKeyChar
    (power? digits).map fun n => ((n : Int), rest)
  | _ :: digits, rest =>
    let (negative, digits) := sign digits
    (power? digits).map fun n => (if negative then -(n : Int) else n, rest)

/-- Does a word begin with the letter of an exponent, or is it empty? -/
def startsExponent : List Char → Bool
  | [] => true
  | c :: _ => c = 'e' || c = 'E'

/-- A double from a word, the word behind its point if it has one, and what follows. -/
def double? (word : List Char) (fraction : Option (List Char)) (rest : List Char) :
    Option (Json × List Char) := do
  let (negative, word) := sign word
  let (whole, suffix) ← digits? 10 false word
  let (places, suffix) ← match fraction with
    | none => some ([], suffix)
    | some digits => if suffix.isEmpty then digits? 10 true digits else none
  if !startsExponent suffix then none
  let (e, rest) ← exponent? suffix rest
  let d := Double.ofScientific negative (Decimal.digitsValue (whole ++ places))
    (e - places.length)
  if d.isFinite then some (.float d, rest) else none

/-- A number that begins with a word, and what follows it. -/
def number? (word rest : List Char) : Option (Json × List Char) :=
  match word with
  | '0' :: 'x' :: digits => (based? 16 digits).map fun v => (v, rest)
  | '0' :: 'o' :: digits => (based? 8 digits).map fun v => (v, rest)
  | '0' :: 'b' :: digits => (based? 2 digits).map fun v => (v, rest)
  | _ =>
    if word.any fun c => c = 'e' || c = 'E' then double? word none rest
    else
      match rest with
      | '.' :: more =>
        let (digits, rest) := more.span isKeyChar
        if digits.isEmpty then none else double? word (some digits) rest
      | _ =>
        let (negative, unsigned) := sign word
        if unsigned = ['i', 'n', 'f'] then some (.float (.infinite negative), rest)
        else if unsigned = ['n', 'a', 'n'] then some (.float .nan, rest)
        else (decimal? word).map fun v => (v, rest)

end DexCache.Settings.Document
