import DexCache.Decimal.Stepwise
import DexCache.Json.Value
import DexCache.Text.Hex

/-!
# Reading JSON text

Objects keep the order of their keys; a repeated key keeps its first place and its
last value.  A number without fraction and exponent that fits 64 bits is an integer,
any other a double, which is read step by step.  Nested values are read with a fuel that
the text's length covers.
-/

namespace DexCache.Json.Parser

/-- Drops blanks. -/
def skipBlanks (cs : List Char) : List Char :=
  cs.dropWhile fun c => c = ' ' || c = '\n' || c = '\r' || c = '\t'

/-- Drops the given characters off the front, if they are there. -/
def expect? : List Char → List Char → Option (List Char)
  | [], cs => some cs
  | w :: word, c :: cs => if w = c then expect? word cs else none
  | _ :: _, [] => none

/-- Four hexadecimal digits. -/
def hex4? : List Char → Option (Nat × List Char)
  | a :: b :: c :: d :: rest => do
    let a ← Text.hexDigit? a
    let b ← Text.hexDigit? b
    let c ← Text.hexDigit? c
    let d ← Text.hexDigit? d
    return (a * 4096 + b * 256 + c * 16 + d, rest)
  | _ => none

/-- The character named by the digits after `\u`, with its second half if it has two. -/
def unicodeEscape? (cs : List Char) : Option (Char × List Char) := do
  let (high, rest) ← hex4? cs
  if 0xD800 ≤ high ∧ high < 0xDC00 then
    let rest ← expect? ['\\', 'u'] rest
    let (low, rest) ← hex4? rest
    if 0xDC00 ≤ low ∧ low < 0xE000 then
      return (Char.ofNat (0x10000 + (high - 0xD800) * 1024 + (low - 0xDC00)), rest)
    else none
  else if 0xDC00 ≤ high ∧ high < 0xE000 then none
  else return (Char.ofNat high, rest)

/-- The rest of a string, up to its closing quote. -/
def stringRest? : Nat → List Char → Option (List Char × List Char)
  | 0, _ => none
  | _ + 1, [] => none
  | _ + 1, '"' :: rest => some ([], rest)
  | fuel + 1, '\\' :: c :: rest => do
    let (decoded, rest) ← match c with
      | '"' => some ('"', rest)
      | '\\' => some ('\\', rest)
      | '/' => some ('/', rest)
      | 'b' => some ('\x08', rest)
      | 'f' => some ('\x0c', rest)
      | 'n' => some ('\n', rest)
      | 'r' => some ('\r', rest)
      | 't' => some ('\t', rest)
      | 'u' => unicodeEscape? rest
      | _ => none
    let (more, rest) ← stringRest? fuel rest
    return (decoded :: more, rest)
  | fuel + 1, c :: rest => do
    if c = '\\' || c.toNat < 0x20 then none
    else
      let (more, rest) ← stringRest? fuel rest
      return (c :: more, rest)

/-- A string after its opening quote. -/
def stringChars? (fuel : Nat) (cs : List Char) : Option (String × List Char) :=
  (stringRest? fuel cs).map fun (s, rest) => (String.ofList s, rest)

/-- The least and the greatest integer kept as such. -/
def fitsInteger (i : Int) : Bool :=
  -9223372036854775808 ≤ i && i ≤ 18446744073709551615

/-- The digits behind a point, if there is one. -/
def fraction? (cs : List Char) : Option (List Char × List Char) :=
  match cs with
  | '.' :: rest =>
    let (digits, rest) := Decimal.takeDigits rest
    if digits.isEmpty then none else some (digits, rest)
  | _ => some ([], cs)

/-- The exponent, if there is one. -/
def exponent? (cs : List Char) : Option (Option Int × List Char) :=
  match cs with
  | c :: rest =>
    if c = 'e' || c = 'E' then
      let (negative, rest) := match rest with
        | '-' :: digits => (true, digits)
        | '+' :: digits => (false, digits)
        | _ => (false, rest)
      let (digits, rest) := Decimal.takeDigits rest
      let n : Int := Decimal.digitsValue digits
      if digits.isEmpty then none else some (some (if negative then -n else n), rest)
    else some (none, cs)
  | [] => some (none, cs)

/-- The digits of a whole number, without superfluous zeros in front. -/
def whole? (cs : List Char) : Option (List Char × List Char) :=
  match Decimal.takeDigits cs with
  | ([], _) | ('0' :: _ :: _, _) => none
  | (digits, rest) => some (digits, rest)

/-- A number. -/
def number? (cs : List Char) : Option (Json × List Char) := do
  let (negative, unsigned) := match cs with
    | '-' :: rest => (true, rest)
    | _ => (false, cs)
  let (whole, rest) ← whole? unsigned
  let (fraction, rest) ← fraction? rest
  let (exponent, rest) ← exponent? rest
  let n := Decimal.digitsValue whole
  let i : Int := if negative then -n else n
  if fraction.isEmpty && exponent.isNone && fitsInteger i && !(negative && n = 0) then
    return (.int i, rest)
  else
    let d ← Decimal.stepwise? negative whole fraction (exponent.getD 0)
    return (.float d, rest)

mutual
/-- A value, blanks before it skipped. -/
def value? : Nat → List Char → Option (Json × List Char)
  | 0, _ => none
  | fuel + 1, cs =>
    match skipBlanks cs with
    | [] => none
    | '"' :: rest => (stringChars? fuel rest).map fun (s, rest) => (.str s, rest)
    | '[' :: rest =>
      match skipBlanks rest with
      | ']' :: rest => some (.arr [], rest)
      | rest => (items? fuel rest).map fun (items, rest) => (.arr items, rest)
    | '{' :: rest =>
      match skipBlanks rest with
      | '}' :: rest => some (.obj [], rest)
      | rest => (entries? fuel rest).map fun (es, rest) => (.obj (Object.ofEntries es), rest)
    | c :: rest =>
      if c = 'n' then (expect? "ull".toList rest).map fun rest => (.null, rest)
      else if c = 't' then (expect? "rue".toList rest).map fun rest => (.bool true, rest)
      else if c = 'f' then (expect? "alse".toList rest).map fun rest => (.bool false, rest)
      else number? (c :: rest)

/-- One or more items up to the closing bracket. -/
def items? : Nat → List Char → Option (List Json × List Char)
  | 0, _ => none
  | fuel + 1, cs => do
    let (item, rest) ← value? fuel cs
    match skipBlanks rest with
    | ']' :: rest => return ([item], rest)
    | ',' :: rest =>
      let (more, rest) ← items? fuel rest
      return (item :: more, rest)
    | _ => none

/-- One or more entries up to the closing brace. -/
def entries? : Nat → List Char → Option (List (String × Json) × List Char)
  | 0, _ => none
  | fuel + 1, cs => do
    let rest ← expect? ['"'] (skipBlanks cs)
    let (key, rest) ← stringChars? fuel rest
    let rest ← expect? [':'] (skipBlanks rest)
    let (value, rest) ← value? fuel rest
    match skipBlanks rest with
    | '}' :: rest => return ([(key, value)], rest)
    | ',' :: rest =>
      let (more, rest) ← entries? fuel rest
      return ((key, value) :: more, rest)
    | _ => none
end

end DexCache.Json.Parser

namespace DexCache.Json

/-- The value that a whole text denotes. -/
def ofText? (text : String) : Option Json := do
  let cs := text.toList
  let (value, rest) ← Parser.value? (2 * cs.length + 2) cs
  if (Parser.skipBlanks rest).isEmpty then return value else none

end DexCache.Json
