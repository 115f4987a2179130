import DexCache.Decimal.Text
import DexCache.Query.Literal
import DexCache.Text.Hex

/-!
# The tokens of query documents

Readers for the pieces that hold no other values: ignorable text, names, words,
numbers, strings and type references.  Each takes the longest piece at the front of a
text and returns what follows it.
-/

namespace DexCache.Query

/-- Does a comment, from behind its `#`, run up to a line end or the end of the text?  One
that meets a carriage return without a line feed does not. -/
def commentCloses : List Char → Bool
  | [] => true
  | '\n' :: _ => true
  | '\r' :: rest => rest.head? == some '\n'
  | _ :: rest => commentCloses rest

/-- Characters that separate tokens and mean nothing. -/
def isSeparator (c : Char) : Bool :=
  c = ' ' || c = '\t' || c = '\n' || c = '\r' || c = ','

/-- Drops ignorable text; `inComment` tells whether the text starts inside a comment. -/
def skipFrom : Bool → List Char → List Char
  | _, [] => []
  | true, c :: rest =>
    if c = '\n' || c = '\r' then skipFrom false rest else skipFrom true rest
  | false, c :: rest =>
    if isSeparator c then skipFrom false rest
    else if c = '#' && commentCloses rest then skipFrom true rest
    else c :: rest

/-- Drops separators and comments off the front. -/
def skipIgnored (cs : List Char) : List Char :=
  skipFrom false cs

/-- May a name start with this character? -/
def isNameStart (c : Char) : Bool :=
  c.isAlpha || c = '_'

/-- May a name go on with this character? -/
def isNameChar (c : Char) : Bool :=
  c.isAlphanum || c = '_'

/-- The longest name at the front. -/
def name? : List Char → Option (String × List Char)
  | [] => none
  | c :: rest =>
    if isNameStart c then
      let (more, rest) := rest.span isNameChar
      some (String.ofList (c :: more), rest)
    else none

/-- Drops a word off the front. -/
def word? : List Char → List Char → Option (List Char)
  | [], cs => some cs
  | w :: word, c :: cs => if w = c then word? word cs else none
  | _ :: _, [] => none

/-- The digits after a point, if there are any. -/
def fraction? : List Char → Option (List Char × List Char)
  | '.' :: rest =>
    let (digits, rest) := Decimal.takeDigits rest
    if digits.isEmpty then none else some (digits, rest)
  | _ => none

/-- The exponent after `e` or `E`, if it has digits. -/
def exponent? : List Char → Option (Int × List Char)
  | c :: rest =>
    if c = 'e' || c = 'E' then
      let (negative, rest) := match rest with
        | '-' :: more => (true, more)
        | '+' :: more => (false, more)
        | _ => (false, rest)
      let (digits, rest) := Decimal.takeDigits rest
      if digits.isEmpty then none
      else
        let n : Int := Decimal.digitsValue digits
        some (if negative then -n else n, rest)
    else none
  | [] => none

/-- Does an integer fit 64 bits with a sign? -/
def fitsInt64 (i : Int) : Bool :=
  -9223372036854775808 ≤ i && i ≤ 9223372036854775807

/-- A number: an integer if it is written as one and fits, else the nearest double. -/
def number? (cs : List Char) : Option (Literal × List Char) :=
  let (negative, unsigned) := match cs with
    | '-' :: rest => (true, rest)
    | _ => (false, cs)
  let (whole, rest) := Decimal.takeDigits unsigned
  if whole.isEmpty then none
  else
    let fraction := fraction? rest
    let (digits, rest) := fraction.getD ([], rest)
    let exponent := exponent? rest
    let (e, rest) := exponent.getD (0, rest)
    let n := Decimal.digitsValue whole
    let i : Int := if negative then -n else n
    if fraction.isNone && exponent.isNone && fitsInt64 i then
      some (.int (Int64.ofInt i), rest)
    else
      let value := Decimal.digitsValue (whole ++ digits)
      some (.float (Double.ofScientific negative value (e - digits.length)), rest)

/-- The value of hexadecimal digits read onto a value. -/
def hexValue? (value : Nat) : List Char → Option Nat
  | [] => some value
  | c :: rest => (Text.hexDigit? c).bind fun d => hexValue? (value * 16 + d) rest

/-- The character named by the four characters after `\u`: hexadecimal digits, of which
the first may be a plus sign, and no half of a surrogate pair. -/
def unicodeEscape? (a b c d : Char) : Option Char := do
  let code ← if a = '+' then hexValue? 0 [b, c, d] else hexValue? 0 [a, b, c, d]
  if 0xD800 ≤ code ∧ code < 0xE000 then none else some (Char.ofNat code)

/-- The character named by a backslash and one more character. -/
def simpleEscape? : Char → Option Char
  | '"' => some '"'
  | '\\' => some '\\'
  | '/' => some '/'
  | 'b' => some '\x08'
  | 'f' => some '\x0c'
  | 'n' => some '\n'
  | 'r' => some '\r'
  | 't' => some '\t'
  | _ => none

/-- The rest of a string, up to its closing quote. -/
def stringRest? : List Char → Option (List Char × List Char)
  | [] => none
  | '\n' :: _ => none
  | '"' :: rest => some ([], rest)
  | '\\' :: 'u' :: a :: b :: c :: d :: rest => do
    let decoded ← unicodeEscape? a b c d
    let (more, rest) ← stringRest? rest
    return (decoded :: more, rest)
  | '\\' :: c :: rest => do
    let decoded ← simpleEscape? c
    let (more, rest) ← stringRest? rest
    return (decoded :: more, rest)
  | c :: rest =>
    if c = '\\' then none
    else (stringRest? rest).map fun (more, rest) => (c :: more, rest)

/-- What follows a type reference: a name, or a reference in brackets, and then perhaps an
exclamation mark. -/
def typeRest? : Nat → List Char → Option (List Char)
  | 0, _ => none
  | fuel + 1, cs => do
    let rest ← match cs with
      | '[' :: inner => do
        let rest ← typeRest? fuel (skipIgnored inner)
        word? [']'] (skipIgnored rest)
      | _ => (name? cs).map Prod.snd
    match rest with
    | '!' :: rest => return rest
    | _ => return rest

/-- The longest type reference at the front, as it is written. -/
def typeRef? (cs : List Char) : Option (String × List Char) :=
  (typeRest? (cs.length + 1) cs).map fun rest =>
    (String.ofList (cs.take (cs.length - rest.length)), rest)

end DexCache.Query
