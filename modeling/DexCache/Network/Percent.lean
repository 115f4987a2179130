import DexCache.Text.Hex
import DexCache.Text.Utf8

/-!
# Percent signs

Bytes written as a percent sign and two hexadecimal digits.  A percent sign with anything
else behind it stands for itself.
-/

namespace DexCache.Network

/-- The bytes of a text with percent signs. -/
def percentDecode : List Char → List Nat
  | [] => []
  | '%' :: a :: b :: rest =>
    match Text.hexDigit? a, Text.hexDigit? b with
    | some high, some low => (high * 16 + low) :: percentDecode rest
    | _, _ => 0x25 :: percentDecode (a :: b :: rest)
  | c :: rest => Text.Utf8.encode [c] ++ percentDecode rest

/-- The text of a part of a query, where a plus sign stands for a blank.  What is not UTF-8
shows as replacement characters. -/
def queryText (cs : List Char) : List Char :=
  Text.Utf8.decodeLossy (percentDecode (cs.map fun c => if c = '+' then ' ' else c))

/-- The names and values of a query, in order. -/
def queryPairs (query : List Char) : List (List Char × List Char) :=
  ((query.splitOn '&').filter fun part => !part.isEmpty).map fun part =>
    let (name, value) := part.span fun c => c ≠ '='
    (queryText name, queryText (value.drop 1))

end DexCache.Network
