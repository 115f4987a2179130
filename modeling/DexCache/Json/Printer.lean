import DexCache.Decimal.Text
import DexCache.Json.Value
import DexCache.Text.Quoted

/-!
# Compact JSON

A value as text without blanks, keys in their order.  Doubles are written with the
fewest digits that read back; those that are not numbers are written as null.
-/

namespace DexCache.Json

mutual
/-- The compact text of a value. -/
def chars : Json → List Char
  | .null => "null".toList
  | .bool true => "true".toList
  | .bool false => "false".toList
  | .int i => Decimal.intChars i
  | .float d => if d.isFinite then Decimal.Form.body.chars d else "null".toList
  | .str s => Text.jsonQuoted s.toList
  | .arr items => '[' :: (itemChars items ++ [']'])
  | .obj entries => '{' :: (entryChars entries ++ ['}'])

/-- Items separated by commas. -/
def itemChars : List Json → List Char
  | [] => []
  | [item] => chars item
  | item :: rest => chars item ++ ',' :: itemChars rest

/-- Entries separated by commas. -/
def entryChars : List (String × Json) → List Char
  | [] => []
  | [(key, value)] => Text.jsonQuoted key.toList ++ ':' :: chars value
  | (key, value) :: rest =>
    Text.jsonQuoted key.toList ++ ':' :: (chars value ++ ',' :: entryChars rest)
end

/-- The compact text of a value. -/
def body (value : Json) : String :=
  String.ofList value.chars

end DexCache.Json
