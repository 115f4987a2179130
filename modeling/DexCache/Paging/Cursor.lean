import DexCache.Decimal.Digits
import DexCache.Query.Error

/-!
# Cursors

A cursor names a position in a list: the base64 text of a fixed word and the position
in decimal.  Positions have 64 bits.
-/

namespace DexCache.Paging

/-- The word in front of the position. -/
def cursorWord : List Char := "arrayconnection:".toList

/-- The greatest position. -/
def maxPosition : Nat := 18446744073709551615

/-- The cursor of a position. -/
def cursor (position : Nat) : String :=
  String.ofList ((Text.Base64.encode
    (Text.Utf8.encode (cursorWord ++ Decimal.natChars position))).map Char.ofNat)

/-- The digits behind the word of a cursor. -/
def behindWord? : List Char → List Char → Option (List Char)
  | [], cs => some cs
  | w :: word, c :: cs => if w = c then behindWord? word cs else none
  | _ :: _, [] => none

/-- The position that a decoded cursor names. -/
def positionOfChars? (cs : List Char) : Option Nat := do
  let digits ← behindWord? cursorWord cs
  let n ← Decimal.unsignedOfChars? digits
  if n ≤ maxPosition then some n else none

/-- The position that a cursor names. -/
def position (text : String) : Except Query.CursorFault Nat := do
  let bytes ← (Text.Base64.decode (Text.Utf8.encode text.toList)).mapError .encoding
  let cs ← (Text.Utf8.decode bytes).mapError .text
  match positionOfChars? cs with
  | some n => .ok n
  | none => .error (.content text)

end DexCache.Paging
