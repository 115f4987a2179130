import DexCache.Text.Combining
import DexCache.Text.Unprintable

/-!
# Quoted text

Two written forms of a text between double quotes: the JSON form, which escapes
quotes, backslashes and control characters, and the report form used in messages,
which also escapes whatever could not be seen or would merge with its neighbour.
-/

namespace DexCache.Text

/-- Four lower-case hexadecimal digits of a code below `2 ^ 16`. -/
def hex4 (code : Nat) : List Char :=
  [code / 4096 % 16, code / 256 % 16, code / 16 % 16, code % 16].map Nat.digitChar

/-- A character inside a JSON string. -/
def jsonChar (c : Char) : List Char :=
  if c = '"' then ['\\', '"']
  else if c = '\\' then ['\\', '\\']
  else if c = '\x08' then ['\\', 'b']
  else if c = '\x0c' then ['\\', 'f']
  else if c = '\n' then ['\\', 'n']
  else if c = '\r' then ['\\', 'r']
  else if c = '\t' then ['\\', 't']
  else if c.toNat < 0x20 then '\\' :: 'u' :: hex4 c.toNat
  else [c]

/-- The JSON form of a text. -/
def jsonQuoted (cs : List Char) : List Char :=
  '"' :: (cs.flatMap jsonChar ++ ['"'])

/-- A character inside a text that is shown in a message. -/
def reportChar (c : Char) : List Char :=
  if c = '\x00' then ['\\', '0']
  else if c = '\t' then ['\\', 't']
  else if c = '\r' then ['\\', 'r']
  else if c = '\n' then ['\\', 'n']
  else if c = '"' then ['\\', '"']
  else if c = '\\' then ['\\', '\\']
  else if isGraphemeExtend c || isUnprintable c then
    '\\' :: 'u' :: '{' :: (Nat.toDigits 16 c.toNat ++ ['}'])
  else [c]

/-- The form of a text in messages. -/
def reportQuoted (text : String) : String :=
  String.ofList ('"' :: (text.toList.flatMap reportChar ++ ['"']))

end DexCache.Text
