/-!
# UTF-8

Characters as bytes and back.  A malformed byte sequence is reported with the index
where it starts and, unless the text merely ends too early, its length; or else a
replacement character is read in its place.
-/

namespace DexCache.Text.Utf8

/-- The bytes of a text, as numbers. -/
def encode (cs : List Char) : List Nat :=
  (cs.flatMap String.utf8EncodeChar).map UInt8.toNat

/-- How many bytes a text takes. -/
def size : List Char → Nat
  | [] => 0
  | c :: cs => c.utf8Size + size cs

/-- Where and how a byte sequence stops being UTF-8. -/
inductive Fault where
  | invalid (index length : Nat)
  | incomplete (index : Nat)
deriving DecidableEq, Repr

/-- The report of a malformed sequence. -/
def Fault.message : Fault → String
  | .invalid index length =>
    "invalid utf-8 sequence of " ++ toString length ++ " bytes from index " ++ toString index
  | .incomplete index => "incomplete utf-8 byte sequence from index " ++ toString index

/-- The range of second bytes allowed after a lead byte, and how many bytes follow it in
all; `none` if no character of two bytes or more starts with it. -/
def lead? (b : Nat) : Option (Nat × Nat × Nat) :=
  if 0xC2 ≤ b ∧ b ≤ 0xDF then some (0x80, 0xBF, 1)
  else if b = 0xE0 then some (0xA0, 0xBF, 2)
  else if b = 0xED then some (0x80, 0x9F, 2)
  else if 0xE1 ≤ b ∧ b ≤ 0xEF then some (0x80, 0xBF, 2)
  else if b = 0xF0 then some (0x90, 0xBF, 3)
  else if 0xF1 ≤ b ∧ b ≤ 0xF3 then some (0x80, 0xBF, 3)
  else if b = 0xF4 then some (0x80, 0x8F, 3)
  else none

/-- The rest of a character that began at `index`: `seen` bytes are read, their payload is
`code`, the next one must lie between `low` and `high`, and `more` are still to come. -/
def continueChar (index seen code low high : Nat) :
    Nat → List Nat → Except Fault (Nat × List Nat)
  | 0, bytes => .ok (code, bytes)
  | _ + 1, [] => .error (.incomplete index)
  | more + 1, b :: bytes =>
    if low ≤ b ∧ b ≤ high then
      continueChar index (seen + 1) (code * 64 + b % 64) 0x80 0xBF more bytes
    else .error (.invalid index seen)

/-- Decodes from byte `index` on, at most `fuel` characters. -/
def decodeFrom : Nat → Nat → List Nat → Except Fault (List Char)
  | _, _, [] => .ok []
  | 0, index, _ :: _ => .error (.incomplete index)
  | fuel + 1, index, b :: bytes =>
    if b < 0x80 then
      (decodeFrom fuel (index + 1) bytes).map fun cs => Char.ofNat b :: cs
    else
      match lead? b with
      | none => .error (.invalid index 1)
      | some (low, high, more) => do
        let payload := b % Nat.pow 2 (6 - more)
        let (code, rest) ← continueChar index 1 payload low high more bytes
        let cs ← decodeFrom fuel (index + 1 + more) rest
        return Char.ofNat code :: cs

/-- The text of a byte sequence. -/
def decode (bytes : List Nat) : Except Fault (List Char) :=
  decodeFrom bytes.length 0 bytes

/-- Decodes at most `fuel` characters, with a replacement character for each malformed
sequence. -/
def decodeLossyFrom : Nat → List Nat → List Char
  | 0, _ | _ + 1, [] => []
  | fuel + 1, b :: bytes =>
    if b < 0x80 then Char.ofNat b :: decodeLossyFrom fuel bytes
    else
      match lead? b with
      | none => '\uFFFD' :: decodeLossyFrom fuel bytes
      | some (low, high, more) =>
        match continueChar 0 1 (b % Nat.pow 2 (6 - more)) low high more bytes with
        | .ok (code, rest) => Char.ofNat code :: decodeLossyFrom fuel rest
        | .error (.invalid _ seen) => '\uFFFD' :: decodeLossyFrom fuel (bytes.drop (seen - 1))
        | .error (.incomplete _) => ['\uFFFD']

/-- The text of a byte sequence that need not be well-formed. -/
def decodeLossy (bytes : List Nat) : List Char :=
  decodeLossyFrom bytes.length bytes

end DexCache.Text.Utf8
