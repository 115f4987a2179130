/-!
# Base64 with canonical padding

The standard alphabet, four characters for three bytes, the last group padded with
`=` and its unused bits zero.  Decoding reports the first fault it meets; only a stray
last character after whole groups is reported before anything else.
-/

namespace DexCache.Text.Base64

/-- Why a text is not the encoding of any byte sequence. -/
inductive Fault where
  | invalidSymbol (byte offset : Nat)
  | invalidLastSymbol (byte offset : Nat)
  | invalidLength (length : Nat)
  | invalidPadding
deriving DecidableEq, Repr

/-- The report of a fault. -/
def Fault.message : Fault → String
  | .invalidSymbol byte offset =>
    "Invalid symbol " ++ toString byte ++ ", offset " ++ toString offset ++ "."
  | .invalidLastSymbol byte offset =>
    "Invalid last symbol " ++ toString byte ++ ", offset " ++ toString offset ++ "."
  | .invalidLength length => "Invalid input length: " ++ toString length
  | .invalidPadding => "Invalid padding"

/-- The symbol of a value below 64. -/
def symbol (value : Nat) : Nat :=
  if value < 26 then 65 + value
  else if value < 52 then 97 + (value - 26)
  else if value < 62 then 48 + (value - 52)
  else if value = 62 then 43
  else 47

/-- The value of a symbol. -/
def value? (byte : Nat) : Option Nat :=
  if 65 ≤ byte ∧ byte ≤ 90 then some (byte - 65)
  else if 97 ≤ byte ∧ byte ≤ 122 then some (byte - 97 + 26)
  else if 48 ≤ byte ∧ byte ≤ 57 then some (byte - 48 + 52)
  else if byte = 43 then some 62
  else if byte = 47 then some 63
  else none

/-- The padding character. -/
def pad : Nat := 61

/-- Encodes bytes; the result holds the codes of its characters. -/
def encode : List Nat → List Nat
  | [] => []
  | [a] => [symbol (a / 4), symbol (a % 4 * 16), pad, pad]
  | [a, b] => [symbol (a / 4), symbol (a % 4 * 16 + b / 16), symbol (b % 16 * 4), pad]
  | a :: b :: c :: rest =>
    symbol (a / 4) :: symbol (a % 4 * 16 + b / 16) :: symbol (b % 16 * 4 + c / 64) ::
      symbol (c % 64) :: encode rest

/-- The value of the symbol at an offset. -/
def valueAt (byte offset : Nat) : Except Fault Nat :=
  match value? byte with
  | some v => .ok v
  | none => .error (.invalidSymbol byte offset)

/-- The symbols and the padding of the last group: values read so far, last symbol, offset
of the first padding character and how many there are. -/
structure Tail where
  values : List Nat
  lastSymbol : Nat
  padOffset : Nat
  pads : Nat

/-- Reads the last group; `place` counts the characters of the group already read. -/
def readTail (start : Nat) : Nat → Tail → List Nat → Except Fault Tail
  | _, tail, [] => .ok tail
  | place, tail, byte :: rest =>
    if byte = pad then
      if place < 2 then .error (.invalidSymbol byte (start + place))
      else
        readTail start (place + 1)
          { tail with
            padOffset := if tail.pads = 0 then start + place else tail.padOffset
            pads := tail.pads + 1 } rest
    else if tail.pads ≠ 0 then .error (.invalidSymbol pad tail.padOffset)
    else do
      let v ← valueAt byte (start + place)
      readTail start (place + 1)
        { tail with values := tail.values ++ [v], lastSymbol := byte } rest

/-- The bytes of the last group, which must be canonical. -/
def closeTail (start : Nat) (tail : Tail) : Except Fault (List Nat) :=
  if tail.values.length < 2 then .error (.invalidLength (start + tail.values.length))
  else if (tail.pads + tail.values.length) % 4 ≠ 0 then .error .invalidPadding
  else
    match tail.values with
    | [a, b] =>
      if b % 16 ≠ 0 then .error (.invalidLastSymbol tail.lastSymbol (start + 1))
      else .ok [a * 4 + b / 16]
    | [a, b, c] =>
      if c % 4 ≠ 0 then .error (.invalidLastSymbol tail.lastSymbol (start + 2))
      else .ok [a * 4 + b / 16, b % 16 * 16 + c / 4]
    | [a, b, c, d] => .ok [a * 4 + b / 16, b % 16 * 16 + c / 4, c % 4 * 64 + d]
    | _ => .ok []

/-- Decodes from offset `start` on: whole groups while more than four characters remain,
then the last group. -/
def decodeFrom (start : Nat) : List Nat → Except Fault (List Nat)
  | a :: b :: c :: d :: e :: rest => do
    let a ← valueAt a start
    let b ← valueAt b (start + 1)
    let c ← valueAt c (start + 2)
    let d ← valueAt d (start + 3)
    let more ← decodeFrom (start + 4) (e :: rest)
    return (a * 4 + b / 16) :: (b % 16 * 16 + c / 4) :: (c % 4 * 64 + d) :: more
  | last => do
    let tail ← readTail start 0 ⟨[], 0, 0, 0⟩ last
    closeTail start tail

/-- Is there a single character after whole groups that is neither symbol nor padding? -/
def strayLast? (codes : List Nat) : Option Nat :=
  if codes.length % 4 = 1 then
    codes.getLast?.filter fun byte => byte ≠ pad && (value? byte).isNone
  else none

/-- Decodes the codes of a text into bytes. -/
def decode (codes : List Nat) : Except Fault (List Nat) :=
  if codes.isEmpty then .ok []
  else match strayLast? codes with
    | some byte => .error (.invalidSymbol byte (codes.length - 1))
    | none => decodeFrom 0 codes

end DexCache.Text.Base64
