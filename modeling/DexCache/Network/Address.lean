import DexCache.Decimal.Digits
import DexCache.Text.Hex

/-!
# Addresses

Written addresses of hosts and sockets: just enough to tell a well-formed one from one that
is not.
-/

namespace DexCache.Network

/-- A decimal number up to `bound`, without superfluous zeros in front. -/
def isNumberUpTo (bound : Nat) (cs : List Char) : Bool :=
  match cs with
  | '0' :: _ :: _ => false
  | _ => (Decimal.natOfChars? cs).any fun n => decide (n ≤ bound)

/-- A port. -/
def isPort (cs : List Char) : Bool :=
  (Decimal.natOfChars? cs).any fun n => decide (n ≤ 65535)

/-- Four numbers of a byte with points between them. -/
def isIPv4 (cs : List Char) : Bool :=
  let parts := cs.splitOn '.'
  parts.length == 4 && parts.all (isNumberUpTo 255)

/-- One to four hexadecimal digits. -/
def isGroup (cs : List Char) : Bool :=
  1 ≤ cs.length && cs.length ≤ 4 && cs.all fun c => (Text.hexDigit? c).isSome

/-- How many groups a run of them stands for, if `last` with an address of four numbers in
the place of its last two. -/
def groupCount? (last : Bool) (cs : List Char) : Option Nat :=
  if cs.isEmpty then some 0
  else
    let parts := cs.splitOn ':'
    if parts.all isGroup then some parts.length
    else if last && parts.dropLast.all isGroup && isIPv4 (parts.getLast?.getD []) then
      some (parts.length + 1)
    else none

/-- Cuts a text at its first pair of colons. -/
def cutAtGap : List Char → Option (List Char × List Char)
  | ':' :: ':' :: rest => some ([], rest)
  | c :: rest => (cutAtGap rest).map fun (front, back) => (c :: front, back)
  | [] => none

/-- Eight groups, or fewer with one gap. -/
def isIPv6 (cs : List Char) : Bool :=
  match cutAtGap cs with
  | none => groupCount? true cs == some 8
  | some (front, back) =>
    match groupCount? false front, groupCount? true back with
    | some m, some n => m + n ≤ 7
    | _, _ => false

/-- A scope behind an address: a percent sign and a number of 32 bits. -/
def isScope (cs : List Char) : Bool :=
  match cs with
  | [] => true
  | '%' :: digits => (Decimal.natOfChars? digits).any fun n => decide (n ≤ 4294967295)
  | _ => false

/-- An address and a port. -/
def isSocketAddress (text : String) : Bool :=
  match text.toList with
  | '[' :: rest =>
    let (inside, rest) := rest.span fun c => c ≠ ']'
    let (address, scope) := inside.span fun c => c ≠ '%'
    match rest with
    | ']' :: ':' :: port => isIPv6 address && isScope scope && isPort port
    | _ => false
  | cs =>
    match cs.span fun c => c ≠ ':' with
    | (address, ':' :: port) => isIPv4 address && isPort port
    | _ => false

/-- The number that a part of a loosely written address stands for: hexadecimal behind
`0x`, octal behind `0`, otherwise decimal. -/
def looseNumber? (cs : List Char) : Option Nat :=
  let (base, digits) := match cs with
    | '0' :: 'x' :: digits => (16, digits)
    | '0' :: d :: digits => (8, d :: digits)
    | _ => (10, cs)
  if cs.isEmpty then none
  else
    digits.foldlM (fun n c => do
      let d ← Text.hexDigit? c
      if d < base then some (n * base + d) else none) 0

/-- The parts of a loosely written address; a point at its end does not count. -/
def looseParts (cs : List Char) : List (List Char) :=
  let parts := cs.splitOn '.'
  if parts.getLast? = some [] then parts.dropLast else parts

/-- Does a name in lower case look like an address, since it ends in a number? -/
def endsInNumber (cs : List Char) : Bool :=
  match (looseParts cs).getLast? with
  | none => false
  | some last => (!last.isEmpty && last.all Char.isDigit) || (looseNumber? last).isSome

/-- Up to four numbers with points between them, all but the last one of a byte; the last
one fills the bytes that are left. -/
def isLooseIPv4 (cs : List Char) : Bool :=
  match (looseParts cs).mapM looseNumber? with
  | none => false
  | some numbers =>
    let last := numbers.getLast?.getD 0
    1 ≤ numbers.length && numbers.length ≤ 4 && numbers.dropLast.all (fun n => n ≤ 255) &&
      last < Nat.pow 256 (5 - numbers.length)

end DexCache.Network
