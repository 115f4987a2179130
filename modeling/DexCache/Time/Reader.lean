import DexCache.Json.Reader
import DexCache.Text.Blank
import DexCache.Time.Timestamp

/-!
# Reading days and times

Days are year, month and day with hyphens; times add a time of day and an offset from
universal time.  Blanks are allowed before numbers and hyphens, and months, days, hours,
minutes and seconds may have one digit.  The first fault met is reported.
-/

namespace DexCache.Time

open Json (TimeFault)

/-- Drops blanks. -/
def skipBlanks (cs : List Char) : List Char :=
  cs.dropWhile Text.isBlank

/-- At least one and at most `width` digits. -/
def number (width : Option Nat) (cs : List Char) : Except TimeFault (Nat × List Char) :=
  match cs with
  | [] => .error .tooShort
  | _ =>
    let digits := (match width with | some n => cs.take n | none => cs).takeWhile Char.isDigit
    if digits.isEmpty then .error .invalid
    else
      let n := Decimal.digitsValue digits
      if 9223372036854775807 < n then .error .outOfRange
      else .ok (n, cs.drop digits.length)

/-- A number of at most two digits between bounds, blanks before it skipped. -/
def part (least greatest : Nat) (cs : List Char) : Except TimeFault (Nat × List Char) := do
  let (n, rest) ← number (some 2) (skipBlanks cs)
  if least ≤ n ∧ n ≤ greatest then return (n, rest) else .error .outOfRange

/-- A separating character, blanks before it skipped. -/
def separator (c : Char) (cs : List Char) : Except TimeFault (List Char) :=
  match skipBlanks cs with
  | [] => .error .tooShort
  | d :: rest => if d = c then .ok rest else .error .invalid

/-- A year: four digits, or a sign and any number of them. -/
def year (cs : List Char) : Except TimeFault (Int × List Char) := do
  let (y, rest) ← match skipBlanks cs with
    | '-' :: rest => (number none rest).map fun (n, rest) => (-(n : Int), rest)
    | '+' :: rest => (number none rest).map fun (n, rest) => ((n : Int), rest)
    | cs => (number (some 4) cs).map fun (n, rest) => ((n : Int), rest)
  if -2147483648 ≤ y ∧ y ≤ 2147483647 then return (y, rest) else .error .outOfRange

/-- The parts of a day; that it exists is not checked yet. -/
def dateParts (cs : List Char) : Except TimeFault (Date × List Char) := do
  let (y, rest) ← year cs
  let rest ← separator '-' rest
  let (m, rest) ← part 1 12 rest
  let rest ← separator '-' rest
  let (d, rest) ← part 1 31 rest
  return (⟨y, m, d⟩, rest)

/-- A day that exists. -/
def existing (d : Date) : Except TimeFault Date :=
  if d.isValid then .ok d else .error .outOfRange

/-- Reads a whole text as a day. -/
def dateOfChars (cs : List Char) : Except TimeFault Date := do
  let (d, rest) ← dateParts cs
  if (skipBlanks rest).isEmpty then existing d else .error .tooLong

/-- The nanoseconds after a point; digits beyond the ninth are dropped. -/
def fraction (cs : List Char) : Except TimeFault (Nat × List Char) :=
  match cs with
  | '.' :: rest => do
    let (n, after) ← number (some 9) rest
    let taken := rest.length - after.length
    return (n * Nat.pow 10 (9 - taken), after.dropWhile Char.isDigit)
  | _ => .ok (0, cs)

/-- Two digits as they stand; a last character beyond ASCII takes both places. -/
def twoDigits? : List Char → Option (Option (Nat × Nat) × List Char)
  | a :: b :: rest =>
    some (if a.isDigit && b.isDigit then some (a.toNat - 48, b.toNat - 48) else none, rest)
  | [a] => if a.toNat < 0x80 then none else some (none, [])
  | [] => none

/-- The minutes of an offset. -/
def offsetMinutes (cs : List Char) : Except TimeFault (Nat × List Char) :=
  match twoDigits? cs with
  | none => .error .tooShort
  | some (none, _) => .error .invalid
  | some (some (a, b), rest) =>
    if a ≤ 5 then .ok (a * 10 + b, rest) else .error .outOfRange

/-- An offset from universal time in seconds. -/
def offset (cs : List Char) : Except TimeFault (Int × List Char) :=
  let signed (negative : Bool) (rest : List Char) : Except TimeFault (Int × List Char) :=
    match twoDigits? rest with
    | none => .error .tooShort
    | some (none, _) => .error .invalid
    | some (some (a, b), rest) => do
      let rest := rest.dropWhile fun c => c = ':' || Text.isBlank c
      let (minutes, rest) ← offsetMinutes rest
      let seconds : Int := (a * 10 + b) * 3600 + minutes * 60
      return (if negative then -seconds else seconds, rest)
  match cs with
  | [] => .error .tooShort
  | 'Z' :: rest | 'z' :: rest => .ok (0, rest)
  | '+' :: rest => signed false rest
  | '-' :: rest | '−' :: rest => signed true rest
  | _ => .error .invalid

/-- An offset, or the letters of universal time. -/
def zone (cs : List Char) : Except TimeFault (Int × List Char) :=
  if (cs.take 3).map Char.toLower = ['u', 't', 'c'] then .ok (0, cs.drop 3) else offset cs

/-- Reads a whole text as a day, a time of day and an offset. -/
def timestampOfChars (cs : List Char) : Except TimeFault Timestamp := do
  let (d, rest) ← dateParts cs
  let rest ← match rest with
    | 't' :: rest | 'T' :: rest | ' ' :: rest => .ok rest
    | _ :: _ => .error .invalid
    | [] => .error .tooShort
  let (hour, rest) ← part 0 23 rest
  let rest ← separator ':' rest
  let (minute, rest) ← part 0 59 rest
  let rest ← separator ':' rest
  let (second, rest) ← part 0 60 rest
  let (nanos, rest) ← fraction rest
  let (east, rest) ← zone (skipBlanks rest)
  if !(skipBlanks rest).isEmpty then .error .tooLong
  let d ← existing d
  if east ≤ -86400 ∨ 86400 ≤ east then .error .outOfRange
  let (second, nanos) := if second = 60 then (59, nanos + 1000000000) else (second, nanos)
  let t : Timestamp := ⟨d.toDays * 86400 + hour * 3600 + minute * 60 + second - east, nanos⟩
  if Date.isKeptYear t.date.year then return t else .error .impossible

/-- Reads a day. -/
def Date.reader : Json.Reader Date
  | .str s => (dateOfChars s.toList).mapError .time
  | v => Json.Reader.mismatch v "a formatted date string"

/-- Reads a time. -/
def Timestamp.reader : Json.Reader Timestamp
  | .str s => (timestampOfChars s.toList).mapError .time
  | v => Json.Reader.mismatch v "an RFC 3339 formatted date and time string"

end DexCache.Time
