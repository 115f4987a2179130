import DexCache.Decimal.Digits
import DexCache.Settings.Document.Number
import DexCache.Settings.Document.Text

/-!
# Days and times of a settings document

A day, a time of day, or both with an offset from universal time; they are kept as text.
That a month has as many days is not checked.  Of a fraction nine digits are kept, and the
zeros at its end are dropped.
-/

namespace DexCache.Settings.Document

/-- The number that two digits make, up to `greatest`. -/
def twoDigits? (greatest : Nat) (a b : Char) : Option Nat :=
  if a.isDigit && b.isDigit then
    let n := Decimal.digitsValue [a, b]
    if n ≤ greatest then some n else none
  else none

/-- A day: year, month and day with hyphens. -/
def day? : List Char → Option (List Char × List Char)
  | y₁ :: y₂ :: y₃ :: y₄ :: '-' :: m₁ :: m₂ :: '-' :: d₁ :: d₂ :: rest => do
    let _ ← twoDigits? 99 y₁ y₂
    let _ ← twoDigits? 99 y₃ y₄
    let month ← twoDigits? 12 m₁ m₂
    let day ← twoDigits? 31 d₁ d₂
    if month = 0 || day = 0 then none
    else some ([y₁, y₂, y₃, y₄, '-', m₁, m₂, '-', d₁, d₂], rest)
  | _ => none

/-- The digits of a fraction as they are kept, with the point in front. -/
def fractionText (digits : List Char) : List Char :=
  match ((digits.take 9).reverse.dropWhile fun c => c = '0').reverse with
  | [] => []
  | ds => '.' :: ds

/-- A time of day. -/
def time? : List Char → Option (List Char × List Char)
  | h₁ :: h₂ :: ':' :: m₁ :: m₂ :: ':' :: s₁ :: s₂ :: rest => do
    let _ ← twoDigits? 24 h₁ h₂
    let _ ← twoDigits? 59 m₁ m₂
    let _ ← twoDigits? 59 s₁ s₂
    let text := [h₁, h₂, ':', m₁, m₂, ':', s₁, s₂]
    match rest with
    | '.' :: rest =>
      let (digits, rest) := Decimal.takeDigits rest
      if digits.isEmpty then none else some (text ++ fractionText digits, rest)
    | _ => some (text, rest)
  | _ => none

/-- An offset from universal time, or nothing; no hours are never negative. -/
def offset? : List Char → Option (List Char × List Char)
  | 'Z' :: rest | 'z' :: rest => some (['Z'], rest)
  | s :: rest =>
    if s = '+' || s = '-' then
      match rest with
      | h₁ :: h₂ :: ':' :: m₁ :: m₂ :: rest => do
        let hours ← twoDigits? 99 h₁ h₂
        let _ ← twoDigits? 99 m₁ m₂
        some ([if hours = 0 then '+' else s, h₁, h₂, ':', m₁, m₂], rest)
      | _ => none
    else some ([], s :: rest)
  | [] => some ([], [])

/-- Does a time of day follow a day? -/
def timeFollows : List Char → Bool
  | 'T' :: _ | 't' :: _ => true
  | ' ' :: c :: _ => isKeyChar c
  | _ => false

/-- A day, a time or both, as text. -/
def moment? (cs : List Char) : Option (List Char × List Char) :=
  match day? cs with
  | none => time? cs
  | some (day, rest) =>
    if timeFollows rest then do
      let (time, rest) ← time? (rest.drop 1)
      let (offset, rest) ← offset? rest
      some (day ++ 'T' :: (time ++ offset), rest)
    else
      match rest with
      | 'Z' :: rest | 'z' :: rest => some (day ++ ['Z'], rest)
      | _ => some (day, rest)

end DexCache.Settings.Document
