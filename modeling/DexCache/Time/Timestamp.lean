import DexCache.Time.Date

/-!
# Points in time

Times are counted in nanoseconds from the start of 1970.  A written time can also name
a leap second, which has no count of its own, so timestamps keep it apart.
-/

namespace DexCache.Time

/-- Nanoseconds in a millisecond. -/
def perMilli : Int := 1000000

/-- Nanoseconds in a second. -/
def perSecond : Int := 1000000000

/-- A written time.  `nanos` below `10 ^ 9` lies within the second; a leap second is the
second before it with `10 ^ 9` more. -/
structure Timestamp where
  seconds : Int
  nanos : Nat
deriving DecidableEq, Repr, Inhabited

namespace Timestamp

/-- The count of a timestamp. -/
def instant (t : Timestamp) : Int :=
  t.seconds * perSecond + t.nanos

/-- The timestamp of a count. -/
def ofInstant (i : Int) : Timestamp :=
  ⟨i / perSecond, (i % perSecond).toNat⟩

theorem instant_ofInstant (i : Int) : (ofInstant i).instant = i := by
  simp only [ofInstant, instant, perSecond]
  omega

/-- The day a timestamp lies in. -/
def date (t : Timestamp) : Date :=
  .ofDays (t.seconds / 86400)

/-- The digits after the point of a second: none, three, six or nine. -/
def fractionChars (nanos : Nat) : List Char :=
  if nanos = 0 then []
  else if nanos % 1000000 = 0 then '.' :: Date.padded 3 (nanos / 1000000)
  else if nanos % 1000 = 0 then '.' :: Date.padded 6 (nanos / 1000)
  else '.' :: Date.padded 9 nanos

/-- Day and time of day in universal time. -/
def chars (t : Timestamp) : List Char :=
  let time := (t.seconds % 86400).toNat
  let leap := if 1000000000 ≤ t.nanos then 1 else 0
  t.date.chars ++ 'T' :: (Date.padded 2 (time / 3600) ++
    ':' :: (Date.padded 2 (time / 60 % 60) ++
    ':' :: (Date.padded 2 (time % 60 + leap) ++
    fractionChars (t.nanos - leap * 1000000000) ++ ['Z'])))

end Timestamp

end DexCache.Time
