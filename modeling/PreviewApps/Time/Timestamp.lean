import PreviewApps.Time.Date
import PreviewApps.Text.Digit

/-! Points in time with a resolution of one microsecond, with or without an offset from UTC. -/

namespace PreviewApps

structure Clock where
  hour : Nat
  minute : Nat
  second : Nat
  microsecond : Nat
  valid : (hour < 24 ∧ minute < 60) ∧ second < 60 ∧ microsecond < 1000000
  deriving DecidableEq

/-- An offset is less than a day in either direction. -/
structure UtcOffset where
  microseconds : Int
  lt_day : microseconds.natAbs < 86400000000 := by decide
  deriving DecidableEq

structure Timestamp where
  date : Date
  clock : Clock
  offset : Option UtcOffset
  deriving DecidableEq

namespace Clock

def of? (hour minute second microsecond : Nat) : Option Clock :=
  if h : (hour < 24 ∧ minute < 60) ∧ second < 60 ∧ microsecond < 1000000 then
    some ⟨hour, minute, second, microsecond, h⟩
  else none

def microseconds (c : Clock) : Nat :=
  ((c.hour * 60 + c.minute) * 60 + c.second) * 1000000 + c.microsecond

def ofMicroseconds? (n : Nat) : Option Clock :=
  of? (n / 3600000000) (n / 60000000 % 60) (n / 1000000 % 60) (n % 1000000)

end Clock

namespace UtcOffset

def utc : UtcOffset := ⟨0, by decide⟩

def of? (microseconds : Int) : Option UtcOffset :=
  if h : microseconds.natAbs < 86400000000 then some ⟨microseconds, h⟩ else none

end UtcOffset

namespace Timestamp

open Text (padded)

def fractionText (n : Nat) : List Char := if n = 0 then [] else '.' :: padded 6 n

def offsetText (o : UtcOffset) : List Char :=
  let n := o.microseconds.natAbs
  let s := n / 1000000
  let seconds := if n % 60000000 = 0 then [] else ':' :: padded 2 (s % 60)
  (if o.microseconds < 0 then '-' else '+') :: padded 2 (s / 3600) ++ ':' :: padded 2 (s / 60 % 60)
    ++ seconds ++ fractionText (n % 1000000)

def chars (t : Timestamp) : List Char :=
  padded 4 t.date.year ++ '-' :: padded 2 t.date.month ++ '-' :: padded 2 t.date.day
    ++ 'T' :: padded 2 t.clock.hour ++ ':' :: padded 2 t.clock.minute
    ++ ':' :: padded 2 t.clock.second ++ fractionText t.clock.microsecond
    ++ (t.offset.map offsetText).getD []

def render (t : Timestamp) : String := String.ofList t.chars

/-- Microseconds since year 1 in UTC; without an offset the time is taken as UTC. -/
def instant (t : Timestamp) : Int :=
  t.date.dayNumber * 86400000000 + t.clock.microseconds - (t.offset.map (·.microseconds)).getD 0

def ofInstant? (n : Int) : Option Timestamp := do
  if n < 0 then none
  let date ← Date.ofDayNumber? (n.toNat / 86400000000)
  let clock ← Clock.ofMicroseconds? (n.toNat % 86400000000)
  some ⟨date, clock, some .utc⟩

def toUtc? (t : Timestamp) : Option Timestamp := ofInstant? t.instant

def assumeUtc (t : Timestamp) : Timestamp := { t with offset := some (t.offset.getD .utc) }

end Timestamp

end PreviewApps
