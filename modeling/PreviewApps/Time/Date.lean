/-! Dates of the proleptic Gregorian calendar from year 1 to year 9999. -/

namespace PreviewApps

namespace Date

def isLeap (year : Nat) : Bool := year % 4 == 0 && (year % 100 != 0 || year % 400 == 0)

def daysInMonth (year : Nat) : Nat → Nat
  | 2 => if isLeap year then 29 else 28
  | 4 | 6 | 9 | 11 => 30
  | _ => 31

abbrev Valid (year month day : Nat) : Prop :=
  (1 ≤ year ∧ year ≤ 9999) ∧ (1 ≤ month ∧ month ≤ 12) ∧ 1 ≤ day ∧ day ≤ daysInMonth year month

end Date

structure Date where
  year : Nat
  month : Nat
  day : Nat
  valid : Date.Valid year month day
  deriving DecidableEq

namespace Date

def of? (year month day : Nat) : Option Date :=
  if h : Valid year month day then some ⟨year, month, day, h⟩ else none

def daysBeforeYear (year : Nat) : Nat :=
  let y := year - 1
  y * 365 + y / 4 - y / 100 + y / 400

def daysBeforeMonth (year month : Nat) : Nat :=
  ((List.range month).drop 1).foldl (fun n m => n + daysInMonth year m) 0

/-- The days since the first of January of year 1. -/
def dayNumber (d : Date) : Nat :=
  daysBeforeYear d.year + daysBeforeMonth d.year d.month + (d.day - 1)

def ofDayOfYear? (year n : Nat) : Option Date := do
  let month ← [12, 11, 10, 9, 8, 7, 6, 5, 4, 3, 2, 1].find? (daysBeforeMonth year · ≤ n)
  of? year month (n - daysBeforeMonth year month + 1)

/-- Counts cycles of 400, 100 and 4 years and single ones, the last of which may be a day longer. -/
def ofDayNumber? (n : Nat) : Option Date :=
  let r := n % 146097
  let centuries := min 3 (r / 36524)
  let r := r - centuries * 36524
  let s := r % 1461
  let years := min 3 (s / 365)
  ofDayOfYear? (n / 146097 * 400 + centuries * 100 + r / 1461 * 4 + years + 1) (s - years * 365)

/-- Zero is Monday. -/
def weekday (n : Nat) : Nat := n % 7

/-- The Monday of the week with the first Thursday of the year. -/
def firstMonday (year : Nat) : Int :=
  let first := daysBeforeYear year
  let monday : Int := first - weekday first
  if weekday first > 3 then monday + 7 else monday

def weeksInYear (year : Nat) : Nat :=
  let w := weekday (daysBeforeYear year)
  if w = 3 ∨ (w = 2 ∧ isLeap year) then 53 else 52

def ofWeek? (year week day : Nat) : Option Date :=
  if 1 ≤ year ∧ year ≤ 9999 ∧ 1 ≤ week ∧ week ≤ weeksInYear year ∧ 1 ≤ day ∧ day ≤ 7 then
    ofDayNumber? (firstMonday year + ((week - 1) * 7 + day - 1 : Nat)).toNat
  else none

end Date

end PreviewApps
