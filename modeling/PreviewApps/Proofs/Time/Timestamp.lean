import Mathlib.Algebra.Order.Ring.Nat
import PreviewApps.Proofs.Time.Iso

/-! How far points in time can be from each other. -/

namespace PreviewApps

namespace Date

theorem foldl_daysInMonth_le (year : Nat) (months : List Nat) (n : Nat) :
    months.foldl (fun n m => n + daysInMonth year m) n ≤ n + months.length * 31 := by
  induction months generalizing n with
  | nil => exact Nat.le_refl n
  | cons m months ih =>
    have hm := daysInMonth_le year m
    have hrest := ih (n + daysInMonth year m)
    rw [List.foldl_cons, List.length_cons]
    omega

theorem daysBeforeMonth_le (year month : Nat) : daysBeforeMonth year month ≤ month * 31 := by
  have hsum := foldl_daysInMonth_le year ((List.range month).drop 1) 0
  rw [List.length_drop, List.length_range] at hsum
  rw [daysBeforeMonth]
  omega

theorem dayNumber_lt (d : Date) : d.dayNumber < 4000000 := by
  have hyear := d.valid.1.2
  have hmonth := d.valid.2.1.2
  have hday := d.valid.2.2.2.trans (daysInMonth_le ..)
  have hbefore := daysBeforeMonth_le d.year d.month
  have hyears : daysBeforeYear d.year ≤ d.year * 366 := by
    unfold daysBeforeYear
    dsimp only
    omega
  rw [dayNumber]
  omega

end Date

theorem Clock.microseconds_lt (c : Clock) : c.microseconds < 86400000000 := by
  have hc := c.valid
  rw [Clock.microseconds]
  omega

namespace Timestamp

theorem natAbs_instant_lt (t : Timestamp) : t.instant.natAbs < 1000000000000000000 := by
  have hday := t.date.dayNumber_lt
  have hclock := t.clock.microseconds_lt
  have hoffset : ((t.offset.map fun o : UtcOffset => o.microseconds).getD 0).natAbs < 86400000000 := by
    cases t.offset with
    | none => decide
    | some o => exact o.lt_day
  rw [instant]
  omega

end Timestamp

end PreviewApps
