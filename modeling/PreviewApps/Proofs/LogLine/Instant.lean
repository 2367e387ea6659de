import Mathlib.Data.Rat.Floor
import PreviewApps.Proofs.LogLine

/-!
The exact time of a stamp. Its digits, however many, stand for a rational number of microseconds,
and the time that is read is the last whole microsecond before it. So a line that is printed is read
back up to the microsecond, and lines are read in the order in which they were printed.
-/

namespace PreviewApps.LogLine

open Text (isAsciiDigit natOfDigits)

theorem natOfDigits_sixDigits {fraction : List Char} (h : ∀ c ∈ fraction, isAsciiDigit c) :
    natOfDigits (sixDigits fraction) =
      natOfDigits fraction * 1000000 / 10 ^ fraction.length := by
  rw [sixDigits, Text.natOfDigits_take (isAsciiDigit_of_mem_filled h 6), Text.natOfDigits_append,
    Text.natOfDigits_replicate_zero, List.length_append, List.length_replicate, Nat.add_zero,
    Nat.add_sub_cancel]
  rfl

namespace Stamp

variable (t u : Stamp)

/-- Microseconds from the start of year 1 in UTC to the second of the stamp. -/
def secondInstant : Int :=
  t.date.dayNumber * 86400000000 + ((t.hour * 60 + t.minute) * 60 + t.second : Nat) * 1000000
    - t.zone.microseconds

/-- Microseconds from the start of year 1 in UTC, with every digit that is written. -/
def instant : ℚ :=
  t.secondInstant +
    ((natOfDigits t.fraction * 1000000 : Nat) : ℚ) / ((10 ^ t.fraction.length : Nat) : ℚ)

theorem instant_time : t.time.instant = t.secondInstant + t.microsecond := by
  change (t.date.dayNumber * 86400000000 +
    (((t.hour * 60 + t.minute) * 60 + t.second) * 1000000 + t.microsecond : Nat) -
      t.zone.microseconds : Int) = _
  rw [secondInstant]
  omega

theorem instant_time_eq_floor : t.time.instant = ⌊t.instant⌋ := by
  rw [instant, Int.floor_intCast_add, Rat.floor_natCast_div_natCast, instant_time, microsecond,
    natOfDigits_sixDigits t.digits]
  rfl

theorem le_instant_time_iff (n : Int) : n ≤ t.time.instant ↔ (n : ℚ) ≤ t.instant := by
  rw [instant_time_eq_floor, Int.le_floor]

variable {t u} in
theorem instant_time_mono (h : t.instant ≤ u.instant) : t.time.instant ≤ u.time.instant := by
  rw [instant_time_eq_floor, instant_time_eq_floor]
  exact Int.floor_le_floor h

def printed (message : String) : String := String.ofList (t.chars ++ ' ' :: message.toList)

/-- The line has the time of the stamp in its own zone, of whose fraction the first six digits
count, and the message. -/
structure ReadAs (message : String) (line : LogLine) : Prop where
  date : line.time.date = t.date
  hour : line.time.clock.hour = t.hour
  minute : line.time.clock.minute = t.minute
  second : line.time.clock.second = t.second
  microsecond : line.time.clock.microsecond =
    natOfDigits ((t.fraction ++ List.replicate 6 '0').take 6)
  offset : line.time.offset.map UtcOffset.microseconds = some t.zone.microseconds
  message : line.message = message

theorem readAs_time (message : String) : t.ReadAs message ⟨t.time, message⟩ :=
  ⟨rfl, rfl, rfl, rfl, rfl, rfl, rfl⟩

/-- Printed lines are read back, and the order of their times is that of the stamps as far as times
differ by a microsecond. -/
theorem read_printed_in_order (message other : String) :
    ∃ line line', read (t.printed message) = .timed line ∧ read (u.printed other) = .timed line' ∧
      t.ReadAs message line ∧ u.ReadAs other line' ∧ line.time.instant = ⌊t.instant⌋ ∧
      (t.instant ≤ u.instant → line.time.instant ≤ line'.time.instant) :=
  ⟨_, _, read_stamped t message, read_stamped u other, t.readAs_time message,
    u.readAs_time other, t.instant_time_eq_floor, instant_time_mono⟩

end Stamp

end PreviewApps.LogLine
