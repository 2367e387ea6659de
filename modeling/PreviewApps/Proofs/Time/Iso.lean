import PreviewApps.Proofs.Text.Digit
import PreviewApps.Time.Iso

/-! Dates, clocks and offsets written with a fixed count of digits, and read again. -/

namespace PreviewApps

open Text (padded isAsciiDigit natOfDigits)

namespace Date

theorem daysInMonth_le (year month : Nat) : daysInMonth year month ≤ 31 := by
  unfold daysInMonth
  split
  · split <;> decide
  all_goals decide

variable (d : Date)

theorem year_lt : d.year < 10 ^ 4 := Nat.lt_succ_of_le d.valid.1.2

theorem month_lt : d.month < 10 ^ 2 := Nat.lt_of_le_of_lt d.valid.2.1.2 (by decide)

theorem day_lt : d.day < 10 ^ 2 :=
  Nat.lt_of_le_of_lt (d.valid.2.2.2.trans (daysInMonth_le ..)) (by decide)

end Date

namespace Iso

variable {v : Nat}

theorem number_padded {width : Nat} (hwidth : 0 < width) (hv : v < 10 ^ width) (r : List Char) :
    number width (padded width v ++ r) = some (v, r) := by
  have hlength := Text.length_padded hwidth hv
  have hdigits : (padded width v).all isAsciiDigit :=
    List.all_eq_true.2 fun c hc => Text.isAsciiDigit_of_mem_padded hc
  rw [number, List.take_left' hlength, List.drop_left' hlength, if_pos ⟨hlength, hdigits⟩,
    Text.natOfDigits_padded]

theorem exists_cons_padded {width : Nat} (hwidth : 0 < width) (hv : v < 10 ^ width)
    (r : List Char) : ∃ c r', padded width v ++ r = c :: r' ∧ isAsciiDigit c := by
  cases hcs : padded width v with
  | nil =>
    have hlength := Text.length_padded hwidth hv
    rw [hcs] at hlength
    exact absurd hlength.symm (Nat.ne_of_gt hwidth)
  | cons c cs =>
    have hmem : c ∈ padded width v := hcs ▸ List.mem_cons_self
    exact ⟨c, cs ++ r, rfl, Text.isAsciiDigit_of_mem_padded hmem⟩

theorem ne_of_isAsciiDigit {c d : Char} (hc : isAsciiDigit c) (hd : isAsciiDigit d = false) :
    c ≠ d := by
  rintro rfl
  rw [hc] at hd
  cases hd

theorem dateLength_dashed {cs r : List Char} {c : Char} (hlength : cs.length ≠ 7)
    (hdrop : cs.drop 4 = '-' :: c :: r) (hc : isAsciiDigit c) : dateLength cs = 10 := by
  have hW : c ≠ 'W' := by
    rintro rfl
    exact absurd hc (by decide)
  rw [dateLength, if_neg hlength, hdrop]
  split
  · next h =>
    cases h
    exact absurd rfl hW
  · next h =>
    cases h
    exact absurd rfl hW
  · next h =>
    cases h
    exact absurd rfl hW
  · rfl
  · next h => cases h
  · next h _ => exact absurd rfl (h _)

theorem date_padded (d : Date) :
    date (padded 4 d.year ++ '-' :: (padded 2 d.month ++ '-' :: padded 2 d.day)) = some d := by
  obtain ⟨c, r, hr, hc⟩ := exists_cons_padded (by decide) d.month_lt ('-' :: padded 2 d.day)
  have hrest := number_padded (by decide) d.month_lt ('-' :: padded 2 d.day)
  have hlast := number_padded (by decide) d.day_lt []
  rw [List.append_nil] at hlast
  rw [hr] at hrest
  rw [date, hr, number_padded (by decide) d.year_lt]
  simp only [bind, Option.bind_some]
  split
  · next h =>
    cases h
    exact absurd hc (by decide)
  · next h => cases h
  · next h =>
    cases h
    rw [hrest, Option.bind_some]
    change (number 2 (padded 2 d.day)).bind _ = _
    rw [hlast]
    exact dif_pos d.valid
  · next h => exact absurd rfl (h _)

theorem fieldsFrom_colon {separated : Option Bool} (hseparated : separated.getD true = true)
    (hv : v < 10 ^ 2) (more : Nat) (c : Char) (r : List Char) :
    fieldsFrom separated (more + 1) (padded 2 v ++ ':' :: c :: r) =
      (fieldsFrom (some true) more (c :: r)).map fun f => { f with values := v :: f.values } := by
  have hcolon : separated.getD (decide True) = true := by simpa using hseparated
  rw [fieldsFrom, number_padded (by decide) hv]
  simp only [bind, Option.bind_some]
  rw [if_neg (by decide), hcolon, if_neg (by decide), if_pos rfl]
  cases fieldsFrom (some true) more (c :: r) <;> rfl

theorem fieldsFrom_point (hv : v < 10 ^ 2) (more : Nat) {ds : List Char} (hlength : ds.length = 6)
    (hds : ∀ c ∈ ds, isAsciiDigit c) :
    fieldsFrom (some true) more (padded 2 v ++ '.' :: ds) = some ⟨[v], natOfDigits ds, true⟩ := by
  have hfraction : fraction ds = some ⟨[], natOfDigits ds, true⟩ := by
    rw [fraction, List.take_of_length_le hlength.le, if_pos (List.all_eq_true.2 hds),
      List.take_left' hlength, List.drop_of_length_le hlength.le]
    rfl
  cases ds with
  | nil => cases hlength
  | cons c r =>
    rw [fieldsFrom, number_padded (by decide) hv]
    simp only [bind, Option.bind_some]
    rw [if_pos (.inl trivial), hfraction]
    rfl

theorem fieldsFrom_end (separated : Option Bool) (hv : v < 10 ^ 2) (more : Nat) :
    fieldsFrom separated more (padded 2 v) = some ⟨[v], 0, true⟩ := by
  have hnumber := number_padded (by decide) hv []
  rw [List.append_nil] at hnumber
  rw [fieldsFrom, hnumber]
  rfl

theorem fields_clock {hour minute second : Nat} (hhour : hour < 10 ^ 2) (hminute : minute < 10 ^ 2)
    (hsecond : second < 10 ^ 2) {ds : List Char} (hlength : ds.length = 6)
    (hds : ∀ c ∈ ds, isAsciiDigit c) :
    fields (padded 2 hour ++ ':' :: (padded 2 minute ++ ':' :: (padded 2 second ++ '.' :: ds))) =
      some ⟨[hour, minute, second], natOfDigits ds, true⟩ := by
  obtain ⟨c, r, hr, -⟩ := exists_cons_padded (by decide) hminute
    (':' :: (padded 2 second ++ '.' :: ds))
  obtain ⟨c', r', hr', -⟩ := exists_cons_padded (by decide) hsecond ('.' :: ds)
  rw [fields, hr, fieldsFrom_colon rfl hhour, ← hr, hr', fieldsFrom_colon rfl hminute, ← hr',
    fieldsFrom_point hsecond 0 hlength hds]
  rfl

theorem fields_offset {hours minutes : Nat} (hhours : hours < 10 ^ 2) (hminutes : minutes < 10 ^ 2) :
    fields (padded 2 hours ++ ':' :: padded 2 minutes) = some ⟨[hours, minutes], 0, true⟩ := by
  obtain ⟨c, r, hr, -⟩ := exists_cons_padded (by decide) hminutes []
  rw [List.append_nil] at hr
  rw [fields, hr, fieldsFrom_colon rfl hhours, ← hr, fieldsFrom_end _ hminutes]
  rfl

def sign (negative : Bool) : Char := if negative then '-' else '+'

theorem offset_sign (negative : Bool) {cs : List Char} {f : Fields} (hfields : fields cs = some f)
    (hcomplete : f.complete = true) :
    offset (sign negative :: cs) = (offsetOf? negative f).map some := by
  have hsigned (b : Bool) : ((fields cs).bind fun f =>
      if f.complete then (offsetOf? b f).map some else none) = (offsetOf? b f).map some := by
    rw [hfields, Option.bind_some, if_pos hcomplete]
  cases negative with
  | false => exact hsigned false
  | true => exact hsigned true

theorem isZoneStart_sign (negative : Bool) : isZoneStart (sign negative) = true := by
  cases negative <;> decide

theorem isZoneStart_of_isAsciiDigit {c : Char} (h : isAsciiDigit c) : isZoneStart c = false := by
  have hplus := ne_of_isAsciiDigit h (d := '+') (by decide)
  have hminus := ne_of_isAsciiDigit h (d := '-') (by decide)
  have hZ := ne_of_isAsciiDigit h (d := 'Z') (by decide)
  simp [isZoneStart, hplus, hminus, hZ]

theorem length_day (d : Date) : (padded 4 d.year ++
    '-' :: (padded 2 d.month ++ '-' :: padded 2 d.day)).length = 10 := by
  have hyear := Text.length_padded (by decide) d.year_lt
  have hmonth := Text.length_padded (by decide) d.month_lt
  have hday := Text.length_padded (by decide) d.day_lt
  simp only [List.length_append, List.length_cons, hyear, hmonth, hday]

theorem dateLength_day (d : Date) (r : List Char) : dateLength ((padded 4 d.year ++
    '-' :: (padded 2 d.month ++ '-' :: padded 2 d.day)) ++ r) = 10 := by
  obtain ⟨c, r', hr', hc⟩ := exists_cons_padded (by decide) d.month_lt ('-' :: padded 2 d.day)
  refine dateLength_dashed ?_ (c := c) (r := r' ++ r) ?_ hc
  · rw [List.length_append, length_day]
    omega
  · rw [List.append_assoc, List.drop_left' (Text.length_padded (by decide) d.year_lt), hr']
    rfl

theorem not_isZoneStart_of_mem_clock {hour minute second : Nat} {ds : List Char}
    (hds : ∀ c ∈ ds, isAsciiDigit c) : ∀ c ∈ padded 2 hour ++
      ':' :: (padded 2 minute ++ ':' :: (padded 2 second ++ '.' :: ds)), (!isZoneStart c) = true := by
  have hdigit : ∀ {c}, isAsciiDigit c → (!isZoneStart c) = true := fun h => by
    rw [isZoneStart_of_isAsciiDigit h]
    rfl
  simp only [List.forall_mem_append, List.forall_mem_cons]
  exact ⟨fun c hc => hdigit (Text.isAsciiDigit_of_mem_padded hc), rfl,
    fun c hc => hdigit (Text.isAsciiDigit_of_mem_padded hc), rfl,
    fun c hc => hdigit (Text.isAsciiDigit_of_mem_padded hc), rfl, fun c hc => hdigit (hds c hc)⟩

theorem timestamp_append {day clock zone r : List Char} {sign : Char} {d : Date} {f : Fields}
    {o : Option UtcOffset} {c : Clock} (separator : Char) (hlength : day.length = 10)
    (hdate : dateLength (day ++ separator :: (clock ++ zone)) = 10) (hday : date day = some d)
    (hclock : ∀ c ∈ clock, (!isZoneStart c) = true) (hfields : fields clock = some f)
    (hcomplete : f.complete = true) (hzone : zone = sign :: r) (hsign : isZoneStart sign)
    (hoffset : offset zone = some o)
    (htime : Clock.of? f.hour f.minute f.second f.microsecond = some c) :
    timestamp (day ++ separator :: (clock ++ zone)) = some ⟨d, c, o⟩ := by
  have hbefore : (clock ++ zone).takeWhile (!isZoneStart ·) = clock := by
    rw [List.takeWhile_append_of_pos hclock, hzone, List.takeWhile_cons_of_neg (by simp [hsign]),
      List.append_nil]
  have hbehind : (clock ++ zone).dropWhile (!isZoneStart ·) = zone := by
    rw [List.dropWhile_append_of_pos hclock, hzone, List.dropWhile_cons_of_neg (by simp [hsign])]
  have hlong : ¬(day ++ separator :: (clock ++ zone)).length < 7 := by
    rw [List.length_append, hlength]
    omega
  rw [timestamp, if_neg hlong, hdate]
  simp only [List.take_left' hlength, List.drop_left' hlength, hday, hbefore, hbehind, hfields,
    hoffset, htime, hcomplete, bind, Option.bind_some, Bool.true_or, if_true]

end Iso

end PreviewApps
