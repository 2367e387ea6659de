import PreviewApps.LogLine
import PreviewApps.Proofs.Time.Iso
import PreviewApps.Text.Lines

/-!
Lines of a log with a timestamp in its written form, which are read as that time and the message
behind it.
-/

namespace PreviewApps

open Text (padded isAsciiDigit isDigit isLineEnd natOfDigits)
open Iso (isZoneStart offset offsetOf? sign timestamp)

namespace LogLine

inductive Zone
  | utc
  | offset (negative : Bool) (hours minutes : Nat)
    (valid : minutes < 100 ∧ hours * 60 + minutes < 1440)

structure Stamp where
  date : Date
  hour : Nat
  minute : Nat
  second : Nat
  fraction : List Char
  zone : Zone
  valid : (hour < 24 ∧ minute < 60) ∧ second < 60
  digits : ∀ c ∈ fraction, isAsciiDigit c = true

namespace Zone

def chars : Zone → List Char
  | utc => ['Z']
  | offset negative hours minutes _ =>
    sign negative :: (padded 2 hours ++ ':' :: padded 2 minutes)

def microseconds : Zone → Int
  | utc => 0
  | offset negative hours minutes _ =>
    if negative then -((hours * 60 + minutes) * 60000000 : Int)
    else (hours * 60 + minutes) * 60000000

theorem natAbs_microseconds_lt (z : Zone) : z.microseconds.natAbs < 86400000000 := by
  cases z with
  | utc => decide
  | offset negative hours minutes valid => cases negative <;> simp [microseconds] <;> omega

def toOffset (z : Zone) : UtcOffset := ⟨z.microseconds, z.natAbs_microseconds_lt⟩

end Zone

theorem length_sixDigits (fraction : List Char) : (sixDigits fraction).length = 6 := by
  rw [sixDigits, List.length_take, List.length_append, List.length_replicate]
  omega

theorem isAsciiDigit_of_mem_filled {fraction : List Char} (h : ∀ c ∈ fraction, isAsciiDigit c)
    (n : Nat) : ∀ c ∈ fraction ++ List.replicate n '0', isAsciiDigit c := by
  intro c hc
  rcases List.mem_append.1 hc with hdigit | hzero
  · exact h c hdigit
  · rw [List.eq_of_mem_replicate hzero]
    decide

theorem isAsciiDigit_of_mem_sixDigits {fraction : List Char}
    (h : ∀ c ∈ fraction, isAsciiDigit c) : ∀ c ∈ sixDigits fraction, isAsciiDigit c :=
  fun c hc => isAsciiDigit_of_mem_filled h 6 c (List.mem_of_mem_take hc)

namespace Stamp

variable (t : Stamp)

def microsecond : Nat := natOfDigits (sixDigits t.fraction)

theorem microsecond_lt : t.microsecond < 1000000 := by
  have hlt := Text.natOfDigits_lt (isAsciiDigit_of_mem_sixDigits t.digits)
  rwa [length_sixDigits] at hlt

def time : Timestamp where
  date := t.date
  clock := ⟨t.hour, t.minute, t.second, t.microsecond, t.valid.1, t.valid.2, t.microsecond_lt⟩
  offset := some t.zone.toOffset

theorem hour_lt : t.hour < 10 ^ 2 := t.valid.1.1.trans (by decide)

theorem minute_lt : t.minute < 10 ^ 2 := t.valid.1.2.trans (by decide)

theorem second_lt : t.second < 10 ^ 2 := t.valid.2.trans (by decide)

def secondsChars : List Char :=
  padded 4 t.date.year ++ '-' :: padded 2 t.date.month ++ '-' :: padded 2 t.date.day
    ++ 'T' :: padded 2 t.hour ++ ':' :: padded 2 t.minute ++ ':' :: padded 2 t.second

def fractionChars : List Char := if t.fraction.isEmpty then [] else '.' :: t.fraction

def chars : List Char := t.secondsChars ++ t.fractionChars ++ t.zone.chars

end Stamp

theorem zoneText_sign (negative : Bool) (cs : List Char) :
    zoneText (sign negative :: cs) = sign negative :: cs := by
  refine if_neg fun h => ?_
  obtain ⟨hsign, -⟩ := List.cons.inj h
  cases negative <;> exact absurd hsign (by decide)

theorem offsetOf?_fields {negative : Bool} {hours minutes : Nat}
    (valid : minutes < 100 ∧ hours * 60 + minutes < 1440) :
    offsetOf? negative ⟨[hours, minutes], 0, true⟩ =
      some (Zone.offset negative hours minutes valid).toOffset := by
  let z := Zone.offset negative hours minutes valid
  have hvalue : (if negative then -((((hours * 60 + minutes) * 60 + 0 : Nat) : Int) * 1000000 +
      (0 : Nat)) else (((hours * 60 + minutes) * 60 + 0 : Nat) : Int) * 1000000 + (0 : Nat)) =
        z.microseconds := by
    cases negative <;> simp [z, Zone.microseconds] <;> omega
  change (if (hours * 60 + minutes) * 60 + 0 = 0 then some UtcOffset.utc else UtcOffset.of? _) = _
  split
  · next hzero =>
    have hnone : z.microseconds = 0 := by
      rw [← hvalue, hzero]
      cases negative <;> rfl
    simp only [Zone.toOffset, UtcOffset.utc, Option.some.injEq, UtcOffset.mk.injEq]
    exact hnone.symm
  · refine (congrArg UtcOffset.of? hvalue).trans ?_
    exact dif_pos z.natAbs_microseconds_lt

theorem offset_zoneText (z : Zone) : offset (zoneText z.chars) = some (some z.toOffset) := by
  cases z with
  | utc => decide +kernel
  | offset negative hours minutes valid =>
    have hhours : hours < 10 ^ 2 := by omega
    have hfields := Iso.fields_offset hhours valid.1
    rw [Zone.chars, zoneText_sign, Iso.offset_sign negative hfields rfl, offsetOf?_fields valid]
    rfl

theorem exists_zoneStart (z : Zone) : ∃ c r, zoneText z.chars = c :: r ∧ isZoneStart c := by
  cases z with
  | utc => exact ⟨'+', _, rfl, rfl⟩
  | offset negative hours minutes valid =>
    exact ⟨_, _, zoneText_sign negative _, Iso.isZoneStart_sign negative⟩

theorem timestamp_stamp (t : Stamp) :
    timestamp (t.secondsChars ++ '.' :: sixDigits t.fraction ++ zoneText t.zone.chars) =
      some t.time := by
  let ds := sixDigits t.fraction
  have hds : ∀ c ∈ ds, isAsciiDigit c := isAsciiDigit_of_mem_sixDigits t.digits
  have hwhole : t.secondsChars ++ '.' :: ds ++ zoneText t.zone.chars =
      (padded 4 t.date.year ++ '-' :: (padded 2 t.date.month ++ '-' :: padded 2 t.date.day)) ++
        'T' :: ((padded 2 t.hour ++ ':' :: (padded 2 t.minute ++ ':' ::
          (padded 2 t.second ++ '.' :: ds))) ++ zoneText t.zone.chars) := by
    simp only [Stamp.secondsChars, List.append_assoc, List.cons_append]
  have hfields := Iso.fields_clock t.hour_lt t.minute_lt t.second_lt (length_sixDigits _) hds
  obtain ⟨sign, r, hzone, hsign⟩ := exists_zoneStart t.zone
  rw [hwhole]
  exact Iso.timestamp_append 'T' (Iso.length_day t.date) (Iso.dateLength_day t.date _)
    (Iso.date_padded t.date) (Iso.not_isZoneStart_of_mem_clock hds) hfields rfl hzone hsign (offset_zoneText t.zone)
    (dif_pos ⟨t.valid.1, t.valid.2, t.microsecond_lt⟩)

def fits (cs pattern : List Char) : Bool :=
  (cs.zip pattern).all fun (c, p) => if p = 'd' then isDigit c else c == p

theorem isStamp_eq (cs : List Char) :
    isStamp cs = (cs.length == 19 && fits cs "dddd-dd-ddTdd:dd:dd".toList) := by
  rfl

theorem fits_cons {c : Char} (hc : c ≠ 'd') (cs pattern : List Char) :
    fits (c :: cs) (c :: pattern) = fits cs pattern := by
  simp [fits, hc]

theorem fits_replicate {width v : Nat} : fits (padded width v) (List.replicate width 'd') = true := by
  refine List.all_eq_true.2 ?_
  rintro ⟨c, p⟩ hmem
  obtain ⟨hc, hp⟩ := List.of_mem_zip hmem
  rw [List.eq_of_mem_replicate hp]
  exact Text.isDigit_of_isAsciiDigit (Text.isAsciiDigit_of_mem_padded hc)

theorem fits_padded {width v : Nat} (hwidth : 0 < width) (hv : v < 10 ^ width)
    (cs pattern : List Char) :
    fits (padded width v ++ cs) (List.replicate width 'd' ++ pattern) = fits cs pattern := by
  have hlength := Text.length_padded hwidth hv
  have hdigits : fits (padded width v) (List.replicate width 'd') = true := fits_replicate
  rw [fits] at hdigits ⊢
  rw [List.zip_append (by rw [hlength, List.length_replicate]), List.all_append, hdigits,
    Bool.true_and]
  rfl

theorem isZone_cons {c : Char} (hc : c = '+' ∨ c = '-') {cs : List Char} (hlength : cs.length = 5)
    (hfits : fits cs "dd:dd".toList = true) : isZone (c :: cs) = true := by
  unfold isZone
  split
  · rfl
  · next h =>
    cases h
    have hsigned : (c == '+' || c == '-') = true := by simpa using hc
    rw [hsigned, hlength]
    exact hfits
  · next h => cases h

theorem isZone_chars (z : Zone) : isZone z.chars = true := by
  cases z with
  | utc => rfl
  | offset negative hours minutes valid =>
    have hhours : hours < 10 ^ 2 := by omega
    have hpattern : "dd:dd".toList = List.replicate 2 'd' ++ ':' :: List.replicate 2 'd' := by
      decide
    refine isZone_cons ?_ ?_ ?_
    · cases negative <;> decide
    · rw [List.length_append, List.length_cons, Text.length_padded (by decide) hhours,
        Text.length_padded (by decide) valid.1]
    · rw [hpattern, fits_padded (by decide) hhours, fits_cons (by decide), fits_replicate]

theorem length_secondsChars (t : Stamp) : t.secondsChars.length = 19 := by
  have hyear := Text.length_padded (by decide) t.date.year_lt
  have hmonth := Text.length_padded (by decide) t.date.month_lt
  have hday := Text.length_padded (by decide) t.date.day_lt
  have hhour := Text.length_padded (by decide) t.hour_lt
  have hminute := Text.length_padded (by decide) t.minute_lt
  have hsecond := Text.length_padded (by decide) t.second_lt
  simp only [Stamp.secondsChars, List.length_append, List.length_cons, hyear, hmonth, hday, hhour,
    hminute, hsecond]

theorem isStamp_secondsChars (t : Stamp) : isStamp t.secondsChars = true := by
  have hpattern : "dddd-dd-ddTdd:dd:dd".toList = List.replicate 4 'd' ++ '-' ::
      (List.replicate 2 'd' ++ '-' :: (List.replicate 2 'd' ++ 'T' :: (List.replicate 2 'd' ++ ':' ::
        (List.replicate 2 'd' ++ ':' :: List.replicate 2 'd')))) := by decide
  have hfits : fits t.secondsChars "dddd-dd-ddTdd:dd:dd".toList = true := by
    simp only [Stamp.secondsChars, List.append_assoc, List.cons_append, hpattern]
    rw [fits_padded (by decide) t.date.year_lt, fits_cons (by decide),
      fits_padded (by decide) t.date.month_lt, fits_cons (by decide),
      fits_padded (by decide) t.date.day_lt, fits_cons (by decide),
      fits_padded (by decide) t.hour_lt, fits_cons (by decide),
      fits_padded (by decide) t.minute_lt, fits_cons (by decide), fits_replicate]
  rw [isStamp_eq, length_secondsChars, hfits]
  rfl

def isStampChar (c : Char) : Bool := isAsciiDigit c || "-:.+TZ".toList.contains c

theorem isStampChar_of_isAsciiDigit {c : Char} (h : isAsciiDigit c) : isStampChar c = true :=
  Bool.or_eq_true_iff.2 (.inl h)

theorem isStampChar_of_mem_padded {width v : Nat} : ∀ c ∈ padded width v, isStampChar c = true :=
  fun _ hc => isStampChar_of_isAsciiDigit (Text.isAsciiDigit_of_mem_padded hc)

theorem Zone.isStampChar_of_mem_chars (z : Zone) : ∀ c ∈ z.chars, isStampChar c = true := by
  cases z with
  | utc => exact List.forall_mem_singleton.2 (by decide)
  | offset negative hours minutes valid =>
    simp only [Zone.chars, List.forall_mem_cons, List.forall_mem_append]
    refine ⟨?_, isStampChar_of_mem_padded, by decide, isStampChar_of_mem_padded⟩
    cases negative <;> decide

theorem Stamp.isStampChar_of_mem_chars (t : Stamp) : ∀ c ∈ t.chars, isStampChar c = true := by
  have hfraction : ∀ c ∈ t.fractionChars, isStampChar c = true := by
    unfold Stamp.fractionChars
    split
    · simp
    · exact List.forall_mem_cons.2
        ⟨by decide, fun c hc => isStampChar_of_isAsciiDigit (t.digits c hc)⟩
  simp only [Stamp.chars, Stamp.secondsChars, List.forall_mem_append, List.forall_mem_cons,
    and_assoc]
  exact ⟨isStampChar_of_mem_padded, by decide, isStampChar_of_mem_padded, by decide,
    isStampChar_of_mem_padded, by decide, isStampChar_of_mem_padded, by decide,
    isStampChar_of_mem_padded, by decide, isStampChar_of_mem_padded, hfraction,
    t.zone.isStampChar_of_mem_chars⟩

theorem not_isLineEnd_of_isStampChar {c : Char} (h : isStampChar c = true) :
    isLineEnd c = false := by
  have hends : ∀ n ∈ [10, 11, 12, 13, 28, 29, 30, 133, 8232, 8233],
      isStampChar (Char.ofNat n) = false := by decide
  rw [← Bool.not_eq_true]
  intro hend
  have hnot := hends c.toNat (List.contains_iff_mem.1 hend)
  rw [Char.ofNat_toNat, h] at hnot
  cases hnot

theorem exists_zone_cons (z : Zone) :
    ∃ c cs, z.chars = c :: cs ∧ c ≠ '.' ∧ isDigit c = false := by
  cases z with
  | utc => exact ⟨_, _, rfl, by decide, by decide⟩
  | offset negative hours minutes valid =>
    refine ⟨_, _, rfl, ?_⟩
    cases negative <;> decide

theorem parts?_chars (t : Stamp) :
    parts? t.chars = some ⟨t.secondsChars, t.fraction, t.zone.chars⟩ := by
  have hlast : t.chars.getLast? ≠ some '\n' := fun h =>
    absurd (t.isStampChar_of_mem_chars _ (List.mem_of_getLast? h)) (by decide)
  have hseconds : t.chars.take 19 = t.secondsChars := by
    rw [Stamp.chars, List.append_assoc, List.take_left' (length_secondsChars t)]
  have hrest : t.chars.drop 19 = t.fractionChars ++ t.zone.chars := by
    rw [Stamp.chars, List.append_assoc, List.drop_left' (length_secondsChars t)]
  obtain ⟨c, cs, hzone, hpoint, hdigit⟩ := exists_zone_cons t.zone
  rw [parts?, if_neg hlast]
  simp only [hseconds, hrest, isStamp_secondsChars, Bool.true_and]
  cases hfraction : t.fraction with
  | nil =>
    have hchars : t.fractionChars = [] := by rw [Stamp.fractionChars, hfraction]; rfl
    have hzoned := isZone_chars t.zone
    rw [hzone] at hzoned ⊢
    simp [hchars, hpoint, hzoned]
  | cons d ds =>
    have hchars : t.fractionChars = '.' :: d :: ds := by rw [Stamp.fractionChars, hfraction]; rfl
    have hdigits : ∀ c ∈ d :: ds, isDigit c = true := fun c hc =>
      Text.isDigit_of_isAsciiDigit (t.digits c (hfraction ▸ hc))
    have hbefore : (d :: ds ++ t.zone.chars).takeWhile isDigit = d :: ds := by
      rw [List.takeWhile_append_of_pos hdigits, hzone, List.takeWhile_cons_of_neg (by simp [hdigit]),
        List.append_nil]
    have hbehind : (d :: ds ++ t.zone.chars).dropWhile isDigit = t.zone.chars := by
      rw [List.dropWhile_append_of_pos hdigits, hzone, List.dropWhile_cons_of_neg (by simp [hdigit])]
    rw [hchars, List.cons_append]
    simp only [hbefore, hbehind, isZone_chars, List.isEmpty_cons, Bool.and_false, Bool.not_false,
      Bool.and_true, if_true]

theorem read_stamped (t : Stamp) (message : String) :
    read (String.ofList (t.chars ++ ' ' :: message.toList)) = .timed ⟨t.time, message⟩ := by
  have hspace : ' ' ∉ t.chars := fun h => absurd (t.isStampChar_of_mem_chars _ h) (by decide)
  have htime : timeOf? ⟨t.secondsChars, t.fraction, t.zone.chars⟩ = some t.time := timestamp_stamp t
  rw [read, String.toList_ofList, Text.cutFirst_append _ hspace]
  simp only [Option.getD_some, parts?_chars, htime, String.ofList_toList]

end LogLine

end PreviewApps
