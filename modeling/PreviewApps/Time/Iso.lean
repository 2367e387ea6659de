import PreviewApps.Time.Timestamp

/-!
Reading ISO 8601 timestamps. Dates are calendar or week dates, clocks may stop after the hour or the
minute, and separators stand everywhere or nowhere; one character of any kind divides date and
clock. Between a clock and its zone one ASCII character is skipped, and behind a fraction anything.
-/

namespace PreviewApps.Iso

open Text (isAsciiDigit natOfDigits)

def number (width : Nat) (cs : List Char) : Option (Nat × List Char) :=
  let ds := cs.take width
  if ds.length = width ∧ ds.all isAsciiDigit then some (natOfDigits ds, cs.drop width) else none

/-- The length of the date, told from its fifth to eleventh character and the digits of a week. -/
def dateLength (cs : List Char) : Nat :=
  if cs.length = 7 then 7
  else match cs.drop 4 with
    | '-' :: 'W' :: _ :: _ :: '-' :: _ :: c :: _ => if isAsciiDigit c then 8 else 10
    | '-' :: 'W' :: _ :: _ :: '-' :: _ => 10
    | '-' :: 'W' :: _ => 8
    | '-' :: _ => 10
    | 'W' :: _ =>
      let pos := 7 + ((cs.drop 7).takeWhile isAsciiDigit).length
      if pos < 9 then pos else if pos % 2 = 0 then 7 else 8
    | _ => 8

def weekDate (year : Nat) (dashed : Bool) (cs : List Char) : Option Date := do
  let (week, r) ← number 2 cs
  match r, dashed with
  | [], _ => Date.ofWeek? year week 1
  | '-' :: r, true => do
    let (day, r) ← number 1 r
    if r.isEmpty then Date.ofWeek? year week day else none
  | r, false => do
    let (day, r) ← number 1 r
    if r.isEmpty then Date.ofWeek? year week day else none
  | _, true => none

def date (cs : List Char) : Option Date := do
  let (year, r) ← number 4 cs
  match r with
  | '-' :: 'W' :: r => weekDate year true r
  | 'W' :: r => weekDate year false r
  | '-' :: r => do
    let (month, r) ← number 2 r
    let r ← match r with
      | '-' :: r => some r
      | _ => none
    let (day, r) ← number 2 r
    if r.isEmpty then Date.of? year month day else none
  | r => do
    let (month, r) ← number 2 r
    let (day, r) ← number 2 r
    if r.isEmpty then Date.of? year month day else none

/-- Nothing is left; U+0000 ends a text as well. -/
def ends : List Char → Bool
  | [] => true
  | c :: _ => c.toNat == 0

/-- Up to three numbers and a fraction, and whether nothing else is left behind them. -/
structure Fields where
  values : List Nat
  microsecond : Nat
  complete : Bool

/-- The first six digits, filled up with zeros; more digits are dropped. -/
def fraction (cs : List Char) : Option Fields :=
  let ds := cs.take 6
  if ds.all isAsciiDigit then
    let rest := (cs.drop 6).dropWhile isAsciiDigit
    some ⟨[], natOfDigits ((ds ++ List.replicate 6 '0').take 6), ends rest⟩
  else none

/-- One number, and at most `more` behind it. Colons stand between all numbers or none, and a point
or a comma starts the fraction; a single ASCII character at the end is left. -/
def fieldsFrom (separated : Option Bool) : Nat → List Char → Option Fields
  | more, cs => do
    let (v, r) ← number 2 cs
    let rest ← match r with
      | [] => some ⟨[], 0, true⟩
      | [c] => if c.toNat < 128 then some ⟨[], 0, ends [c]⟩ else none
      | c :: r =>
        let separated := separated.getD (c = ':')
        if c = '.' ∨ c = ',' then fraction r
        else if separated && c ≠ ':' then none
        else
          let r := if separated then r else c :: r
          match more with
          | 0 => fraction r
          | more + 1 => fieldsFrom (some separated) more r
    some { rest with values := v :: rest.values }

def fields (cs : List Char) : Option Fields := fieldsFrom none 2 cs

def Fields.hour (f : Fields) : Nat := f.values.getD 0 0

def Fields.minute (f : Fields) : Nat := f.values.getD 1 0

def Fields.second (f : Fields) : Nat := f.values.getD 2 0

/-- An offset of less than a second is none at all. -/
def offsetOf? (negative : Bool) (f : Fields) : Option UtcOffset :=
  let seconds := (f.hour * 60 + f.minute) * 60 + f.second
  let n : Int := seconds * 1000000 + f.microsecond
  if seconds = 0 then some .utc else UtcOffset.of? (if negative then -n else n)

def offset : List Char → Option (Option UtcOffset)
  | [] => some none
  | 'Z' :: r => if ends r then some (some .utc) else none
  | c :: r =>
    if c = '+' ∨ c = '-' then do
      let f ← fields r
      if f.complete then (offsetOf? (c = '-') f).map some else none
    else none

def isZoneStart (c : Char) : Bool := c = '+' || c = '-' || c = 'Z'

def timestamp (cs : List Char) : Option Timestamp :=
  if cs.length < 7 then none
  else do
    let n := dateLength cs
    let d ← date (cs.take n)
    match cs.drop n with
    | [] => (Clock.of? 0 0 0 0).map fun c => ⟨d, c, none⟩
    | _ :: r => do
      let f ← fields (r.takeWhile (!isZoneStart ·))
      let o ← offset (r.dropWhile (!isZoneStart ·))
      let c ← Clock.of? f.hour f.minute f.second f.microsecond
      if f.complete || o.isSome then some ⟨d, c, o⟩ else none

end Iso

def Timestamp.parse? (s : String) : Option Timestamp := Iso.timestamp s.toList

end PreviewApps
