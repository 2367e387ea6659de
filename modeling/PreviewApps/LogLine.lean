import PreviewApps.Text.Split
import PreviewApps.Time.Iso

/-!
Lines of a container log: a timestamp in RFC 3339 form, a space and the message. Fractions finer
than a microsecond are cut.
-/

namespace PreviewApps

structure LogLine where
  time : Timestamp
  message : String
  deriving DecidableEq

namespace LogLine

/-- The parts of a timestamp: up to the seconds, the digits of the fraction, and the zone. -/
structure Parts where
  seconds : List Char
  fraction : List Char
  zone : List Char

def isStamp (cs : List Char) : Bool :=
  cs.length == 19 && (cs.zip "dddd-dd-ddTdd:dd:dd".toList).all fun (c, p) =>
    if p = 'd' then Text.isDigit c else c == p

def isZone : List Char → Bool
  | ['Z'] => true
  | s :: r => (s == '+' || s == '-') && r.length == 5 && (r.zip "dd:dd".toList).all fun (c, p) =>
    if p = 'd' then Text.isDigit c else c == p
  | [] => false

/-- A line feed at the end is tolerated. -/
def parts? (cs : List Char) : Option Parts :=
  let cs := if cs.getLast? = some '\n' then cs.dropLast else cs
  let seconds := cs.take 19
  let rest := cs.drop 19
  let (fraction, zone) := match rest with
    | '.' :: r => (r.takeWhile Text.isDigit, r.dropWhile Text.isDigit)
    | r => ([], r)
  let hasPoint := rest.head? = some '.'
  if isStamp seconds && isZone zone && !(hasPoint && fraction.isEmpty) then
    some ⟨seconds, fraction, zone⟩
  else none

def sixDigits (fraction : List Char) : List Char := (fraction ++ List.replicate 6 '0').take 6

def zoneText (zone : List Char) : List Char := if zone = ['Z'] then "+00:00".toList else zone

def timeOf? (p : Parts) : Option Timestamp :=
  Iso.timestamp (p.seconds ++ '.' :: sixDigits p.fraction ++ zoneText p.zone)

inductive Reading
  | untimed
  | impossible
  | timed (line : LogLine)

/-- A timestamp that is well formed but names no time is reported, not skipped. -/
def read (line : String) : Reading :=
  let (stamp, message) := (Text.cutFirst ' ' line.toList).getD (line.toList, [])
  match parts? stamp with
  | none => .untimed
  | some p => match timeOf? p with
    | none => .impossible
    | some t => .timed ⟨t, String.ofList message⟩

end LogLine

end PreviewApps
