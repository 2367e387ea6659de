import PreviewApps.Text.Blank
import PreviewApps.Text.Digit

/-!
Numerals in texts, in two forms. The free form has digits of any script, grouped by single low
lines. The strict form has ASCII digits, and besides groups it allows a fraction of zeros.
-/

namespace PreviewApps.Text

/-- The digits of a begun numeral, and the text behind it. -/
def groupedDigits (digit? : Char → Option Nat) : List Char → List Nat × List Char
  | '_' :: c :: r => match digit? c with
    | some d => let (ds, rest) := groupedDigits digit? r; (d :: ds, rest)
    | none => ([], '_' :: c :: r)
  | c :: r => match digit? c with
    | some d => let (ds, rest) := groupedDigits digit? r; (d :: ds, rest)
    | none => ([], c :: r)
  | [] => ([], [])

def natOfDigitValues (ds : List Nat) : Nat := ds.foldl (fun n d => n * 10 + d) 0

def signed (cs : List Char) : Int × List Char :=
  match cs with
  | '-' :: r => (-1, r)
  | '+' :: r => (1, r)
  | r => (1, r)

def numeral (digit? : Char → Option Nat) : List Char → Option (Nat × List Char)
  | [] => none
  | c :: r => (digit? c).map fun d =>
    let (ds, rest) := groupedDigits digit? r
    (natOfDigitValues (d :: ds), rest)

/-- The free form, with blanks around and a sign before it. -/
def parseInt? (cs : List Char) : Option Int :=
  let (sign, r) := signed (trim isBlank cs)
  match numeral digitValue? r with
  | some (n, []) => some (sign * n)
  | _ => none

/-- No zero stands before another digit. -/
def plainNat? : List Char → Option Nat
  | ['0'] => some 0
  | c :: r => if '1' ≤ c && c ≤ '9' && r.all isAsciiDigit then some (natOfDigits (c :: r)) else none
  | [] => none

def plainInt? : List Char → Option Int
  | '-' :: r => (plainNat? r).map fun n => -(n : Int)
  | r => (plainNat? r).map fun n => (n : Int)

/-- Drops zeros at the front, among which low lines stand freely; the last zero of all is kept. -/
def dropZeros (cs : List Char) : List Char :=
  let run := cs.takeWhile fun c => c = '0' || c = '_'
  let rest := cs.dropWhile fun c => c = '0' || c = '_'
  if cs.head? = some '0' then
    if rest.head?.any isAsciiDigit then rest else run.getLast?.toList ++ rest
  else cs

/-- Drops a point with zeros behind it. -/
def dropZeroFraction (cs : List Char) : List Char :=
  match cs.span (· != '.') with
  | (whole, '.' :: z :: zs) => if (z :: zs).all (· == '0') then whole else cs
  | _ => cs

def hasDoubleLowLine : List Char → Bool
  | '_' :: '_' :: _ => true
  | _ :: r => hasDoubleLowLine r
  | [] => false

/-- Single low lines are dropped, except at the ends. -/
def dropLowLines? (cs : List Char) : Option (List Char) :=
  if cs.head? = some '_' || cs.getLast? = some '_' || hasDoubleLowLine cs then none
  else some (cs.filter (· != '_'))

/-- A plus before an unsigned numeral means nothing. -/
def dropPlus : List Char → Option (List Char)
  | '+' :: '-' :: _ => none
  | '+' :: r => some r
  | r => some r

/-- The strict form, with white space around. Negative numerals have no zeros at the front. -/
def parseWhole? (cs : List Char) : Option Int := do
  let r ← dropPlus (trim isSpace cs)
  let r ← dropLowLines? (dropZeroFraction (dropZeros r))
  plainInt? r

end PreviewApps.Text
