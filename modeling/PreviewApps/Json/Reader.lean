import PreviewApps.Json.Basic
import PreviewApps.Text.Digit

/-!
Reading JSON text. `NaN`, `Infinity` and `-Infinity` are numbers, of members with one key the last
value counts, and half a surrogate pair reads as U+FFFD.
-/

namespace PreviewApps.Json.Reader

open Text (isAsciiDigit)

def isSpace (c : Char) : Bool := c = ' ' || c = '\t' || c = '\n' || c = '\r'

def skip (cs : List Char) : List Char := cs.dropWhile isSpace

def hexValue? (c : Char) : Option Nat :=
  if '0' ≤ c ∧ c ≤ '9' then some (c.toNat - 48)
  else if 'a' ≤ c ∧ c ≤ 'f' then some (c.toNat - 87)
  else if 'A' ≤ c ∧ c ≤ 'F' then some (c.toNat - 55)
  else none

def hexUnit? (a b c d : Char) : Option Nat := do
  let a ← hexValue? a
  let b ← hexValue? b
  let c ← hexValue? c
  let d ← hexValue? d
  some (a * 4096 + b * 256 + c * 16 + d)

def shortEscape? : Char → Option Nat
  | '"' => some 34
  | '\\' => some 92
  | '/' => some 47
  | 'b' => some 8
  | 'f' => some 12
  | 'n' => some 10
  | 'r' => some 13
  | 't' => some 9
  | _ => none

/-- The code points and UTF-16 units up to the closing quote, and what follows it. -/
def units : List Char → Option (List Nat × List Char)
  | [] => none
  | '"' :: r => some ([], r)
  | '\\' :: 'u' :: a :: b :: c :: d :: r => do
    let n ← hexUnit? a b c d
    let (ns, rest) ← units r
    some (n :: ns, rest)
  | '\\' :: c :: r => do
    let n ← shortEscape? c
    let (ns, rest) ← units r
    some (n :: ns, rest)
  | c :: r =>
    if c.toNat < 32 then none
    else do
      let (ns, rest) ← units r
      some (c.toNat :: ns, rest)

def isHighHalf (n : Nat) : Bool := 55296 ≤ n && n ≤ 56319

def isLowHalf (n : Nat) : Bool := 56320 ≤ n && n ≤ 57343

def charOfUnit (n : Nat) : Char :=
  if isHighHalf n || isLowHalf n then Char.ofNat 65533 else Char.ofNat n

def joinUnits : List Nat → List Char
  | [] => []
  | [n] => [charOfUnit n]
  | h :: l :: r =>
    if isHighHalf h && isLowHalf l then
      Char.ofNat (65536 + (h - 55296) * 1024 + (l - 56320)) :: joinUnits r
    else charOfUnit h :: joinUnits (l :: r)

/-- Reads on behind the opening quote. -/
def string (cs : List Char) : Option (String × List Char) :=
  (units cs).map fun (ns, rest) => (String.ofList (joinUnits ns), rest)

def wholeDigits : List Char → Option (List Char × List Char)
  | '0' :: r => some (['0'], r)
  | c :: r => if isAsciiDigit c then some ((c :: r).span isAsciiDigit) else none
  | [] => none

/-- The most digits of a whole number. -/
def maxDigits : Nat := 4300

/-- The digits behind a point; a point without digits is not part of the number. -/
def fractionDigits : List Char → List Char × List Char
  | '.' :: r => match r.span isAsciiDigit with
    | ([], _) => ([], '.' :: r)
    | split => split
  | r => ([], r)

def exponentOf (cs : List Char) : Option (Int × List Char) :=
  let (sign, r) : Int × List Char := match cs with
    | '-' :: r => (-1, r)
    | '+' :: r => (1, r)
    | r => (1, r)
  match r.span isAsciiDigit with
  | ([], _) => none
  | (ds, rest) => some (sign * Text.natOfDigits ds, rest)

def exponent (cs : List Char) : Option Int × List Char :=
  match cs with
  | 'e' :: r | 'E' :: r => match exponentOf r with
    | some (e, rest) => (some e, rest)
    | none => (none, cs)
  | _ => (none, cs)

def unsignedNumber (negative : Bool) (cs : List Char) : Option (Json × List Char) := do
  let (whole, r) ← wholeDigits cs
  let (fraction, r) := fractionDigits r
  let (e, r) := exponent r
  if fraction.isEmpty && e.isNone then
    guard (whole.length ≤ maxDigits)
    let n : Int := Text.natOfDigits whole
    some (.int (if negative then -n else n), r)
  else
    let digits := Text.natOfDigits (whole ++ fraction)
    some (.decimal (.bounded negative digits (e.getD 0 - fraction.length)), r)

def word (w : String) (j : Json) (cs : List Char) : Option (Json × List Char) :=
  if w.toList.isPrefixOf cs then some (j, cs.drop w.length) else none

def scalar (cs : List Char) : Option (Json × List Char) :=
  word "null" .null cs <|> word "true" (.bool true) cs <|> word "false" (.bool false) cs
    <|> word "NaN" (.decimal .nan) cs <|> word "Infinity" (.decimal (.infinite false)) cs
    <|> word "-Infinity" (.decimal (.infinite true)) cs
    <|> match cs with
      | '-' :: r => unsignedNumber true r
      | r => unsignedNumber false r

mutual

/-- The fuel is spent once per value, item and member. -/
def value : Nat → List Char → Option (Json × List Char)
  | 0, _ => none
  | fuel + 1, cs => match cs with
    | '"' :: r => (string r).map fun (s, rest) => (.str s, rest)
    | '[' :: r => match skip r with
      | ']' :: rest => some (.arr [], rest)
      | r => (items fuel r).map fun (vs, rest) => (.arr vs, rest)
    | '{' :: r => match skip r with
      | '}' :: rest => some (.obj [], rest)
      | r => (members fuel r).map fun (ms, rest) => (.obj (Assoc.ofList ms), rest)
    | cs => scalar cs

def items : Nat → List Char → Option (List Json × List Char)
  | 0, _ => none
  | fuel + 1, cs => do
    let (v, r) ← value fuel cs
    match skip r with
    | ']' :: rest => some ([v], rest)
    | ',' :: r =>
      let (vs, rest) ← items fuel (skip r)
      some (v :: vs, rest)
    | _ => none

def members : Nat → List Char → Option (List (String × Json) × List Char)
  | 0, _ => none
  | fuel + 1, cs => match cs with
    | '"' :: r => do
      let (k, r) ← string r
      match skip r with
      | ':' :: r =>
        let (v, r) ← value fuel (skip r)
        match skip r with
        | '}' :: rest => some ([(k, v)], rest)
        | ',' :: r =>
          let (ms, rest) ← members fuel (skip r)
          some ((k, v) :: ms, rest)
        | _ => none
      | _ => none
    | _ => none

end

end Reader

/-- The one value of a text that holds nothing else but blanks. -/
def parse? (s : String) : Option Json := do
  let cs := Reader.skip s.toList
  let (v, rest) ← Reader.value (2 * cs.length + 2) cs
  if (Reader.skip rest).isEmpty then some v else none

end PreviewApps.Json
