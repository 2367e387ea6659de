import PreviewApps.Json.Basic
import PreviewApps.Text.Digit
import PreviewApps.Text.Quoted

/-!
JSON text in ASCII: every other character is written as one or two `\u` escapes of UTF-16 units.
-/

namespace PreviewApps.Json

/-- What stands between two items and between a key and its value. -/
structure Layout where
  item : String
  member : String

def Layout.compact : Layout := ⟨",", ":"⟩

def Layout.spaced : Layout := ⟨", ", ": "⟩

def unitEscape (n : Nat) : List Char := '\\' :: 'u' :: Text.hexDigits 4 n

def escapeChar (c : Char) : List Char :=
  if c = '"' ∨ c = '\\' then ['\\', c]
  else if c = '\n' then ['\\', 'n']
  else if c = '\r' then ['\\', 'r']
  else if c = '\t' then ['\\', 't']
  else if c = '\x08' then ['\\', 'b']
  else if c = '\x0c' then ['\\', 'f']
  else if 32 ≤ c.toNat ∧ c.toNat < 127 then [c]
  else if c.toNat < 65536 then unitEscape c.toNat
  else
    let n := c.toNat - 65536
    unitEscape (55296 + n / 1024) ++ unitEscape (56320 + n % 1024)

def stringText (s : String) : List Char := '"' :: s.toList.flatMap escapeChar ++ ['"']

def intText (n : Int) : List Char :=
  if n < 0 then '-' :: Nat.toDigits 10 n.natAbs else Nat.toDigits 10 n.natAbs

/-- Digits with the point before the digit at `point`; at least one digit stands on either side. -/
def pointedText (digits : List Char) (point : Int) : List Char :=
  let zeros (n : Int) := List.replicate n.toNat '0'
  let fraction := zeros (-point) ++ digits.drop point.toNat
  let whole := if 0 < point then digits.take point.toNat ++ zeros (point - digits.length) else ['0']
  whole ++ '.' :: (if fraction.isEmpty then ['0'] else fraction)

def exponentText (e : Int) : List Char :=
  'e' :: (if e < 0 then '-' else '+') :: Text.padded 2 e.natAbs

/-- From 0.0001 up to 10 ^ 16 a number is written without an exponent. -/
def finiteText (digits : List Char) (point : Int) : List Char :=
  if -4 < point ∧ point ≤ 16 then pointedText digits point
  else match digits with
    | [] => []
    | [d] => d :: exponentText (point - 1)
    | d :: ds => d :: '.' :: ds ++ exponentText (point - 1)

def decimalText : Decimal → List Char
  | .nan => "NaN".toList
  | .infinite neg => (if neg then "-Infinity" else "Infinity").toList
  | .finite neg n e =>
    let sign := if neg then ['-'] else []
    let all := Nat.toDigits 10 n
    let digits := (all.reverse.dropWhile (· == '0')).reverse
    sign ++ if n = 0 then ['0', '.', '0'] else finiteText digits (all.length + e)

variable (l : Layout)

mutual

def text : Json → List Char
  | null => "null".toList
  | bool true => "true".toList
  | bool false => "false".toList
  | int n => intText n
  | decimal d => decimalText d
  | str s => stringText s
  | arr vs => '[' :: itemsText vs ++ [']']
  | obj ms => '{' :: membersText ms ++ ['}']

def itemsText : List Json → List Char
  | [] => []
  | [v] => text v
  | v :: vs => text v ++ l.item.toList ++ itemsText vs

def membersText : List (String × Json) → List Char
  | [] => []
  | [(k, v)] => stringText k ++ l.member.toList ++ text v
  | (k, v) :: ms => stringText k ++ l.member.toList ++ text v ++ l.item.toList ++ membersText ms

end

def render (j : Json) : String := String.ofList (text l j)

end PreviewApps.Json
