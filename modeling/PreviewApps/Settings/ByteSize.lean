import PreviewApps.Binary64
import PreviewApps.Json.Schema
import PreviewApps.Text.Lowercase
import PreviewApps.Text.Word

/-!
Sizes in bytes. A text is a decimal with an optional unit; the decimal is rounded to double
precision, multiplied by the unit, rounded again and cut to a whole number. White space may stand
before the decimal, and any blanks before the unit.
-/

namespace PreviewApps.ByteSize

open Schema

/-- A unit of `bytes / per`; units of bits have eight to the byte. -/
structure Scale where
  bytes : Nat
  per : Nat

def decimalUnits : List (String × Nat) :=
  [("k", 3), ("m", 6), ("g", 9), ("t", 12), ("p", 15), ("e", 18)].map fun (u, e) =>
    (u, Nat.pow 10 e)

def binaryUnits : List (String × Nat) :=
  [("ki", 10), ("mi", 20), ("gi", 30), ("ti", 40), ("pi", 50), ("ei", 60)].map fun (u, e) =>
    (u, Nat.pow 2 e)

def units : List (String × Scale) :=
  [("b", ⟨1, 1⟩), ("bit", ⟨1, 8⟩)]
    ++ decimalUnits.flatMap (fun (u, n) => [(u, ⟨n, 1⟩), (u ++ "b", ⟨n, 1⟩), (u ++ "bit", ⟨n, 8⟩)])
    ++ binaryUnits.flatMap (fun (u, n) => [(u ++ "b", ⟨n, 1⟩), (u ++ "bit", ⟨n, 8⟩)])

/-- Digits with at most one point, which digits must follow; given as numerator and denominator. -/
def decimal? (cs : List Char) : Option ((Nat × Nat) × List Char) :=
  let whole := cs.takeWhile Text.isDigit
  let rest := cs.dropWhile Text.isDigit
  let fraction := match rest with
    | '.' :: r => r.takeWhile Text.isDigit
    | _ => []
  if fraction.isEmpty then
    if whole.isEmpty then none else some ((value whole, 1), rest)
  else
    let n := fraction.length
    some ((value (whole ++ fraction), Nat.pow 10 n), rest.drop (n + 1))
where value (ds : List Char) : Nat := Text.natOfDigitValues (ds.filterMap Text.digitValue?)

def scaled (value : Nat × Nat) (s : Scale) : Nat :=
  let (n, d) := Binary64.nearest value.1 value.2
  let (n, d) := Binary64.nearest (n * s.bytes) (d * s.per)
  n / d

def unitText (cs : List Char) : List Char := (cs.dropWhile Text.isBlank).takeWhile Text.isWord

def parse (cs : List Char) : Checked Nat :=
  match decimal? (cs.dropWhile Text.isSpace) with
  | none => match Text.parseWhole? cs with
    | some n => if n < 0 then fail .byteSize else ok n.toNat
    | none => fail .byteSize
  | some (value, rest) => match Text.parseInt? cs with
    | some n => ok n.toNat
    | none =>
      let unit := unitText rest
      if unit.isEmpty then ok (scaled value ⟨1, 1⟩)
      else match units.lookup (Text.lower (String.ofList unit)) with
        | some s => ok (scaled value s)
        | none => fail .byteSizeUnit
where
  fail := Checked.fail
  ok := Checked.ok

def decode : Decoder Nat
  | .str s => parse s.toList
  | j => match integer j with
    | .ok n => if n < 0 then .fail .byteSize else .ok n.toNat
    | .failed _ => .fail .byteSize

end PreviewApps.ByteSize
