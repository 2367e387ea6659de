/-! Base64 with padding, written and read in groups of three bytes. -/

namespace PreviewApps.Base64

def alphabet : List Char :=
  "ABCDEFGHIJKLMNOPQRSTUVWXYZabcdefghijklmnopqrstuvwxyz0123456789+/".toList

def symbol (n : Nat) : Char := alphabet.getD n '='

def sextet? (c : Char) : Option Nat := alphabet.findIdx? (· == c)

def encode : List UInt8 → List Char
  | a :: b :: c :: r =>
    let n := a.toNat * 65536 + b.toNat * 256 + c.toNat
    symbol (n / 262144) :: symbol (n / 4096 % 64) :: symbol (n / 64 % 64) :: symbol (n % 64)
      :: encode r
  | [a, b] =>
    let n := a.toNat * 256 + b.toNat
    [symbol (n / 1024), symbol (n / 16 % 64), symbol (n % 16 * 4), '=']
  | [a] => [symbol (a.toNat / 4), symbol (a.toNat % 4 * 16), '=', '=']
  | [] => []

def decode : List Char → Option (List UInt8)
  | [] => some []
  | [w, x, '=', '='] => do
    let w ← sextet? w
    let x ← sextet? x
    some [UInt8.ofNat (w * 4 + x / 16)]
  | [w, x, y, '='] => do
    let w ← sextet? w
    let x ← sextet? x
    let y ← sextet? y
    let n := w * 1024 + x * 16 + y / 4
    some [UInt8.ofNat (n / 256), UInt8.ofNat (n % 256)]
  | w :: x :: y :: z :: r => do
    let w ← sextet? w
    let x ← sextet? x
    let y ← sextet? y
    let z ← sextet? z
    let n := w * 262144 + x * 4096 + y * 64 + z
    let rest ← decode r
    some (UInt8.ofNat (n / 65536) :: UInt8.ofNat (n / 256 % 256) :: UInt8.ofNat (n % 256) :: rest)
  | _ => none

def ofText (s : String) : String := String.ofList (encode s.toUTF8.data.toList)

def toText? (s : String) : Option String := do
  let bytes ← decode s.toList
  String.fromUTF8? ⟨bytes.toArray⟩

end PreviewApps.Base64
