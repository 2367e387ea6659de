/-!
Rounding to double precision: a fraction goes to the nearest number with 53 binary digits, and a
tie to the even one. Numerators and denominators stay exact; the exponent has no bounds.
-/

namespace PreviewApps.Binary64

def scaleUp (e : Int) (n : Nat) : Nat := n * Nat.pow 2 e.toNat

/-- The multiple of `2 ^ e` nearest to `num / den`, as a fraction. -/
def roundAt (e : Int) (num den : Nat) : Nat × Nat :=
  let d := scaleUp e den
  let n := scaleUp (-e) num
  let q := n / d
  let twice := 2 * (n % d)
  let q := if twice < d ∨ (twice = d ∧ q % 2 = 0) then q else q + 1
  (scaleUp e q, scaleUp (-e) 1)

def nearest (num den : Nat) : Nat × Nat :=
  if num = 0 ∨ den = 0 then (0, 1)
  else
    let e : Int := num.log2 - den.log2 - 52
    let e := if scaleUp (-e) num < Nat.pow 2 52 * scaleUp e den then e - 1 else e
    roundAt e num den

example : nearest 1 2 = (2 ^ 52, 2 ^ 53) := by decide

end PreviewApps.Binary64
