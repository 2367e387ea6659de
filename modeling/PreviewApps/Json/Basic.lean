import PreviewApps.Assoc

/-!
JSON values. Whole numbers have no size limit, other numbers are decimals with the digits they were
written with, and members stay in the order of their first appearance.
-/

namespace PreviewApps

/-- A finite decimal stands for `digits * 10 ^ exponent`. -/
inductive Decimal
  | finite (negative : Bool) (digits : Nat) (exponent : Int)
  | infinite (negative : Bool)
  | nan
  deriving DecidableEq

inductive Json
  | null
  | bool (b : Bool)
  | int (n : Int)
  | decimal (d : Decimal)
  | str (s : String)
  | arr (items : List Json)
  | obj (members : List (String × Json))

namespace Decimal

/-- The decimal that is read where only double precision is kept: beyond its range it is infinite,
and too close to zero it is zero. -/
def bounded (negative : Bool) (digits : Nat) (exponent : Int) : Decimal :=
  let size : Int := (Nat.toDigits 10 digits).length + exponent
  if digits = 0 ∨ size < -330 then finite negative 0 0
  else if 310 < size then infinite negative
  else
    let num := digits * Nat.pow 10 exponent.toNat
    let den := Nat.pow 10 (-exponent).toNat
    if (Nat.pow 2 1024 - Nat.pow 2 970) * den ≤ num then infinite negative
    else if num * Nat.pow 2 1075 ≤ den then finite negative 0 0
    else finite negative digits exponent

def isZero : Decimal → Bool
  | finite _ n _ => n == 0
  | _ => false

/-- The value as a whole number, if it has no fraction. -/
def toInt? : Decimal → Option Int
  | finite neg n e =>
    let sign : Int := if neg then -1 else 1
    if 0 ≤ e then some (sign * (n * Nat.pow 10 e.toNat : Nat))
    else if n % Nat.pow 10 (-e).toNat = 0 then some (sign * (n / Nat.pow 10 (-e).toNat : Nat))
    else none
  | _ => none

end Decimal

namespace Json

instance : Inhabited Json := ⟨null⟩

def members : Json → List (String × Json)
  | obj ms => ms
  | _ => []

def member? (key : String) (j : Json) : Option Json := j.members.lookup key

/-- The member, or `null` if there is none. -/
def get (key : String) (j : Json) : Json := (j.member? key).getD null

def path (keys : List String) (j : Json) : Json := keys.foldl (fun v k => v.get k) j

def isNull : Json → Bool
  | null => true
  | _ => false

def str? : Json → Option String
  | str s => some s
  | _ => none

def int? : Json → Option Int
  | int n => some n
  | _ => none

def obj? : Json → Option (List (String × Json))
  | obj ms => some ms
  | _ => none

def items : Json → List Json
  | arr vs => vs
  | _ => []

/-- False for `null`, `false`, zero and everything empty. -/
def truthy : Json → Bool
  | null => false
  | bool b => b
  | int n => n != 0
  | decimal d => !d.isZero
  | str s => !s.isEmpty
  | arr vs => !vs.isEmpty
  | obj ms => !ms.isEmpty

/-- Whether the value is the number zero; `false` counts as zero. -/
def isZero : Json → Bool
  | bool b => !b
  | int n => n == 0
  | decimal d => d.isZero
  | _ => false

def ofOption (f : α → Json) : Option α → Json
  | some a => f a
  | none => null

def ofMap (m : List (String × String)) : Json := obj (m.map fun (k, v) => (k, str v))

/-- A value for a list that is not empty. -/
def nonempty (f : List α → Json) (xs : List α) : Option Json :=
  if xs.isEmpty then none else some (f xs)

/-- An object with the members that are present. -/
def record (fields : List (String × Option Json)) : Json :=
  obj (fields.filterMap fun (k, v) => v.map fun v => (k, v))

end Json

end PreviewApps
