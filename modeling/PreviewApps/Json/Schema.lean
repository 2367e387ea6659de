import PreviewApps.Json.Basic
import PreviewApps.Text.Numeral

/-!
Decoding JSON by a schema. A decoder reports every mismatch, each with the keys and indexes that
lead to it, in the order in which the schema lists its fields.
-/

namespace PreviewApps

inductive Mismatch
  | missing
  | notString
  | notInteger
  | integerText
  | integerFraction
  | integerSize
  | notFinite
  | notList
  | notMap
  | notObject
  | notMember
  | byteSize
  | byteSizeUnit
  deriving DecidableEq

namespace Schema

inductive Step
  | key (name : String)
  | index (i : Nat)
  deriving DecidableEq

structure Failure where
  location : List Step
  cause : Mismatch
  deriving DecidableEq

inductive Checked (α : Type)
  | ok (a : α)
  | failed (fs : List Failure)

abbrev Decoder (α : Type) := Json → Checked α

namespace Checked

def fail (m : Mismatch) : Checked α := failed [⟨[], m⟩]

def seq (f : Checked (α → β)) (x : Checked α) : Checked β :=
  match f, x with
  | ok f, ok a => ok (f a)
  | failed fs, failed gs => failed (fs ++ gs)
  | failed fs, ok _ => failed fs
  | ok _, failed gs => failed gs

instance : Applicative Checked where
  pure := ok
  seq f x := seq f (x ())

/-- Puts a step before the location of every failure. -/
def under (s : Step) : Checked α → Checked α
  | ok a => ok a
  | failed fs => failed (fs.map fun f => { f with location := s :: f.location })

end Checked

open Checked

def string : Decoder String
  | .str s => ok s
  | _ => fail .notString

/-- A decimal counts as an integer if it has no fraction and 64 bits hold it. -/
def integerOfDecimal : Decimal → Checked Int
  | .finite neg n e => match (Decimal.finite neg n e).toInt? with
    | some n => if n.natAbs < 9223372036854775808 then ok n else fail .integerSize
    | none => fail .integerFraction
  | _ => fail .notFinite

def integer : Decoder Int
  | .int n => ok n
  | .bool b => ok (if b then 1 else 0)
  | .decimal d => integerOfDecimal d
  | .str s => match Text.parseWhole? s.toList with
    | some n => ok n
    | none => fail .integerText
  | _ => fail .notInteger

def optional (d : Decoder α) : Decoder (Option α)
  | .null => ok none
  | j => some <$> d j

def listFrom (d : Decoder α) : Nat → List Json → Checked (List α)
  | _, [] => ok []
  | i, v :: vs => List.cons <$> (d v).under (.index i) <*> listFrom d (i + 1) vs

def list (d : Decoder α) : Decoder (List α)
  | .arr vs => listFrom d 0 vs
  | _ => fail .notList

def mapFrom (d : Decoder α) : List (String × Json) → Checked (List (String × α))
  | [] => ok []
  | (k, v) :: ms => List.cons <$> (Prod.mk k <$> (d v).under (.key k)) <*> mapFrom d ms

def map (d : Decoder α) : Decoder (List (String × α))
  | .obj ms => mapFrom d ms
  | _ => fail .notMap

/-- The members of an object, unchecked. -/
def anyMap : Decoder (List (String × Json))
  | .obj ms => ok ms
  | _ => fail .notMap

def object (f : List (String × Json) → Checked α) : Decoder α
  | .obj ms => f ms
  | _ => fail .notObject

/-- The value under the first of the names that is present; the first name is the usual one. -/
def find (names : List String) (ms : List (String × Json)) : Option (String × Json) :=
  names.findSome? fun n => (ms.lookup n).map fun v => (n, v)

def required (names : List String) (d : Decoder α) (ms : List (String × Json)) : Checked α :=
  match find names ms with
  | some (n, v) => (d v).under (.key n)
  | none => (fail .missing).under (.key (names.headD ""))

def withDefault (names : List String) (default : α) (d : Decoder α) (ms : List (String × Json)) :
    Checked α :=
  match find names ms with
  | some (n, v) => (d v).under (.key n)
  | none => ok default

end Schema

end PreviewApps
