import PreviewApps.Cluster.Program
import PreviewApps.Json.MergePatch
import PreviewApps.Text.Digit
import PreviewApps.Text.Split

/-!
An API server in memory: objects by kind, namespace and name, in the order of their creation.
Creating an object that exists is a conflict, patches are merge patches, and deleting a namespace
removes everything in it.
-/

namespace PreviewApps.Cluster

structure Key where
  kind : Kind
  namespaceId : String
  name : String
  deriving DecidableEq

/-- The counter numbers the attempts to create an object. -/
structure Server where
  objects : List (Key × Json)
  counter : Nat

namespace Server

def empty : Server := ⟨[], 0⟩

def text (j : Json) : String := (j.str?).getD ""

def keyOf (kind : Kind) (body : Json) : Key :=
  ⟨kind, text (body.path ["metadata", "namespace"]), text (body.path ["metadata", "name"])⟩

def put (kind : Kind) (body : Json) (s : Server) : Server :=
  { s with objects := Assoc.insert (keyOf kind body) body s.objects }

def notFound : ApiError := ⟨404, some "Not Found"⟩

def conflict : ApiError := ⟨409, some "Conflict"⟩

def withMetadata (entries : List (String × Json)) (body : Json) : Json :=
  let metadata := entries.foldl (fun m e => Assoc.insert e.1 e.2 m) (body.get "metadata").members
  .obj (Assoc.insert "metadata" (.obj metadata) body.members)

/-- A generated name ends in the counter with five digits. -/
def nameFor (counter : Nat) (body : Json) : String :=
  match body.path ["metadata", "generateName"] with
  | .str stem => stem ++ String.ofList (Text.padded 5 counter)
  | _ => text (body.path ["metadata", "name"])

def create (kind : Kind) (namespaceId : String) (body : Json) (s : Server) : Answer × Server :=
  let n := s.counter + 1
  let name := nameFor n body
  let key := Key.mk kind namespaceId name
  let s := { s with counter := n }
  if (s.objects.lookup key).isSome then (.error conflict, s)
  else
    let body := withMetadata
      [("name", .str name), ("uid", .str ("uid-" ++ toString n)),
        ("creationTimestamp", .str "2024-01-01T10:00:00Z")] body
    (.ok body, { s with objects := s.objects ++ [(key, body)] })

/-- Applies a change to an object in its place. -/
def change (key : Key) (f : Json → Json) (s : Server) : Answer × Server :=
  match s.objects.lookup key with
  | none => (.error notFound, s)
  | some old => (.ok (f old), { s with objects := Assoc.insert key (f old) s.objects })

/-- What the server has assigned stays with the object. -/
def keepAssigned (old body : Json) : Json :=
  withMetadata (["uid", "creationTimestamp"].filterMap fun k =>
    ((old.get "metadata").member? k).map fun v => (k, v)) body

def remove (key : Key) (s : Server) : Answer × Server :=
  match s.objects.lookup key with
  | none => (.error notFound, s)
  | some old =>
    let rest := Assoc.erase key s.objects
    let rest := if key.kind = .namespaces then
        rest.filter fun e => e.1.namespaceId != key.name
      else rest
    (.ok old, { s with objects := rest })

/-- One requirement of a selector: a label with a value, or any value of a label. -/
def meets (labels : Json) (part : List Char) : Bool :=
  match Text.cutFirst '=' part with
  | some (k, v) => (labels.member? (String.ofList k)).bind (·.str?) == some (String.ofList v)
  | none => (labels.member? (String.ofList part)).isSome

def selects (selector : String) (body : Json) : Bool :=
  (Text.pieces ',' selector.toList).all (meets (body.path ["metadata", "labels"]))

def listed (p : Key → Bool) (selector : String) (s : Server) : Json :=
  .arr ((s.objects.filter fun e => p e.1 && selects selector e.2).map (·.2))

def logText (namespaceId name : String) (s : Server) : Json :=
  match s.objects.lookup ⟨.podLogs, namespaceId, name⟩ with
  | some body => body.get "log"
  | none => .str ""

def answer : Call → Server → Answer × Server
  | .create k ns body, s => s.create k ns body
  | .patch k ns n body, s => s.change ⟨k, ns, n⟩ (Json.mergePatch · body)
  | .replace k ns n body, s => s.change ⟨k, ns, n⟩ (keepAssigned · body)
  | .delete k ns n, s => s.remove ⟨k, ns, n⟩
  | .get k ns n, s => s.change ⟨k, ns, n⟩ id
  | .list k ns sel, s => (.ok (s.listed (fun e => e.kind = k ∧ e.namespaceId = ns) sel), s)
  | .listEverywhere k sel, s => (.ok (s.listed (fun e => e.kind = k) sel), s)
  | .podLog ns n _, s => (.ok (s.logText ns n), s)

end Server

end PreviewApps.Cluster
