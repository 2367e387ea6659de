import PreviewApps.Json.Reader
import PreviewApps.Settings.Basic

/-!
Settings from environment variables. The name of a variable is the path of a setting in any case,
its steps divided by `__`; values of groups are JSON, and a variable of a setting overrides the JSON
of a group around it. Given values override variables member by member.
-/

namespace PreviewApps.Settings

open Schema (Failure)

/-- A group whose value may be plain text as well is lenient. -/
inductive Shape
  | leaf
  | group (lenient : Bool) (fields : List (String × Shape))

namespace Shape

def fields : Shape → List (String × Shape)
  | leaf => []
  | .group _ fs => fs

def annotations : Shape := .group false [("namespace", .group false [])]

def runtime : Shape := .group false
  [("type", leaf), ("annotations", annotations),
    ("storage", .group true [("storage_size", leaf), ("storage_class", leaf)]),
    ("base_ingress_route", .group true [("namespace", leaf), ("name", leaf)])]

def container : Shape := .group false [("memory_limit", leaf)]

def registries : Shape := .group false [("username", leaf), ("password", leaf)]

end Shape

inductive LoadError
  | unreadable
  | invalid (failures : List Failure)

abbrev Variables := List (String × String)

def lowered (vars : Variables) : Variables :=
  Assoc.ofList (vars.map fun (k, v) => (Text.lower k, v))

def variableStem : String := "preview_"

/-- The pieces between pairs of low lines. -/
def steps : List Char → List (List Char)
  | [] => [[]]
  | '_' :: '_' :: r => [] :: steps r
  | c :: r => match steps r with
    | p :: ps => (c :: p) :: ps
    | [] => [[c]]

def below? (field name : String) : Option (List String) :=
  let stem := (variableStem ++ field ++ "__").toList
  if stem.isPrefixOf name.toList then
    some ((steps (name.toList.drop stem.length)).map String.ofList)
  else none

def shapeAt (s : Option Shape) (path : List String) : Option Shape :=
  path.foldl (fun s k => s.bind (·.fields.lookup k)) s

/-- Sets a member deep inside an object; what is not an object is left alone. -/
def setAt (v : Json) : List String → Json → Json
  | [], j => j
  | [k], .obj ms => .obj (Assoc.insert k v ms)
  | k :: ks, .obj ms => .obj (Assoc.insert k (setAt v ks ((ms.lookup k).getD (.obj []))) ms)
  | _, j => j

def nestedValue (isTable : Bool) (shape : Option Shape) (text : String) : Except LoadError Json :=
  let lenient := match shape with
    | some (.group lenient _) => some lenient
    | some .leaf => none
    | none => if isTable then some true else none
  match lenient, Json.parse? text with
  | none, _ => .ok (.str text)
  | some _, some j => .ok j
  | some l, none => if l || text.isEmpty then .ok (.str text) else .error .unreadable

def nested (field : String) (shape : Shape) (isTable : Bool) (vars : Variables) :
    Except LoadError Json :=
  vars.foldlM (fun j (name, text) =>
    match below? field name with
    | none => .ok j
    | some path => do
      let v ← nestedValue isTable (shapeAt (some shape) path) text
      pure (setAt v path j)) (.obj [])

mutual

/-- Objects are overridden member by member, anything else as a whole. -/
def override (base : Json) : Json → Json
  | .obj ms => match base with
    | .obj bs => .obj (overrideMembers bs ms)
    | _ => .obj ms
  | .null => .null
  | .bool b => .bool b
  | .int n => .int n
  | .decimal d => .decimal d
  | .str s => .str s
  | .arr vs => .arr vs

def overrideMembers (base : List (String × Json)) : List (String × Json) → List (String × Json)
  | [] => base
  | (k, v) :: ms =>
    let v := match base.lookup k with
      | some b => override b v
      | none => v
    overrideMembers (Assoc.insert k v base) ms

end

def fieldNamed? (fields : List (String × Shape)) (key : String) : Option (String × Shape) :=
  fields.find? fun f => Text.lower f.1 == Text.lower key

mutual

/-- Gives members the spelling of the field that they name in any case, within strict groups. -/
def respell (shape : Shape) : Json → Json
  | .obj ms => match shape with
    | .group false fields => .obj (Assoc.ofList (respellMembers fields ms))
    | _ => .obj ms
  | j => j

def respellMembers (fields : List (String × Shape)) : List (String × Json) → List (String × Json)
  | [] => []
  | (k, v) :: ms =>
    let member := match fieldNamed? fields k with
      | some (name, shape) => (name, respell shape v)
      | none => (k, v)
    member :: respellMembers fields ms

end

/-- The value that the variables give to a group; `null` gives none. -/
def groupValue (field : String) (shape : Shape) (isTable : Bool) (vars : Variables) :
    Except LoadError (Option Json) := do
  let inner ← nested field shape isTable vars
  match vars.lookup (variableStem ++ field) with
  | none => pure (if inner.truthy then some inner else none)
  | some text => match Json.parse? text with
    | none => .error .unreadable
    | some (.obj ms) => pure (some (override (.obj ms) inner))
    | some .null => pure none
    | some j => pure (some j)

def ofVariables (vars : Variables) : Except LoadError Json := do
  let vars := lowered vars
  let runtime ← groupValue "runtime" .runtime false vars
  let container ← groupValue "container" .container false vars
  let registries ← groupValue "registries" .registries true vars
  let text (field : String) := (vars.lookup (variableStem ++ field)).map Json.str
  pure (.record
    [("runtime", runtime.map (respell .runtime)),
      ("container", container.map (respell .container)), ("registries", registries),
      ("kubeconfig", text "kubeconfig"), ("kube_context", text "kube_context")])

def load (given : List (String × Json)) (vars : Variables) : Except LoadError Settings := do
  let fromVariables ← ofVariables vars
  match Settings.decode (override fromVariables (.obj given)) with
  | .ok s => pure s
  | .failed fs => .error (.invalid fs)

end PreviewApps.Settings
