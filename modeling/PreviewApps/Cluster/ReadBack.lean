import PreviewApps.Cluster.Program
import PreviewApps.Json.Reader
import PreviewApps.Labels
import PreviewApps.Time.Iso

/-!
Services as deployments show them. A deployment without a valid application label, a service label
or a known container type is not a service of this system.
-/

namespace PreviewApps.Cluster

/-- The members of an object, where every empty value counts as an empty object. -/
def membersOf (j : Json) : Except Fault (List (String × Json)) :=
  match j with
  | .obj ms => .ok ms
  | j => if j.truthy then .error .malformed else .ok []

def member (key : String) (ms : List (String × Json)) : Json := (ms.lookup key).getD .null

/-- A list of anything, where every empty value counts as an empty list. -/
def listOf (j : Json) : Except Fault (List Json) :=
  match j with
  | .arr vs => .ok vs
  | j => if j.truthy then .error .malformed else .ok []

/-- The members of the first object of a list; an object has no first one. -/
def firstOf (j : Json) : Except Fault (Option (List (String × Json))) :=
  match j with
  | .obj (_ :: _) => .error .missingMember
  | j => do
    match ← listOf j with
    | [] => pure none
    | .obj ms :: _ => pure (some ms)
    | _ => .error .malformed

def replicaDetails (annotations : List (String × Json)) : Json :=
  match annotations.lookup Label.replicatedEnv with
  | some (.str text) => (Json.parse? text).getD (.obj [])
  | _ => .obj []

def envVarOf (details entry : Json) : Except Fault EnvVar :=
  match entry with
  | .obj ms => do
    let key := (member "name" ms).str?
    let all ← match details with
      | .obj ds => .ok ds
      | _ => .error .malformed
    let own ← match (key.bind fun k => all.lookup k).getD (.obj []) with
      | .obj ds => .ok ds
      | _ => .error .malformed
    .ok
      { key := key.getD ""
        value := (member "value" ms).str?.getD ""
        templated := (member "templated" own).truthy
        replicate := (member "replicate" own).truthy }
  | _ => .error .malformed

def environmentOf (container annotations : List (String × Json)) :
    Except Fault (Option Environment) :=
  match member "env" container with
  | .null => .ok none
  | env => do
    let entries ← listOf env
    let vars ← entries.mapM (envVarOf (replicaDetails annotations))
    pure (some vars)

/-- The port of the first entry; 80 where the container names none. -/
def portOf (container : List (String × Json)) : Except Fault Int := do
  let first ← firstOf (member "ports" container)
  pure ((first.bind fun ms => (member "containerPort" ms).int?).getD 80)

def containerOf (spec : List (String × Json)) : Except Fault (List (String × Json)) := do
  let template ← membersOf (member "template" spec)
  let pod ← membersOf (member "spec" template)
  let first ← firstOf (member "containers" pod)
  pure (first.getD [])

def imageOf (annotations container : List (String × Json)) : String :=
  match annotations.lookup Label.image with
  | some j => j.str?.getD ""
  | none => (member "image" container).str?.getD ""

/-- Writes the zone `Z` as an offset. -/
def spellZone (s : String) : List Char :=
  s.toList.flatMap fun c => if c = 'Z' then "+00:00".toList else [c]

def startOf (metadata : List (String × Json)) : Except Fault (Option Timestamp) :=
  match member "creationTimestamp" metadata with
  | .str s => match Iso.timestamp (spellZone s) with
    | some t => .ok (some t)
    | none => .error .impossibleTime
  | _ => .ok none

def identityOf (metadata : List (String × Json)) : String :=
  let uid := member "uid" metadata
  ((if uid.truthy then uid else member "name" metadata).str?).getD ""

def containerTypeOf? (labels : List (String × Json)) : Option ContainerType :=
  match labels.lookup Label.containerType with
  | none => some .standalone
  | some j => j.str?.bind ContainerType.ofLabel?

/-- The application, service and container type that the labels name. -/
def ownerOf? (labels : List (String × Json)) : Option (AppName × String × ContainerType) := do
  let app ← AppName.ofString? ((member Label.appName labels).str?.getD "")
  let service ← (member Label.serviceName labels).str?
  if service.isEmpty then none
  let type ← containerTypeOf? labels
  some (app, service, type)

def serviceOf (deployment : Json) : Except Fault (Option Service) :=
  match deployment with
  | .obj ms => do
    let metadata ← membersOf (member "metadata" ms)
    let labels ← membersOf (member "labels" metadata)
    match ownerOf? labels with
    | none => pure none
    | some (app, serviceName, containerType) => do
      let spec ← membersOf (member "spec" ms)
      let container ← containerOf spec
      let port ← portOf container
      let annotations ← membersOf (member "annotations" metadata)
      let env ← environmentOf container annotations
      let startedAt ← startOf metadata
      let image := imageOf annotations container
      pure (some
        { id := identityOf metadata
          app
          config := { serviceName, image, env, files := none, port, containerType }
          status := if (member "replicas" spec).isZero then .paused else .running
          startedAt })
  | _ => .error .malformed

end PreviewApps.Cluster
