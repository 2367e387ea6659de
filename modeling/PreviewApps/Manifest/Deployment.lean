import PreviewApps.Manifest.Volume
import PreviewApps.Settings.Basic

/-!
The deployment of a service: one pod with one container, whose template carries the annotations of
the redeployment strategy.
-/

namespace PreviewApps

structure Container where
  name : String
  image : String
  port : Int
  env : Option (List (String × String))
  mounts : List VolumeMount
  memoryLimit : Option Nat

structure Deployment where
  name : String
  namespaceId : String
  labels : Labels
  annotations : List (String × String)
  podAnnotations : List (String × String)
  container : Container
  volumes : List Volume
  pullSecret : Option String

namespace Container

def limitsJson (memory : Nat) : Json :=
  .obj [("limits", .obj [("memory", .str (toString memory))])]

def envJson (env : List (String × String)) : Json :=
  .arr (env.map fun (k, v) => .obj [("name", .str k), ("value", .str v)])

def toJson (c : Container) : Json := .record
  [("name", some (.str c.name)), ("image", some (.str c.image)),
    ("imagePullPolicy", some (.str "Always")),
    ("ports", some (.arr [.obj [("containerPort", .int c.port)]])),
    ("env", c.env.map envJson),
    ("volumeMounts", Json.nonempty (fun ms => .arr (ms.map (·.toJson))) c.mounts),
    ("resources", c.memoryLimit.map limitsJson)]

end Container

namespace Deployment

def podSpec (d : Deployment) : Json := .record
  [("containers", some (.arr [d.container.toJson])),
    ("volumes", Json.nonempty (fun vs => .arr (vs.map (·.toJson))) d.volumes),
    ("imagePullSecrets", d.pullSecret.map fun n => .arr [.obj [("name", .str n)]])]

def toJson (d : Deployment) : Json := .obj
  [("apiVersion", .str "apps/v1"), ("kind", .str "Deployment"),
    ("metadata", .obj
      [("name", .str d.name), ("namespace", .str d.namespaceId), ("labels", .ofMap d.labels),
        ("annotations", .ofMap d.annotations)]),
    ("spec", .obj
      [("replicas", .int 1), ("selector", .obj [("matchLabels", .ofMap d.labels)]),
        ("template", .obj
          [("metadata", .obj
            [("labels", .ofMap d.labels), ("annotations", .ofMap d.podAnnotations)]),
            ("spec", d.podSpec)])])]

/-- The claims of the declared volumes that have one, in order. -/
def claimsOf (s : DeployableService) (claims : List (String × Claim)) : List (String × Claim) :=
  s.declaredVolumes.filterMap fun path => (claims.lookup path).map fun c => (path, c)

def annotationsOf (config : ServiceConfig) : List (String × String) :=
  match config.env.bind (·.replicaAnnotation?) with
  | some text => [(Label.image, config.image), (Label.replicatedEnv, text)]
  | none => [(Label.image, config.image)]

def volumesOf (app : AppName) (s : DeployableService) (claims : List (String × Claim)) :
    List Volume :=
  ((claimsOf s claims).map (·.2.volume)).foldl Volume.addTo
    (s.files.volumes (app.secretName s.name))

def mountsOf (s : DeployableService) (claims : List (String × Claim)) : List VolumeMount :=
  s.files.mounts ++ (claimsOf s claims).map fun (path, c) => c.mount path

def ofService (app : AppName) (s : DeployableService) (container : ContainerConfig)
    (usePullSecret : Bool) (claims : List (String × Claim)) (now : Timestamp) : Deployment :=
  { name := app.deploymentName s.name
    namespaceId := app.namespaceId
    labels := s.labels app
    annotations := annotationsOf s.config
    podAnnotations := s.strategy.podAnnotations now
    container :=
      { name := s.name
        image := s.config.image
        port := s.config.port
        env := s.config.env.map fun env => env.map fun v => (v.key, v.value)
        mounts := mountsOf s claims
        memoryLimit := container.memoryLimit }
    volumes := volumesOf app s claims
    pullSecret := if usePullSecret then some app.pullSecretName else none }

/-- A patch of the replica count alone. -/
def replicasPatch (app : AppName) (config : ServiceConfig) (replicas : Int) : Json :=
  let labels := Labels.ofService app config.serviceName config.containerType
  .obj
    [("apiVersion", .str "apps/v1"), ("kind", .str "Deployment"),
      ("metadata", .obj
        [("name", .str (app.deploymentName config.serviceName)),
          ("namespace", .str app.namespaceId), ("labels", .ofMap labels)]),
      ("spec", .obj
        [("replicas", .int replicas), ("selector", .obj [("matchLabels", .ofMap labels)])])]

end Deployment

end PreviewApps
