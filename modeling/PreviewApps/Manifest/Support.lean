import PreviewApps.DeploymentUnit
import PreviewApps.Manifest.Deployment

/-! The objects around a deployment: its namespace, the service in front of it and its claims. -/

namespace PreviewApps

structure NamespaceManifest where
  name : String
  labels : Labels
  annotations : List (String × String)

namespace NamespaceManifest

def ofApp (app : AppName) (settings : Settings) : NamespaceManifest :=
  ⟨app.namespaceId, .ofApp app, settings.namespaceAnnotations⟩

def toJson (n : NamespaceManifest) : Json := .obj
  [("apiVersion", .str "v1"), ("kind", .str "Namespace"),
    ("metadata", .record
      [("name", some (.str n.name)), ("labels", some (.ofMap n.labels)),
        ("annotations", Json.nonempty .ofMap n.annotations)])]

end NamespaceManifest

/-- It is named like the deployed service, so that pods of the namespace find it by that name. -/
structure ServiceManifest where
  name : String
  namespaceId : String
  labels : Labels
  port : Int

namespace ServiceManifest

def ofConfig (app : AppName) (config : ServiceConfig) : ServiceManifest :=
  { name := config.serviceName
    namespaceId := app.namespaceId
    labels := .ofService app config.serviceName config.containerType
    port := config.port }

def toJson (s : ServiceManifest) : Json := .obj
  [("apiVersion", .str "v1"), ("kind", .str "Service"),
    ("metadata", .obj
      [("name", .str s.name), ("namespace", .str s.namespaceId), ("labels", .ofMap s.labels)]),
    ("spec", .obj
      [("ports", .arr
        [.obj [("name", .str s.name), ("targetPort", .int s.port), ("port", .int s.port)]]),
        ("selector", .ofMap s.labels)])]

end ServiceManifest

/-- The API server completes the name, so claims are found again by their labels. -/
structure ClaimManifest where
  nameStem : String
  namespaceId : String
  labels : Labels
  size : Int
  className : String

namespace ClaimManifest

/-- The last segment of the path. -/
def storageTypeOf (path : String) : String :=
  let segments := (Text.pieces '/' path.toList).filter (!·.isEmpty)
  (segments.getLast?.map String.ofList).getD "default"

def ofVolume (app : AppName) (service : String) (size : Int) (className path : String) :
    ClaimManifest :=
  { nameStem := app.claimNameStem service
    namespaceId := app.namespaceId
    labels := .ofNamed app service ++ [(Label.storageType, storageTypeOf path)]
    size
    className }

def toJson (c : ClaimManifest) : Json := .obj
  [("apiVersion", .str "v1"), ("kind", .str "PersistentVolumeClaim"),
    ("metadata", .obj
      [("generateName", .str c.nameStem), ("namespace", .str c.namespaceId),
        ("labels", .ofMap c.labels)]),
    ("spec", .obj
      [("storageClassName", .str c.className),
        ("accessModes", .arr [.str "ReadWriteOnce"]),
        ("resources", .obj [("requests", .obj [("storage", .str (toString c.size))])])])]

end ClaimManifest

end PreviewApps
