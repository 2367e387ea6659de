import PreviewApps.DeploymentUnit
import PreviewApps.Text.Base64

/-! Secrets: the files of a service, and the credentials with which its image is pulled. -/

namespace PreviewApps

structure Secret where
  name : String
  namespaceId : String
  labels : Labels
  type : String
  immutable : Bool
  data : List (String × String)

namespace Secret

def toJson (s : Secret) : Json := .record
  [("apiVersion", some (.str "v1")), ("kind", some (.str "Secret")),
    ("metadata", some (.obj
      [("name", .str s.name), ("namespace", .str s.namespaceId), ("labels", .ofMap s.labels)])),
    ("immutable", if s.immutable then some (.bool true) else none),
    ("type", some (.str s.type)), ("data", some (.ofMap s.data))]

/-- Of files with one key the last in path order counts. -/
def fileData (files : Files) : List (String × String) :=
  Assoc.ofList (files.sorted.map fun (p, content) => (p.secretKey, Base64.ofText content))

def ofFiles (app : AppName) (config : ServiceConfig) : Secret :=
  { name := app.secretName config.serviceName
    namespaceId := app.namespaceId
    labels := .ofService app config.serviceName config.containerType
    type := "Opaque"
    immutable := false
    data := fileData (config.files.getD []) }

def credentialsJson (c : Credentials) : Json :=
  .obj [("username", .str c.username), ("password", .str c.password)]

/-- All registries in the order of their hosts. -/
def dockerConfig (credentials : RegistryCredentials) : Json :=
  .obj [("auths", .obj ((Text.sortBy (·.1) credentials).map fun (h, c) => (h, credentialsJson c)))]

def forImagePull (app : AppName) (credentials : RegistryCredentials) : Secret :=
  { name := app.pullSecretName
    namespaceId := app.namespaceId
    labels := .ofApp app
    type := "kubernetes.io/dockerconfigjson"
    immutable := true
    data := [(".dockerconfigjson",
      Base64.ofText ((dockerConfig credentials).render .spaced))] }

end Secret

end PreviewApps
