import PreviewApps.DeploymentUnit
import PreviewApps.Json.Shown

/-!
Volumes of a pod: one of the file secret for every directory with configured files, and one for
every claim of persistent storage.
-/

namespace PreviewApps

structure VolumeItem where
  key : String
  path : String
  deriving DecidableEq

/-- The name of a claim stands as the server has given it. -/
inductive VolumeSource
  | secret (name : String) (items : List VolumeItem)
  | claim (name : Json)

structure Volume where
  name : String
  source : VolumeSource

structure VolumeMount where
  name : String
  path : String
  deriving DecidableEq

namespace VolumeItem

def ofPath (p : Path) : VolumeItem := ⟨p.secretKey, p.name⟩

def toJson (i : VolumeItem) : Json := .obj [("key", .str i.key), ("path", .str i.path)]

end VolumeItem

def VolumeSource.toJson : VolumeSource → String × Json
  | secret name items =>
    ("secret", .obj [("secretName", .str name), ("items", .arr (items.map (·.toJson)))])
  | claim name => ("persistentVolumeClaim", .obj [("claimName", name)])

namespace Volume

def toJson (v : Volume) : Json := .obj [("name", .str v.name), v.source.toJson]

/-- Adds a volume unless one of that name is there already. -/
def addTo (vs : List Volume) (v : Volume) : List Volume :=
  if vs.any (·.name == v.name) then vs else vs ++ [v]

end Volume

def VolumeMount.toJson (m : VolumeMount) : Json :=
  .obj [("name", .str m.name), ("mountPath", .str m.path)]

namespace Files

/-- The paths of every directory in the order of their texts. -/
def byParent (files : Files) : List (Path × List Path) :=
  Text.sortBy (·.1.toString) (Assoc.groupBy Path.parent (files.sorted.map (·.1)))

def volumes (secretName : String) (files : Files) : List Volume :=
  files.byParent.map fun (parent, paths) =>
    ⟨parent.volumeName, .secret secretName (paths.map .ofPath)⟩

def mounts (files : Files) : List VolumeMount :=
  files.byParent.map fun (parent, _) => ⟨parent.volumeName, parent.toString⟩

end Files

/-- A claim as a pod refers to it; an unlabelled one has the default storage type. -/
structure Claim where
  storageType : String
  name : Json

namespace Claim

def storageTypeOf? : Json → Option String
  | .obj ls => some (((ls.lookup Label.storageType).map Json.shown).getD "default")
  | j => if j.truthy then none else some "default"

def ofMetadata? (metadata : Json) : Option Claim := do
  let ms ← metadata.obj?
  let storageType ← storageTypeOf? ((ms.lookup "labels").getD .null)
  some ⟨storageType, (ms.lookup "name").getD (.str "")⟩

/-- A claim without metadata is taken as an empty one. -/
def ofJson? (claim : Json) : Option Claim := do
  let ms ← claim.obj?
  ofMetadata? ((ms.lookup "metadata").getD (.obj []))

def volumeName (c : Claim) : String := c.storageType ++ "-volume"

def volume (c : Claim) : Volume := ⟨c.volumeName, .claim c.name⟩

def mount (c : Claim) (path : String) : VolumeMount := ⟨c.volumeName, path⟩

end Claim

end PreviewApps
