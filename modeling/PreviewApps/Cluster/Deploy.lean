import PreviewApps.Cluster.ReadBack
import PreviewApps.Manifest.Routing
import PreviewApps.Manifest.Secret
import PreviewApps.Manifest.Support
import PreviewApps.Traefik.Conversion

/-!
Deploying a unit: the namespace, the pull secret, and for each service its files, claims,
deployment, service and routes, in this order. An object is created first and updated only if it
exists.
-/

namespace PreviewApps.Cluster

inductive UpdateMode
  | patch
  | replace

def updateCall : UpdateMode → Kind → String → String → Json → Call
  | .patch => .patch
  | .replace => .replace

def upsert (mode : UpdateMode) (kind : Kind) (namespaceId name : String) (body : Json)
    (creating updating : Action) : Program Json :=
  .call (.create kind namespaceId body) fun
    | .ok j => pure j
    | .error e =>
      if e.status = 409 then .must updating (updateCall mode kind namespaceId name body)
      else .throw (.api creating e)

def upsertObject (mode : UpdateMode) (kind : Kind) (namespaceId name : String) (body : Json) :
    Program Json :=
  upsert mode kind namespaceId name body (.create kind namespaceId name)
    (.update kind namespaceId name)

def upsertNamespace (settings : Settings) (app : AppName) : Program Unit := do
  let n := NamespaceManifest.ofApp app settings
  discard <| upsert .patch .namespaces "" n.name n.toJson (.createNamespace n.name)
    (.updateNamespace n.name)

/-- The pull secret cannot be changed, so an old one is deleted first. -/
def replacePullSecret (u : DeploymentUnit) : Program Unit := do
  let s := Secret.forImagePull u.app u.credentials
  discard <| .may [404] (.deleteSecret s.namespaceId s.name) (.delete .secrets s.namespaceId s.name)
  discard <| .must (.create .secrets s.namespaceId s.name) (.create .secrets s.namespaceId s.toJson)

/-- A stored route that cannot be used counts as none. -/
def baseRoute (settings : Settings) : Program (Option IngressRoute) :=
  match settings.runtime.baseIngressRoute with
  | none => pure none
  | some r => do
    match ← .may [404] .readBaseRoute (.get .ingressRoutes r.namespaceId r.name) with
    | none => pure none
    | some j => pure (Traefik.convertJson j).toOption

def storageTypeLabel (claim : Json) : Except Fault Json := do
  match claim with
  | .obj ms => do
    let labels ← membersOf (member "labels" (← membersOf (member "metadata" ms)))
    pure (member Label.storageType labels)
  | _ => .error .malformed

/-- Takes a claim up if it is the first one of its storage type. -/
def collectClaim (m : List (String × Json)) (claim : Json) :
    Except Fault (List (String × Json)) := do
  match ← storageTypeLabel claim with
  | .str type => pure (Assoc.insertNew type claim m)
  | _ => pure m

/-- The first claim of every storage type. -/
def claimsByType (claims : List Json) : Except Fault (List (String × Json)) :=
  claims.foldlM collectClaim []

/-- A created claim must come back with metadata. -/
def checkCreated (claim : Json) : Except Fault Json :=
  match claim.member? "metadata" with
  | none => .error .missingMember
  | some (.obj _) => .ok claim
  | some _ => .error .malformed

def assignClaims (app : AppName) (service : String) (storage : StorageConfig) :
    List String → List (String × Json) → Program (List (String × Json))
  | [], _ => pure []
  | path :: paths, byType => do
    let manifest := ClaimManifest.ofVolume app service storage.size storage.className path
    let type := ClaimManifest.storageTypeOf path
    let claim ← match byType.lookup type with
      | some claim => pure claim
      | none => do
        let created ← Program.must (.createClaim path)
          (.create .claims app.namespaceId manifest.toJson)
        .ofExcept (checkCreated created)
    let rest ← assignClaims app service storage paths (Assoc.insertNew type claim byType)
    pure ((path, claim) :: rest)

/-- A claim for every declared volume, by path: an existing one of its storage type or a new one. -/
def claimsFor (settings : Settings) (app : AppName) (s : DeployableService) :
    Program (List (String × Json)) :=
  match settings.runtime.storage with
  | none => pure []
  | some storage =>
    if s.declaredVolumes.isEmpty then pure []
    else do
      let selector := (Labels.ofNamed app s.name).selector
      let found ← .must (.listClaims app.namespaceId) (.list .claims app.namespaceId selector)
      let byType ← .ofExcept (claimsByType found.items)
      assignClaims app s.name storage s.declaredVolumes byType

def readClaims (claims : List (String × Json)) : Except Fault (List (String × Claim)) :=
  claims.mapM fun (path, j) => match Claim.ofJson? j with
    | some c => .ok (path, c)
    | none => .error .malformed

def upsertFiles (app : AppName) (s : DeployableService) : Program Unit :=
  if s.files.isEmpty then pure ()
  else do
    let m := Secret.ofFiles app s.config
    discard <| upsertObject .patch .secrets m.namespaceId m.name m.toJson

def upsertMiddleware (app : AppName) (m : Traefik.MiddlewareResource) : Program Unit := do
  discard <| upsertObject .patch .middlewares app.namespaceId (m.metadata.name.getD "") m.toJson

/-- The service with its route behind the base route, if there is one. -/
def placedBehind (base : Option IngressRoute) (s : DeployableService) : DeployableService :=
  { s with route := (base.map s.route.behind).getD s.route }

def upsertIngressRoute (app : AppName) (s : DeployableService) : Program Unit :=
  match Traefik.ingressRoute? app s with
  | none => .throw (.unrouted s.name app.value)
  | some r => discard <| upsertObject .patch .ingressRoutes app.namespaceId
      (app.ingressRouteName s.name) r.toJson

def upsertRoutes (app : AppName) (s : DeployableService) (base : Option IngressRoute) :
    Program Unit :=
  if s.route.isEmpty then pure ()
  else do
    let s := placedBehind base s
    (Traefik.middlewares app s).forM (upsertMiddleware app)
    upsertIngressRoute app s

def deployService (settings : Settings) (container : ContainerConfig) (now : Timestamp)
    (app : AppName) (usePullSecret : Bool) (base : Option IngressRoute) (s : DeployableService) :
    Program (Option Service) := do
  upsertFiles app s
  let claims ← claimsFor settings app s
  let claims ← .ofExcept (readClaims claims)
  let d := Deployment.ofService app s container usePullSecret claims now
  let stored ← upsertObject .replace .deployments d.namespaceId d.name d.toJson
  let m := ServiceManifest.ofConfig app s.config
  discard <| upsertObject .patch .services m.namespaceId m.name m.toJson
  upsertRoutes app s base
  .ofExcept (serviceOf stored)

/-- A stored deployment that cannot be read back as a service is answered by `none`. -/
def deploy (settings : Settings) (container : ContainerConfig) (now : Timestamp)
    (u : DeploymentUnit) : Program (List (Option Service)) := do
  upsertNamespace settings u.app
  if u.needsPullSecret then replacePullSecret u
  let base ← baseRoute settings
  u.services.mapM (deployService settings container now u.app u.needsPullSecret base)

end PreviewApps.Cluster
