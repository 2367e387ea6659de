import PreviewApps.DeploymentUnit

/-!
A backend that keeps deployed services in memory. Applications are kept by namespace, so spellings
that share one are the same application, shown under the spelling deployed last.
-/

namespace PreviewApps.Memory

structure App where
  spelling : AppName
  services : List (String × Service)

/-- Identifiers are numbered from one. -/
structure Backend where
  apps : List (String × App)
  issued : Nat

namespace Backend

def empty : Backend := ⟨[], 0⟩

def services (b : Backend) : List (AppName × List Service) :=
  (b.apps.filter fun e => !e.2.services.isEmpty).map fun e =>
    (e.2.spelling, e.2.services.map (·.2))

def configsOf (app : AppName) (b : Backend) : List ServiceConfig :=
  (((b.services.lookup app).getD []).filter (·.isCopied)).map (·.config)

def start (app : AppName) (now : Timestamp) : Nat → List DeployableService → List Service
  | _, [] => []
  | n, s :: ss =>
    { id := "#" ++ toString (n + 1)
      app
      config := s.config
      status := .running
      startedAt := some now } :: start app now (n + 1) ss

/-- A service of the same name is replaced in its place. -/
def deploy (u : DeploymentUnit) (now : Timestamp) (b : Backend) : List Service × Backend :=
  let started := start u.app now b.issued u.services
  let key := u.app.namespaceId
  let old := ((b.apps.lookup key).map (·.services)).getD []
  let services := started.foldl (fun m s => Assoc.insert s.name s m) old
  (started,
    { apps := Assoc.insert key ⟨u.app, services⟩ b.apps, issued := b.issued + started.length })

def stop (app : AppName) (b : Backend) : List Service × Backend :=
  match b.apps.lookup app.namespaceId with
  | none => ([], b)
  | some a => (a.services.map (·.2), { b with apps := Assoc.erase app.namespaceId b.apps })

def setStatus (app : AppName) (service : String) (status : ServiceStatus) (b : Backend) :
    Option Service × Backend :=
  match b.apps.lookup app.namespaceId with
  | none => (none, b)
  | some a => match a.services.lookup service with
    | none => (none, b)
    | some s =>
      let s := { s with status }
      let a := { a with services := Assoc.insert service s a.services }
      (some s, { b with apps := Assoc.insert app.namespaceId a b.apps })

end Backend

end PreviewApps.Memory
