import PreviewApps.Cluster.ReadBack
import PreviewApps.Manifest.Deployment

/-! Finding, stopping and scaling the services of a cluster. -/

namespace PreviewApps.Cluster

def readServices (deployments : List Json) : Except Fault (List Service) := do
  let services ← deployments.mapM serviceOf
  pure (services.filterMap id)

/-- All services by the spelling of their application. -/
def services : Program (List (AppName × List Service)) := do
  let found ← .must .listAllDeployments (.listEverywhere .deployments Label.appName)
  let services ← .ofExcept (readServices found.items)
  pure (Assoc.groupBy (·.app) services)

def servicesOf (app : AppName) : Program (List Service) := do
  let call := .list .deployments app.namespaceId (Labels.ofApp app).selector
  match ← .may [404] (.listDeployments app.value) call with
  | none => pure []
  | some found => .ofExcept (readServices found.items)

def configsOf (app : AppName) : Program (List ServiceConfig) := do
  let all ← services
  let own := (all.lookup app).getD []
  pure ((own.filter (·.isCopied)).map (·.config))

/-- Deletes the namespace if there is anything in it to stop. -/
def stop (app : AppName) : Program (List Service) := do
  let stopped ← servicesOf app
  if stopped.isEmpty then pure []
  else do
    let ns := app.namespaceId
    discard <| .may [404] (.deleteNamespace ns) (.delete .namespaces "" ns)
    pure stopped

def replicasFor : ServiceStatus → Int
  | .running => 1
  | .paused => 0

def setStatus (app : AppName) (service : String) (status : ServiceStatus) :
    Program (Option Service) := do
  let all ← servicesOf app
  match all.find? (·.name == service) with
  | none => pure none
  | some s => do
    let body := Deployment.replicasPatch app s.config (replicasFor status)
    let call := .patch .deployments app.namespaceId (app.deploymentName s.name) body
    match ← .may [404] (.scale service) call with
    | none => pure none
    | some stored => .ofExcept (serviceOf stored)

end PreviewApps.Cluster
