import PreviewApps.Json.Basic

/-!
Programs over the API of a cluster: trees of calls, where each call is followed by what depends on
its answer. Running one against a server gives its result and the server's last state.
-/

namespace PreviewApps.Cluster

inductive Kind
  | namespaces
  | secrets
  | services
  | deployments
  | claims
  | pods
  | podLogs
  | ingressRoutes
  | middlewares
  deriving DecidableEq

/-- Objects outside of namespaces have the empty namespace. -/
inductive Call
  | create (kind : Kind) (namespaceId : String) (body : Json)
  | patch (kind : Kind) (namespaceId name : String) (body : Json)
  | replace (kind : Kind) (namespaceId name : String) (body : Json)
  | delete (kind : Kind) (namespaceId name : String)
  | get (kind : Kind) (namespaceId name : String)
  | list (kind : Kind) (namespaceId selector : String)
  | listEverywhere (kind : Kind) (selector : String)
  | podLog (namespaceId name : String) (sinceSeconds : Option Int)

structure ApiError where
  status : Int
  reason : Option String
  deriving DecidableEq

/-- Lists are answered by arrays, and logs by strings. -/
abbrev Answer := Except ApiError Json

inductive Action
  | createNamespace (name : String)
  | updateNamespace (name : String)
  | deleteNamespace (name : String)
  | create (kind : Kind) (namespaceId name : String)
  | update (kind : Kind) (namespaceId name : String)
  | deleteSecret (namespaceId name : String)
  | listClaims (namespaceId : String)
  | createClaim (path : String)
  | listAllDeployments
  | listDeployments (app : String)
  | listPods (service : String)
  | readLogs (pod : String)
  | scale (service : String)
  | readBaseRoute

/-- What an answer of the wrong shape, or no answer at all, leads to. The last one is a fault of the
program itself, which asks for the manifest of a route only where there is one. -/
inductive Fault
  | api (action : Action) (cause : ApiError)
  | noConfiguration
  | malformed
  | missingMember
  | impossibleTime
  | unrouted (service app : String)

/-- The failures of a cluster that callers tell apart. -/
inductive FailureClass
  | notFound
  | conflict
  | other
  deriving DecidableEq

inductive Program (α : Type)
  | done (result : Except Fault α)
  | call (c : Call) (next : Answer → Program α)

namespace Program

def bind : Program α → (α → Program β) → Program β
  | done (.ok a), f => f a
  | done (.error e), _ => done (.error e)
  | call c next, f => call c fun a => (next a).bind f

instance : Monad Program where
  pure a := done (.ok a)
  bind := bind

def throw (e : Fault) : Program α := done (.error e)

def ofExcept (r : Except Fault α) : Program α := done r

/-- A call whose every failure is a fault. -/
def must (action : Action) (c : Call) : Program Json :=
  call c fun
    | .ok j => pure j
    | .error e => throw (.api action e)

/-- A call for which the given statuses count as no answer. -/
def may (absorbed : List Int) (action : Action) (c : Call) : Program (Option Json) :=
  call c fun
    | .ok j => pure (some j)
    | .error e => if absorbed.contains e.status then pure none else throw (.api action e)

def run (answer : Call → σ → Answer × σ) : Program α → σ → Except Fault α × σ
  | done r, s => (r, s)
  | call c next, s =>
    let (a, s) := answer c s
    run answer (next a) s

/-- Without a configured cluster the first call fails. -/
def runUnconfigured : Program α → Except Fault α
  | done r => r
  | call _ _ => .error .noConfiguration

end Program

namespace Kind

def label : Kind → String
  | namespaces => "namespace"
  | secrets => "secret"
  | services => "service"
  | deployments => "deployment"
  | claims => "persistent_volume_claim"
  | pods => "pod"
  | podLogs => "pod_log"
  | ingressRoutes => "ingressroutes"
  | middlewares => "middlewares"

def all : List Kind :=
  [namespaces, secrets, services, deployments, claims, pods, podLogs, ingressRoutes, middlewares]

def ofLabel? (s : String) : Option Kind := all.find? (·.label == s)

/-- Kinds that the proxy defines. -/
def isCustom (k : Kind) : Bool := k = ingressRoutes || k = middlewares

end Kind

def Action.text : Action → String
  | createNamespace n => "create namespace " ++ n
  | updateNamespace n => "update namespace " ++ n
  | deleteNamespace n => "delete namespace " ++ n
  | create k ns n => "create " ++ k.label ++ " " ++ ns ++ "/" ++ n
  | update k ns n => "update " ++ k.label ++ " " ++ ns ++ "/" ++ n
  | deleteSecret ns n => "delete secret " ++ ns ++ "/" ++ n
  | listClaims ns => "list volume claims of " ++ ns
  | createClaim path => "create volume claim for " ++ path
  | listAllDeployments => "list deployments"
  | listDeployments app => "list deployments of " ++ app
  | listPods s => "list pods of " ++ s
  | readLogs pod => "read logs of " ++ pod
  | scale s => "scale " ++ s
  | readBaseRoute => "read base ingress route"

def Fault.message : Fault → String
  | api action e =>
    "Failed to " ++ action.text ++ ": " ++ toString e.status ++ " " ++ e.reason.getD "None"
  | noConfiguration =>
    "Failed to load Kubernetes config: Invalid kube-config file. No configuration found."
  | malformed => "An answer is not an object where one is needed"
  | missingMember => "An answer lacks a member"
  | impossibleTime => "A timestamp is impossible"
  | unrouted service app => "Service " ++ service ++ " of " ++ app ++ " has no route"

def Fault.status? : Fault → Option Int
  | api _ e => some e.status
  | _ => none

def ApiError.failureClass (e : ApiError) : FailureClass :=
  if e.status = 404 then .notFound
  else if e.status = 409 then .conflict
  else .other

/-- Only failures of the cluster have a class. -/
def Fault.failureClass? : Fault → Option FailureClass
  | api _ e => some e.failureClass
  | noConfiguration => some .other
  | _ => none

end PreviewApps.Cluster
