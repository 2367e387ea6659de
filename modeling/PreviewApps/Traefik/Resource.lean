import PreviewApps.Json.Schema

/-!
Custom resources of the proxy: ingress routes and middlewares. Reading drops unknown fields and
fills in defaults; writing leaves out what is unset.
-/

namespace PreviewApps.Traefik

open Schema

def group : String := "traefik.containo.us"

def version : String := "v1alpha1"

def apiVersion : String := group ++ "/" ++ version

structure ObjectMeta where
  name : Option String
  namespaceId : Option String
  labels : Option (List (String × String))
  annotations : Option (List (String × String))
  deriving DecidableEq

structure RuleService where
  kind : Option String
  name : String
  port : Option Int
  deriving DecidableEq

structure RuleSpec where
  kind : String
  matchText : String
  services : List RuleService
  middlewares : Option (List String)
  deriving DecidableEq

/-- A section of its own, which may lack a resolver. -/
structure Tls where
  certResolver : Option String
  deriving DecidableEq

structure IngressRouteSpec where
  entryPoints : Option (List String)
  routes : Option (List RuleSpec)
  tls : Option Tls
  deriving DecidableEq

structure IngressRouteResource where
  apiVersion : String
  kind : String
  metadata : ObjectMeta
  spec : IngressRouteSpec
  deriving DecidableEq

structure MiddlewareResource where
  apiVersion : String
  kind : String
  metadata : ObjectMeta
  spec : List (String × Json)

def strings (xs : List String) : Json := .arr (xs.map .str)

namespace ObjectMeta

def decode : Decoder ObjectMeta := object fun ms =>
  mk <$> withDefault ["name"] none (optional string) ms
    <*> withDefault ["namespace"] none (optional string) ms
    <*> withDefault ["labels"] none (optional (map string)) ms
    <*> withDefault ["annotations"] none (optional (map string)) ms

def toJson (m : ObjectMeta) : Json := .record
  [("name", m.name.map .str), ("namespace", m.namespaceId.map .str),
    ("labels", m.labels.map .ofMap), ("annotations", m.annotations.map .ofMap)]

end ObjectMeta

namespace RuleService

def decode : Decoder RuleService := object fun ms =>
  mk <$> withDefault ["kind"] (some "Service") (optional string) ms
    <*> required ["name"] string ms
    <*> withDefault ["port"] none (optional integer) ms

def toJson (s : RuleService) : Json := .record
  [("kind", s.kind.map .str), ("name", some (.str s.name)), ("port", s.port.map .int)]

end RuleService

namespace RuleSpec

def decodeMiddleware : Decoder String := object fun ms => required ["name"] string ms

def decode : Decoder RuleSpec := object fun ms =>
  mk <$> withDefault ["kind"] "Rule" string ms
    <*> required ["match"] string ms
    <*> withDefault ["services"] [] (list RuleService.decode) ms
    <*> withDefault ["middlewares"] none (optional (list decodeMiddleware)) ms

def toJson (r : RuleSpec) : Json := .record
  [("kind", some (.str r.kind)), ("match", some (.str r.matchText)),
    ("services", some (.arr (r.services.map (·.toJson)))),
    ("middlewares", r.middlewares.map fun ms => .arr (ms.map fun m => .obj [("name", .str m)]))]

end RuleSpec

namespace Tls

def decode : Decoder Tls := object fun ms =>
  mk <$> withDefault ["certResolver", "cert_resolver"] none (optional string) ms

def toJson (t : Tls) : Json := .record [("certResolver", t.certResolver.map .str)]

end Tls

namespace IngressRouteSpec

def decode : Decoder IngressRouteSpec := object fun ms =>
  mk <$> withDefault ["entryPoints", "entry_points"] none (optional (list string)) ms
    <*> withDefault ["routes"] none (optional (list RuleSpec.decode)) ms
    <*> withDefault ["tls"] none (optional Tls.decode) ms

def toJson (s : IngressRouteSpec) : Json := .record
  [("entryPoints", s.entryPoints.map strings),
    ("routes", s.routes.map fun rs => .arr (rs.map (·.toJson))), ("tls", s.tls.map (·.toJson))]

end IngressRouteSpec

def decodeApiVersion (ms : List (String × Json)) : Checked String :=
  withDefault ["apiVersion", "api_version"] apiVersion string ms

namespace IngressRouteResource

def decode : Decoder IngressRouteResource := object fun ms =>
  mk <$> decodeApiVersion ms
    <*> withDefault ["kind"] "IngressRoute" string ms
    <*> required ["metadata"] ObjectMeta.decode ms
    <*> required ["spec"] IngressRouteSpec.decode ms

def toJson (r : IngressRouteResource) : Json := .obj
  [("apiVersion", .str r.apiVersion), ("kind", .str r.kind), ("metadata", r.metadata.toJson),
    ("spec", r.spec.toJson)]

end IngressRouteResource

namespace MiddlewareResource

def decode : Decoder MiddlewareResource := object fun ms =>
  mk <$> decodeApiVersion ms
    <*> withDefault ["kind"] "Middleware" string ms
    <*> required ["metadata"] ObjectMeta.decode ms
    <*> required ["spec"] anyMap ms

def toJson (r : MiddlewareResource) : Json := .obj
  [("apiVersion", .str r.apiVersion), ("kind", .str r.kind), ("metadata", r.metadata.toJson),
    ("spec", .obj r.spec)]

end MiddlewareResource

end PreviewApps.Traefik
