import PreviewApps.AppName
import PreviewApps.Json.Basic
import PreviewApps.Rule.Basic

/-! Routes under which the proxy makes a service reachable. -/

namespace PreviewApps

/-- Without a specification a middleware refers to an object that exists already. -/
structure Middleware where
  name : String
  spec : Option (List (String × Json))

namespace Middleware

def ref (name : String) : Middleware := ⟨name, none⟩

def isRef (m : Middleware) : Bool := m.spec.isNone

/-- The name of the object: inline middlewares are named like applications, in lower case. -/
def objectName (m : Middleware) : String :=
  if m.isRef || !AppName.isValid m.name then m.name else Text.lower m.name

end Middleware

structure Route where
  rule : Rule
  middlewares : List Middleware

structure IngressRoute where
  routes : List Route
  entryPoints : List String
  certResolver : Option String

namespace IngressRoute

def empty : IngressRoute := ⟨[], [], none⟩

def ofRule (rule : Rule) : IngressRoute := ⟨[⟨rule, []⟩], [], none⟩

def stripPrefix (path : String) : List (String × Json) :=
  [("stripPrefix", .obj [("prefixes", .arr [.str path])])]

/-- Below `/app/service/`, which is taken off before a request reaches the service. -/
def ofService (app : AppName) (service : String) : IngressRoute :=
  let path := "/" ++ app.value ++ "/" ++ service ++ "/"
  let middleware := ⟨app.value ++ "-" ++ service ++ "-middleware", some (stripPrefix path)⟩
  ⟨[⟨Rule.pathPrefix [app.value, service], [middleware]⟩], [], none⟩

def ofExisting (entryPoints : List String) (rule : Rule) (middlewares : List String)
    (certResolver : Option String) : IngressRoute :=
  ⟨[⟨rule, middlewares.map .ref⟩], entryPoints, certResolver⟩

def isEmpty (r : IngressRoute) : Bool := r.routes.isEmpty

def middlewares (r : IngressRoute) : List Middleware := r.routes.flatMap (·.middlewares)

/-- Keeps the first middleware of every object name. -/
def distinct (seen : List String) : List Middleware → List Middleware
  | [] => []
  | m :: ms =>
    if seen.contains m.objectName then distinct seen ms
    else m :: distinct (m.objectName :: seen) ms

def inlineMiddlewares (r : IngressRoute) : List Middleware :=
  distinct [] (r.middlewares.filter (!·.isRef))

def addNew (xs : List String) (x : String) : List String := if xs.contains x then xs else xs ++ [x]

def resolverBehind (own base : Option String) : Option String :=
  if own.getD "" = "" then base else own

/-- Places the route behind the first route of `base`; a base without routes changes nothing. -/
def behind (r base : IngressRoute) : IngressRoute :=
  match base.routes with
  | [] => r
  | b :: _ =>
    { routes := r.routes.map fun s => ⟨b.rule.merge s.rule, b.middlewares ++ s.middlewares⟩
      entryPoints := r.entryPoints.foldl addNew base.entryPoints
      certResolver := resolverBehind r.certResolver base.certResolver }

end IngressRoute

end PreviewApps
