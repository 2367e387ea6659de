import PreviewApps.DeploymentUnit
import PreviewApps.Rule.Printer
import PreviewApps.Traefik.Resource

/-! The custom resources that make the proxy find a service. -/

namespace PreviewApps.Traefik

def ruleSpec (s : DeployableService) (r : Route) : RuleSpec :=
  { kind := "Rule"
    matchText := r.rule.render
    services := [⟨some "Service", s.name, some s.config.port⟩]
    middlewares := some (r.middlewares.map (·.objectName)) }

def tlsOf (resolver : Option String) : Option Tls :=
  if resolver.getD "" = "" then none else some ⟨resolver⟩

/-- Nothing for a service without routes. -/
def ingressRoute? (app : AppName) (s : DeployableService) : Option IngressRouteResource :=
  if s.route.isEmpty then none
  else some
    { apiVersion := Traefik.apiVersion
      kind := "IngressRoute"
      metadata :=
        ⟨some (app.ingressRouteName s.name), some app.namespaceId, some (s.labels app), none⟩
      spec :=
        { entryPoints := if s.route.entryPoints.isEmpty then none else some s.route.entryPoints
          routes := some (s.route.routes.map (ruleSpec s))
          tls := tlsOf s.route.certResolver } }

/-- One object for every inline middleware of the routes. -/
def middlewares (app : AppName) (s : DeployableService) : List MiddlewareResource :=
  s.route.inlineMiddlewares.map fun m =>
    { apiVersion := Traefik.apiVersion
      kind := "Middleware"
      metadata :=
        ⟨some m.objectName, some app.namespaceId, some (Labels.ofNamed app s.name), none⟩
      spec := m.spec.getD [] }

end PreviewApps.Traefik
