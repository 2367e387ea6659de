import PreviewApps.Route
import PreviewApps.Rule.Parser
import PreviewApps.Traefik.Resource

/-!
Reading a stored ingress route back as a route. The object may have been edited by hand, so it is
taken only if every part of it makes sense; middlewares become references.
-/

namespace PreviewApps.Traefik

inductive ConversionError
  | malformed (failures : List Schema.Failure)
  | noRoutes (name : Option String)
  | invalidRule (name : Option String) (text : String) (cause : Rule.ParseError)

def shownName (name : Option String) : String := "IngressRoute " ++ name.getD "None"

def ConversionError.message : ConversionError → String
  | malformed _ => "Not an IngressRoute"
  | noRoutes name => shownName name ++ " does not declare any route"
  | invalidRule name text cause =>
    shownName name ++ " has an invalid rule: " ++ cause.message text

def convertRule (name : Option String) (r : RuleSpec) : Except ConversionError Route :=
  match Rule.parse r.matchText with
  | .ok rule => .ok ⟨rule, (r.middlewares.getD []).map .ref⟩
  | .error e => .error (.invalidRule name r.matchText e)

def convert (r : IngressRouteResource) : Except ConversionError IngressRoute :=
  match r.spec.routes.getD [] with
  | [] => .error (.noRoutes r.metadata.name)
  | rs => do
    let routes ← rs.mapM (convertRule r.metadata.name)
    pure ⟨routes, r.spec.entryPoints.getD [], r.spec.tls.bind (·.certResolver)⟩

def convertJson (j : Json) : Except ConversionError IngressRoute :=
  match IngressRouteResource.decode j with
  | .ok r => convert r
  | .failed fs => .error (.malformed fs)

end PreviewApps.Traefik
