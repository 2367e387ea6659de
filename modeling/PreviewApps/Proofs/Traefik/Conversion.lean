import PreviewApps.Manifest.Routing
import PreviewApps.Proofs.Except
import PreviewApps.Proofs.Rule.RoundTrip
import PreviewApps.Proofs.Traefik.Resource
import PreviewApps.Traefik.Conversion

/-!
Routes from their own manifests. What is read back is the same route with references in place of
middlewares, and a service with that route has the very same manifest.
-/

namespace PreviewApps

def Route.referring (r : Route) : Route :=
  ⟨r.rule, r.middlewares.map fun m => .ref m.objectName⟩

namespace IngressRoute

/-- The route as the objects of a cluster know it; an empty resolver is none. -/
def referring (r : IngressRoute) : IngressRoute where
  routes := r.routes.map (·.referring)
  entryPoints := r.entryPoints
  certResolver := if r.certResolver.getD "" = "" then none else r.certResolver

def Legible (r : IngressRoute) : Prop :=
  ∀ s ∈ r.routes, ∀ m ∈ s.rule.matchers,
    m.1 ∈ Rule.knownMatchers ∧ m.2 ≠ [] ∧ ∀ a ∈ m.2, Rule.backtick ∉ a.toList

theorem isEmpty_referring (r : IngressRoute) : r.referring.isEmpty = r.isEmpty := by
  simp [isEmpty, referring]

theorem Legible.parse_render {r : IngressRoute} (h : r.Legible) {s : Route} (hs : s ∈ r.routes) :
    Rule.parse s.rule.render = .ok s.rule :=
  Rule.Legible.parse_render (h s hs)

end IngressRoute

namespace Traefik

theorem tlsOf_bind (resolver : Option String) :
    (tlsOf resolver).bind (·.certResolver) = if resolver.getD "" = "" then none else resolver := by
  unfold tlsOf
  split <;> rfl

theorem tlsOf_referring (r : IngressRoute) :
    tlsOf r.referring.certResolver = tlsOf r.certResolver := by
  unfold tlsOf IngressRoute.referring
  by_cases h : r.certResolver.getD "" = "" <;> simp [h]

theorem ruleSpec_referring (s : DeployableService) (r : Route) :
    ruleSpec s r.referring = ruleSpec s r := by
  simp [ruleSpec, Route.referring, Middleware.objectName, Middleware.isRef, Middleware.ref]

theorem convertRule_ruleSpec (name : Option String) (s : DeployableService) {r : Route}
    (h : Rule.parse r.rule.render = .ok r.rule) :
    convertRule name (ruleSpec s r) = .ok r.referring := by
  simp [convertRule, ruleSpec, Route.referring, h]

theorem mapM_convertRule (name : Option String) {s : DeployableService} (h : s.route.Legible) :
    (s.route.routes.map (ruleSpec s)).mapM (convertRule name) = .ok s.route.referring.routes := by
  have hrules : ∀ r ∈ s.route.routes, convertRule name (ruleSpec s r) = .ok r.referring := by
    intro r hr
    exact convertRule_ruleSpec name s (h.parse_render hr)
  rw [List.mapM_map]
  exact mapM_eq_ok hrules

theorem convert_of_routes {r : IngressRouteResource} {routes : List Route}
    (hne : r.spec.routes.getD [] ≠ [])
    (hroutes : (r.spec.routes.getD []).mapM (convertRule r.metadata.name) = .ok routes) :
    convert r =
      .ok ⟨routes, r.spec.entryPoints.getD [], r.spec.tls.bind (·.certResolver)⟩ := by
  unfold convert
  split
  · next hnil => exact absurd hnil hne
  · rw [hroutes]
    rfl

theorem routes_of_convert {r : IngressRouteResource} {b : IngressRoute} (h : convert r = .ok b) :
    r.spec.routes.getD [] ≠ [] ∧
      (r.spec.routes.getD []).mapM (convertRule r.metadata.name) = .ok b.routes := by
  unfold convert at h
  split at h
  · cases h
  · next hne =>
    obtain ⟨routes, hroutes, hb⟩ := bind_eq_ok_iff.1 h
    cases hb
    exact ⟨hne, hroutes⟩

theorem exists_of_convertJson {j : Json} {b : IngressRoute} (h : convertJson j = .ok b) :
    ∃ r, IngressRouteResource.decode j = .ok r ∧ convert r = .ok b := by
  unfold convertJson at h
  split at h
  · next r hr => exact ⟨r, hr, h⟩
  · cases h

theorem middlewares_of_convertRule {name : Option String} {r : RuleSpec} {b : Route}
    (h : convertRule name r = .ok b) : b.middlewares = (r.middlewares.getD []).map .ref := by
  unfold convertRule at h
  split at h
  · cases h
    rfl
  · cases h

theorem isRef_of_convert {r : IngressRouteResource} {b : IngressRoute} (h : convert r = .ok b) :
    ∀ m ∈ b.middlewares, m.isRef := by
  obtain ⟨-, hroutes⟩ := routes_of_convert h
  intro m hm
  obtain ⟨route, hroute, hm⟩ := List.mem_flatMap.1 hm
  obtain ⟨rule, -, hrule⟩ := exists_mem_of_mapM_eq_ok hroutes route hroute
  rw [middlewares_of_convertRule hrule] at hm
  obtain ⟨name, -, rfl⟩ := List.mem_map.1 hm
  rfl

theorem isRef_of_convertJson {j : Json} {b : IngressRoute} (h : convertJson j = .ok b) :
    ∀ m ∈ b.middlewares, m.isRef := by
  obtain ⟨r, -, hr⟩ := exists_of_convertJson h
  exact isRef_of_convert hr

theorem getD_entryPoints (es : List String) :
    (if es.isEmpty then none else some es).getD [] = es := by
  cases es <;> rfl

theorem exists_ingressRoute? (app : AppName) {s : DeployableService}
    (hroute : s.route.isEmpty = false) :
    ∃ r, ingressRoute? app s = some r ∧ r.metadata.namespaceId = some app.namespaceId ∧
      r.spec =
        { entryPoints := if s.route.entryPoints.isEmpty then none else some s.route.entryPoints
          routes := some (s.route.routes.map (ruleSpec s))
          tls := tlsOf s.route.certResolver } := by
  unfold ingressRoute?
  rw [hroute]
  exact ⟨_, rfl, rfl, rfl⟩

theorem ingressRoute?_referring (app : AppName) (s : DeployableService) :
    ingressRoute? app { s with route := s.route.referring } = ingressRoute? app s := by
  have hrules : s.route.referring.routes.map (ruleSpec { s with route := s.route.referring }) =
      s.route.routes.map (ruleSpec s) := by
    simp only [IngressRoute.referring, List.map_map]
    exact List.map_congr_left fun r _ => ruleSpec_referring s r
  unfold ingressRoute?
  simp only [IngressRoute.isEmpty_referring, tlsOf_referring, hrules]
  rfl

/-- Reading the manifest of a route gives the route with references, and that route has the same
manifest. -/
theorem convertJson_ingressRoute {app : AppName} {s : DeployableService}
    (hroute : s.route.isEmpty = false) (hlegible : s.route.Legible) :
    ∃ r, ingressRoute? app s = some r ∧ convertJson r.toJson = .ok s.route.referring ∧
      ingressRoute? app { s with route := s.route.referring } = some r := by
  obtain ⟨r, hr, -, hspec⟩ := exists_ingressRoute? app hroute
  refine ⟨r, hr, ?_, (ingressRoute?_referring app s).trans hr⟩
  have hkinds : ∀ rs ∈ r.spec.routes, ∀ rule ∈ rs, ∀ service ∈ rule.services,
      service.kind ≠ none := by
    simp [hspec, ruleSpec]
  have hne : s.route.routes.map (ruleSpec s) ≠ [] := by
    simpa [IngressRoute.isEmpty] using hroute
  have hconvert : convert r = .ok s.route.referring := by
    have hrules : (r.spec.routes.getD []).mapM (convertRule r.metadata.name) =
        .ok s.route.referring.routes := by
      simpa [hspec] using mapM_convertRule r.metadata.name hlegible
    rw [convert_of_routes (by simpa [hspec] using hne) hrules]
    simp only [hspec, getD_entryPoints, tlsOf_bind]
    rfl
  unfold convertJson
  simp only [IngressRouteResource.decode_toJson hkinds, hconvert]

def blogRoute : IngressRoute where
  routes :=
    [⟨.and (.or (.matcher "Host" ["a", "b"]) (.not (.matcher "Method" ["PUT"])))
        (.pathPrefix ["x"]), [.ref "Auth", ⟨"Strip", some (IngressRoute.stripPrefix "/x/")⟩]⟩,
      ⟨.matcher "Path" ["/blog"], []⟩]
  entryPoints := ["web", "websecure"]
  certResolver := some ""

def blogService : DeployableService where
  config := ⟨"blog", "docker.io/library/blog:2", none, none, 8080, .replica⟩
  strategy := .never
  route := blogRoute
  declaredVolumes := []

theorem convertJson_blogRoute :
    (blogService.route.isEmpty = false ∧ blogService.route.Legible) ∧
      ∃ r, ingressRoute? .master blogService = some r ∧
        convertJson r.toJson = .ok blogService.route.referring ∧
        ingressRoute? .master { blogService with route := blogService.route.referring } =
          some r := by
  have hroute : blogService.route.isEmpty = false := rfl
  have hlegible : blogService.route.Legible := by
    unfold IngressRoute.Legible
    decide +kernel
  exact ⟨⟨hroute, hlegible⟩, convertJson_ingressRoute hroute hlegible⟩

example : blogService.route.referring.certResolver = none ∧
    (blogService.route.referring.middlewares.map (·.objectName)) = ["Auth", "strip"] := by
  decide +kernel

end Traefik

end PreviewApps
