import PreviewApps.Proofs.Traefik.Inheritance

/-!
The middleware objects of a service against the references in its ingress route. Both manifests name
middlewares on their own; every inline middleware refers to an object that is written, each object
is written once, and a base route brings no objects.
-/

namespace PreviewApps.Traefik

def nameOf (resource : Json) : String := ((resource.path ["metadata", "name"]).str?).getD ""

def middlewareNames (rule : Json) : List String :=
  (rule.get "middlewares").items.map fun reference => ((reference.get "name").str?).getD ""

def writtenRules (app : AppName) (s : DeployableService) : List Json :=
  ((ingressRoute? app s).map (·.toJson.rules)).getD []

def references (app : AppName) (s : DeployableService) : List (Middleware × String) :=
  s.route.middlewares.zip ((writtenRules app s).flatMap middlewareNames)

theorem middlewareNames_ruleSpec (s : DeployableService) (r : Route) :
    middlewareNames (ruleSpec s r).toJson = r.middlewares.map (·.objectName) := by
  rw [middlewareNames, middlewares_toJson, List.map_map]
  exact List.map_id _

theorem writtenRules_eq (app : AppName) (s : DeployableService) :
    writtenRules app s = s.route.routes.map fun r => (ruleSpec s r).toJson := by
  cases hroute : s.route.isEmpty with
  | true =>
    rw [writtenRules, ingressRoute?, if_pos hroute, List.isEmpty_iff.1 hroute]
    rfl
  | false =>
    obtain ⟨r, hr, -, hspec⟩ := exists_ingressRoute? app hroute
    rw [writtenRules, hr, Option.map_some, Option.getD_some, rules_toJson, hspec, Option.getD_some,
      List.map_map]
    rfl

theorem references_eq (app : AppName) (s : DeployableService) :
    references app s = s.route.middlewares.map fun m => (m, m.objectName) := by
  have hnames : (writtenRules app s).flatMap middlewareNames =
      s.route.middlewares.map (·.objectName) := by
    simp only [writtenRules_eq, List.flatMap_map, middlewareNames_ruleSpec,
      IngressRoute.middlewares, List.map_flatMap]
  have hzip : (s.route.middlewares.map id).zip (s.route.middlewares.map (·.objectName)) =
      s.route.middlewares.map fun m => (m, m.objectName) := List.zip_map'
  rw [List.map_id] at hzip
  rw [references, hnames, hzip]

def inlineReferences (app : AppName) (s : DeployableService) : List (Middleware × String) :=
  (references app s).filter (!·.1.isRef)

theorem inlineReferences_eq (app : AppName) (s : DeployableService) : inlineReferences app s =
    (s.route.middlewares.filter (!·.isRef)).map fun m => (m, m.objectName) := by
  rw [inlineReferences, references_eq, List.filter_map]
  rfl

theorem forall₂_writtenRules (app : AppName) (s : DeployableService) :
    List.Forall₂ (fun r rule => (middlewareNames rule).length = r.middlewares.length)
      s.route.routes (writtenRules app s) := by
  rw [writtenRules_eq, List.forall₂_map_right_iff, List.forall₂_same]
  intro r _
  rw [middlewareNames_ruleSpec, List.length_map]

theorem nameOf_toJson (r : MiddlewareResource) : nameOf r.toJson = r.metadata.name.getD "" := by
  show ((r.metadata.toJson.get "name").str?).getD "" = _
  rw [Json.get, Json.member?, ObjectMeta.toJson, Json.lookup_record (by simp)]
  cases hname : r.metadata.name <;> simp [Json.str?]

theorem map_nameOf_middlewares (app : AppName) (s : DeployableService) :
    (middlewares app s).map (fun r => nameOf r.toJson) =
      s.route.inlineMiddlewares.map (·.objectName) := by
  rw [middlewares, List.map_map]
  exact List.map_congr_left fun m _ => nameOf_toJson _

theorem find?_inlineReferences {app : AppName} {s : DeployableService} {m : Middleware}
    (hm : m ∈ s.route.inlineMiddlewares) :
    (inlineReferences app s).find? (·.2 == m.objectName) = some (m, m.objectName) := by
  have hkept : m ∈ s.route.inlineMiddlewares.filter (·.objectName == m.objectName) :=
    List.mem_filter.2 ⟨hm, beq_self_eq_true _⟩
  rw [IngressRoute.filter_inlineMiddlewares, Option.mem_toList] at hkept
  rw [inlineReferences_eq, List.find?_map]
  change ((s.route.middlewares.filter _).find? (·.objectName == m.objectName)).map _ = _
  rw [hkept]
  rfl

theorem middlewares_placedBehind (app : AppName) (s : DeployableService) {base : Option IngressRoute}
    (hbase : ∀ b ∈ base, ∀ m ∈ b.middlewares, m.isRef) :
    middlewares app (Cluster.placedBehind base s) = middlewares app s := by
  have hinline : (Cluster.placedBehind base s).route.inlineMiddlewares = s.route.inlineMiddlewares := by
    cases base with
    | none => rfl
    | some b => exact IngressRoute.inlineMiddlewares_behind (hbase b rfl)
  unfold middlewares
  rw [hinline]
  rfl

/-- The middleware objects of a service are those to which its inline middlewares refer, each once
and as the first of them has it. References to other objects keep their names, and a stored base
route changes no object. -/
theorem middlewares_match_references (app : AppName) (s : DeployableService) :
    let objects := (middlewares app s).map (·.toJson)
    List.Forall₂ (fun r rule => (middlewareNames rule).length = r.middlewares.length)
      s.route.routes (writtenRules app s) ∧
    (objects.map nameOf).Nodup ∧
    objects.map nameOf = ((inlineReferences app s).map (·.2)).eraseDups ∧
    (∀ o ∈ objects, ∃ m spec,
      (inlineReferences app s).find? (·.2 == nameOf o) = some (m, nameOf o) ∧
        m.spec = some spec ∧ o.get "spec" = .obj spec) ∧
    (∀ e ∈ references app s, e.1.isRef → e.2 = e.1.name) ∧
    ∀ base, ((∃ r, convert r = .ok base) ∨ ∃ j, convertJson j = .ok base) →
      middlewares app (Cluster.placedBehind (some base) s) = middlewares app s := by
  intro objects
  have hnames : objects.map nameOf = s.route.inlineMiddlewares.map (·.objectName) := by
    rw [List.map_map]
    exact map_nameOf_middlewares app s
  refine ⟨forall₂_writtenRules app s, ?_, ?_, ?_, ?_, ?_⟩
  · rw [hnames]
    exact s.route.nodup_map_objectName_inlineMiddlewares
  · rw [hnames, IngressRoute.map_objectName_inlineMiddlewares, inlineReferences_eq, List.map_map]
    rfl
  · intro o ho
    obtain ⟨r, hr, rfl⟩ := List.mem_map.1 ho
    obtain ⟨m, hm, rfl⟩ := List.mem_map.1 hr
    obtain ⟨spec, hspec⟩ := Option.isSome_iff_exists.1
      (IngressRoute.isSome_spec_of_mem_inlineMiddlewares hm)
    rw [nameOf_toJson]
    refine ⟨m, spec, find?_inlineReferences hm, hspec, ?_⟩
    rw [hspec]
    rfl
  · intro e he href
    rw [references_eq] at he
    obtain ⟨m, -, rfl⟩ := List.mem_map.1 he
    have href : m.isRef = true := href
    simp [Middleware.objectName, href]
  · intro base hbase
    have hrefs : ∀ m ∈ base.middlewares, m.isRef := by
      rcases hbase with ⟨r, hr⟩ | ⟨j, hj⟩
      · exact isRef_of_convert hr
      · exact isRef_of_convertJson hj
    apply middlewares_placedBehind app s
    rintro _ ⟨⟩
    exact hrefs

/-- Two middlewares of their own whose names differ in case only, and a reference between them. -/
def twinRoute : IngressRoute where
  routes :=
    [⟨.matcher "Path" ["/a"], [⟨"Strip", some (IngressRoute.stripPrefix "/a/")⟩, .ref "Auth"]⟩,
      ⟨.matcher "Path" ["/b"], [⟨"strip", some (IngressRoute.stripPrefix "/b/")⟩]⟩]
  entryPoints := []
  certResolver := none

def twinService : DeployableService := { blogService with route := twinRoute }

theorem middlewares_twinService_behind :
    (∃ j, convertJson j = .ok previewBase) ∧
      middlewares .master (Cluster.placedBehind (some previewBase) twinService) =
        middlewares .master twinService := by
  have hbase : ∃ j, convertJson j = .ok previewBase := ⟨previewRoute, convertJson_previewRoute⟩
  have hmatch := middlewares_match_references .master twinService
  exact ⟨hbase, hmatch.2.2.2.2.2 previewBase (.inr hbase)⟩

example : (references .master twinService).map (·.2) = ["strip", "Auth", "strip"] ∧
    (middlewares .master twinService).map (fun r => nameOf r.toJson) = ["strip"] := by
  decide +kernel

end PreviewApps.Traefik
