import PreviewApps.Cluster.Deploy
import PreviewApps.Proofs.Manifest.References
import PreviewApps.Proofs.Route
import PreviewApps.Proofs.Traefik.Conversion

/-!
Middlewares that a service inherits from the base route. Their references keep the name only, so
behind the base they mean objects in the namespace of the application.
-/

namespace PreviewApps.Traefik

open Schema

/-- The object that a reference means: if it names no namespace, one in the namespace of the
resource that holds it. -/
def referent (home : String) (reference : Json) : String × String :=
  let own := ((reference.get "namespace").str?).getD ""
  (if own = "" then home else own, ((reference.get "name").str?).getD "")

def referents (home : String) (rule : Json) : List (String × String) :=
  (rule.get "middlewares").items.map (referent home)

def homeOf (resource : Json) : String := ((resource.path ["metadata", "namespace"]).str?).getD ""

theorem snd_referent_of_decode {reference : Json} {name : String}
    (h : RuleSpec.decodeMiddleware reference = .ok name) (home : String) :
    (referent home reference).2 = name := by
  obtain ⟨ms, rfl, hms⟩ := object_eq_ok_iff.1 h
  have hname := string_eq_ok_iff.1 (decode_get_of_required hms)
  simp [referent, hname, Json.str?]

theorem map_snd_referents_of_decode {rule : Json} {r : RuleSpec} (h : RuleSpec.decode rule = .ok r)
    (home : String) : (referents home rule).map (·.2) = r.middlewares.getD [] := by
  have hread : List.Forall₂ (fun reference name => (referent home reference).2 = name)
      (rule.get "middlewares").items (r.middlewares.getD []) :=
    (RuleSpec.forall₂_middlewares h).imp fun _ _ hname => snd_referent_of_decode hname home
  rw [referents, List.map_map]
  exact List.forall₂_eq_eq_eq ▸ List.forall₂_map_left_iff.2 hread

theorem referents_toJson (home : String) (r : RuleSpec) :
    referents home r.toJson = (r.middlewares.getD []).map (home, ·) := by
  rw [referents, middlewares_toJson, List.map_map]
  rfl

theorem exists_rule_of_convertJson {resource : Json} {base : IngressRoute}
    (h : convertJson resource = .ok base) (home : String) :
    ∃ rule rules b bs, resource.rules = rule :: rules ∧ base.routes = b :: bs ∧
      b.middlewares = ((referents home rule).map (·.2)).map .ref := by
  obtain ⟨r, hr, hconvert⟩ := exists_of_convertJson h
  obtain ⟨hne, hroutes⟩ := routes_of_convert hconvert
  have hread := IngressRouteSpec.forall₂_routes (IngressRouteResource.decode_spec hr)
  have hconverted := forall₂_of_mapM_eq_ok hroutes
  obtain ⟨spec, specs, hspecs⟩ := List.exists_cons_of_ne_nil hne
  rw [hspecs] at hread hconverted
  obtain ⟨rule, rules, hrule, -, hrules⟩ := List.forall₂_cons_right_iff.1 hread
  obtain ⟨b, bs, hb, -, hbs⟩ := List.forall₂_cons_left_iff.1 hconverted
  refine ⟨rule, rules, b, bs, hrules, hbs, ?_⟩
  rw [middlewares_of_convertRule hb, map_snd_referents_of_decode hrule]

theorem homeOf_toJson (r : IngressRouteResource) :
    homeOf r.toJson = r.metadata.namespaceId.getD "" := by
  show ((r.metadata.toJson.get "namespace").str?).getD "" = _
  rw [Json.get, Json.member?, ObjectMeta.toJson, Json.lookup_record (by simp)]
  cases hns : r.metadata.namespaceId <;> simp [List.lookup_cons, Json.str?]

theorem map_objectName_ref (names : List String) :
    (names.map Middleware.ref).map (·.objectName) = names := by
  simp [Middleware.objectName, Middleware.isRef, Middleware.ref, Function.comp_def]

theorem exists_ingressRoute?_behind {base : IngressRoute} {b : Route} {bs : List Route}
    {names : List String} (hbase : base.routes = b :: bs) (hb : b.middlewares = names.map .ref)
    (app : AppName) {s : DeployableService} (hroute : s.route.isEmpty = false) :
    ∃ r, ingressRoute? app (Cluster.placedBehind (some base) s) = some r ∧
      r.toJson.rules.length = s.route.routes.length ∧
      ∀ own ∈ r.toJson.rules, (referents (homeOf r.toJson) own).take names.length =
        names.map (app.namespaceId, ·) := by
  have hplaced : (Cluster.placedBehind (some base) s).route.isEmpty = false :=
    (IngressRoute.isEmpty_behind s.route base).trans hroute
  obtain ⟨r, hr, hns, hspec⟩ := exists_ingressRoute? app hplaced
  have hroutes : (Cluster.placedBehind (some base) s).route.routes =
      s.route.routes.map fun own => ⟨b.rule.merge own.rule, b.middlewares ++ own.middlewares⟩ :=
    IngressRoute.routes_behind hbase s.route
  refine ⟨r, hr, ?_, ?_⟩
  · rw [rules_toJson, hspec]
    simp [hroutes]
  · intro rule hrule
    rw [rules_toJson, hspec, Option.getD_some, hroutes, List.map_map] at hrule
    obtain ⟨spec, hmem, rfl⟩ := List.mem_map.1 hrule
    obtain ⟨own, -, rfl⟩ := List.mem_map.1 hmem
    have hnames : ((ruleSpec (Cluster.placedBehind (some base) s)
        ⟨b.rule.merge own.rule, b.middlewares ++ own.middlewares⟩).middlewares).getD [] =
          names ++ own.middlewares.map (·.objectName) := by
      rw [ruleSpec, Option.getD_some, List.map_append, hb, map_objectName_ref]
    rw [Function.comp_apply, referents_toJson, hnames, homeOf_toJson, hns, Option.getD_some,
      List.map_append]
    exact List.take_left' (List.length_map _)

/-- Every rule of a service inherits the references in the first rule of a stored base by name. They
mean the same objects as there exactly if all these are in the namespace of the application. -/
theorem inherited_referents_iff {resource : Json} {base : IngressRoute}
    (hbase : convertJson resource = .ok base) (home : String) (app : AppName)
    {s : DeployableService} (hroute : s.route.isEmpty = false) :
    ∃ first rest r, resource.rules = first :: rest ∧
      ingressRoute? app (Cluster.placedBehind (some base) s) = some r ∧
      r.toJson.rules.length = s.route.routes.length ∧
      let meant := referents home first
      let inherited rule := (referents (homeOf r.toJson) rule).take meant.length
      (∀ rule ∈ r.toJson.rules, (inherited rule).map (·.2) = meant.map (·.2)) ∧
        ((∀ rule ∈ r.toJson.rules, inherited rule = meant) ↔
          ∀ o ∈ meant, o.1 = app.namespaceId) := by
  obtain ⟨first, rest, b, bs, hrules, hroutes, hb⟩ := exists_rule_of_convertJson hbase home
  obtain ⟨r, hr, hlength, hinherited⟩ := exists_ingressRoute?_behind hroutes hb app hroute
  rw [List.length_map] at hinherited
  refine ⟨first, rest, r, hrules, hr, hlength, ?_⟩
  intro meant inherited
  have hinherited : ∀ rule ∈ r.toJson.rules,
      inherited rule = (meant.map (·.2)).map (app.namespaceId, ·) := hinherited
  refine ⟨?_, ?_⟩
  · intro rule hrule
    rw [hinherited rule hrule, List.map_map]
    exact List.map_id _
  · have hne : r.toJson.rules ≠ [] := by
      rw [← List.length_pos_iff, hlength, List.length_pos_iff]
      simpa [IngressRoute.isEmpty] using hroute
    obtain ⟨rule, hrule⟩ := List.exists_mem_of_ne_nil _ hne
    constructor
    · intro hsame o ho
      rw [← hsame rule hrule, hinherited rule hrule] at ho
      obtain ⟨name, -, rfl⟩ := List.mem_map.1 ho
      rfl
    · intro hhome rule hrule
      have hkept : ∀ o ∈ meant, (app.namespaceId, o.2) = o := by
        intro o ho
        rw [← hhome o ho]
      rw [hinherited rule hrule, List.map_map]
      exact (List.map_congr_left hkept).trans (List.map_id _)

/-- A base in a namespace of its own, which one of its references names and the other does not. -/
def previewRoute : Json := .obj
  [("apiVersion", .str apiVersion), ("kind", .str "IngressRoute"),
    ("metadata", .obj [("name", .str "api"), ("namespace", .str "preview")]),
    ("spec", .obj [("routes", .arr [.obj [("match", .str "Host(`preview.example.com`)"),
      ("middlewares", .arr [.obj [("name", .str "auth"), ("namespace", .str "preview")],
        .obj [("name", .str "gzip")]])]])])]

def previewBase : IngressRoute :=
  .ofExisting [] (.matcher "Host" ["preview.example.com"]) ["auth", "gzip"] none

theorem convertJson_previewRoute : convertJson previewRoute = .ok previewBase := by
  have hlegible : previewBase.Legible := by
    unfold IngressRoute.Legible
    decide +kernel
  have htext : (Rule.matcher "Host" ["preview.example.com"]).render =
      "Host(`preview.example.com`)" := by decide +kernel
  have hparse := hlegible.parse_render (List.mem_singleton_self _)
  have hconvert : convertRule (some "api")
      ⟨"Rule", "Host(`preview.example.com`)", [], some ["auth", "gzip"]⟩ =
        .ok ⟨.matcher "Host" ["preview.example.com"], [.ref "auth", .ref "gzip"]⟩ := by
    rw [← htext, convertRule, hparse]
    rfl
  change ([_].mapM (convertRule (some "api")) >>= _) = _
  rw [List.mapM_cons, hconvert]
  rfl

theorem inherited_referents_behind_previewRoute :
    (convertJson previewRoute = .ok previewBase ∧ blogService.route.isEmpty = false) ∧
    ∃ first rest r, previewRoute.rules = first :: rest ∧
      ingressRoute? .master (Cluster.placedBehind (some previewBase) blogService) = some r ∧
      r.toJson.rules.length = blogService.route.routes.length ∧
      let meant := referents "preview" first
      let inherited rule := (referents (homeOf r.toJson) rule).take meant.length
      (∀ rule ∈ r.toJson.rules, (inherited rule).map (·.2) = meant.map (·.2)) ∧
        ((∀ rule ∈ r.toJson.rules, inherited rule = meant) ↔
          ∀ o ∈ meant, o.1 = AppName.master.namespaceId) := by
  have hroute : blogService.route.isEmpty = false := rfl
  exact ⟨⟨convertJson_previewRoute, hroute⟩,
    inherited_referents_iff convertJson_previewRoute "preview" .master hroute⟩

/-- Behind that base the references mean objects that nobody made. -/
theorem referents_moved_behind_previewRoute :
    convertJson previewRoute = .ok previewBase ∧
    ∃ first rest r, previewRoute.rules = first :: rest ∧
      ingressRoute? .master (Cluster.placedBehind (some previewBase) blogService) = some r ∧
      ¬∀ rule ∈ r.toJson.rules, (referents (homeOf r.toJson) rule).take
        (referents (homeOf previewRoute) first).length =
          referents (homeOf previewRoute) first := by
  refine ⟨convertJson_previewRoute, _, _, _, rfl, rfl, ?_⟩
  decide +kernel

end PreviewApps.Traefik
