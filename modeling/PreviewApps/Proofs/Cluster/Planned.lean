import PreviewApps.Proofs.Cluster.Plans
import PreviewApps.Proofs.Cluster.Redeployment

/-!
The plan of a deployment: what it writes once its claims and its base route are known, and that its
stages, claims apart, leave the store as planned.
-/

namespace PreviewApps

namespace Json

theorem eq_of_mem_nonempty {α : Type} {f : List α → Json} {xs : List α} {v : Json}
    (h : v ∈ nonempty f xs) : v = f xs := by
  unfold nonempty at h
  split at h
  · cases h
  · exact (Option.mem_some.1 h).symm

end Json

namespace Cluster

section Manifests

theorem nodup_ofService (app : AppName) (service : String) (type : ContainerType) :
    ((Labels.ofService app service type).map (·.1)).Nodup := by
  change [Label.appName, Label.serviceName, Label.containerType].Nodup
  decide

theorem nodup_ofNamed (app : AppName) (service : String) :
    ((Labels.ofNamed app service).map (·.1)).Nodup := by
  change [Label.appName, Label.serviceName].Nodup
  decide

theorem nodup_annotationsOf (config : ServiceConfig) :
    ((Deployment.annotationsOf config).map (·.1)).Nodup := by
  unfold Deployment.annotationsOf
  split
  · change [Label.image, Label.replicatedEnv].Nodup
    decide
  · exact List.nodup_singleton _

theorem nodup_podAnnotations (s : Strategy) (now : Timestamp) :
    ((s.podAnnotations now).map (·.1)).Nodup := by
  unfold Strategy.podAnnotations
  split
  · exact List.nodup_singleton _
  · exact List.nodup_nil
  · exact List.nodup_singleton _

theorem exists_arr_of_mem_podSpec (d : Deployment) :
    ∀ e ∈ [("containers", some (Json.arr [d.container.toJson])),
      ("volumes", Json.nonempty (fun vs => .arr (vs.map (·.toJson))) d.volumes),
      ("imagePullSecrets", d.pullSecret.map fun n => .arr [.obj [("name", .str n)]])],
      ∀ v ∈ e.2, ∃ items, v = .arr items := by
  simp only [List.forall_mem_cons]
  refine ⟨?_, ?_, ?_, by simp⟩
  · rintro v ⟨⟩
    exact ⟨_, rfl⟩
  · intro v hv
    rw [Json.eq_of_mem_nonempty hv]
    exact ⟨_, rfl⟩
  · intro v hv
    obtain ⟨n, -, rfl⟩ := Option.map_eq_some_iff.1 hv
    exact ⟨_, rfl⟩

theorem distinct_podSpec (d : Deployment) : d.podSpec.Distinct := by
  apply Json.distinct_record (by simp)
  intro e he v hv
  obtain ⟨items, rfl⟩ := exists_arr_of_mem_podSpec d e he v hv
  exact Json.distinct_of_ne_obj (by simp)

theorem spare_podSpec (d : Deployment) : d.podSpec.Spare := by
  apply Json.spare_record
  intro e he v hv
  obtain ⟨items, rfl⟩ := exists_arr_of_mem_podSpec d e he v hv
  exact Json.spare_of_ne_obj (by simp) (by simp)

theorem distinct_deployment {d : Deployment} (hlabels : (d.labels.map (·.1)).Nodup)
    (hannotations : (d.annotations.map (·.1)).Nodup)
    (hpod : (d.podAnnotations.map (·.1)).Nodup) : d.toJson.Distinct := by
  have hlabels' := Json.distinct_ofMap hlabels
  have hannotations' := Json.distinct_ofMap hannotations
  have hpod' := Json.distinct_ofMap hpod
  have hspec := distinct_podSpec d
  simp [Deployment.toJson, Json.distinct_obj_iff, Json.distinct_of_ne_obj, hlabels',
    hannotations', hpod', hspec]

theorem spare_deployment (d : Deployment) : d.toJson.Spare := by
  have hmap := Json.spare_ofMap
  have hmetadata : (Json.obj d.metadata).Spare :=
    Json.spare_obj (by simp [Deployment.metadata, hmap, Json.spare_of_ne_obj])
  have hselector : (Json.obj [("matchLabels", Json.ofMap d.labels)]).Spare :=
    Json.spare_obj (by simp [hmap])
  have hpod : (Json.obj [("labels", Json.ofMap d.labels),
      ("annotations", Json.ofMap d.podAnnotations)]).Spare :=
    Json.spare_obj (by simp [hmap])
  have htemplate : (Json.obj [("metadata", Json.obj [("labels", Json.ofMap d.labels),
      ("annotations", Json.ofMap d.podAnnotations)]), ("spec", d.podSpec)]).Spare :=
    Json.spare_obj (by simp [hpod, spare_podSpec])
  have hspec : (Json.obj (d.storedSpec 1)).Spare :=
    Json.spare_obj (by simp [Deployment.storedSpec, hselector, htemplate, Json.spare_of_ne_obj])
  rw [Deployment.toJson_eq_stored, Deployment.stored]
  exact Json.spare_obj (by simp [hmetadata, hspec, Json.spare_of_ne_obj])

theorem headed_deployment (app : AppName) (s : DeployableService) (container : ContainerConfig)
    (usePullSecret : Bool) (claims : List (String × Claim)) (now : Timestamp) :
    Headed (Deployment.ofService app s container usePullSecret claims now).toJson
      (app.deploymentName s.name) := by
  refine ⟨?_, _, rfl, rfl, by simp [writtenKeys]⟩
  apply distinct_deployment
  · exact nodup_ofService app s.name s.config.containerType
  · exact nodup_annotationsOf s.config
  · exact nodup_podAnnotations s.strategy now

theorem headed_secret {s : Secret} (hlabels : (s.labels.map (·.1)).Nodup)
    (hdata : (s.data.map (·.1)).Nodup) : Headed s.toJson s.name := by
  have hlabels' := Json.distinct_ofMap hlabels
  have hdata' := Json.distinct_ofMap hdata
  refine ⟨?_, _, rfl, rfl, by simp [writtenKeys]⟩
  apply Json.distinct_record (by simp)
  simp [Json.distinct_obj_iff, Json.distinct_of_ne_obj, hlabels', hdata']

theorem spare_secret (s : Secret) : s.toJson.Spare := by
  have hmap := Json.spare_ofMap
  have hmetadata : (Json.obj [("name", Json.str s.name), ("namespace", Json.str s.namespaceId),
      ("labels", Json.ofMap s.labels)]).Spare :=
    Json.spare_obj (by simp [hmap, Json.spare_of_ne_obj])
  apply Json.spare_record
  simp [hmap, hmetadata, Json.spare_of_ne_obj]

theorem headed_files (app : AppName) (config : ServiceConfig) :
    Headed (Secret.ofFiles app config).toJson (app.secretName config.serviceName) :=
  headed_secret (nodup_ofService app _ _) (Assoc.nodup_keys_ofList _)

theorem headed_pullSecret (app : AppName) (credentials : RegistryCredentials) :
    Headed (Secret.forImagePull app credentials).toJson app.pullSecretName :=
  headed_secret (List.nodup_singleton _) (List.nodup_singleton _)

theorem headed_service (app : AppName) (config : ServiceConfig) :
    Headed (ServiceManifest.ofConfig app config).toJson config.serviceName := by
  have hlabels := Json.distinct_ofMap (nodup_ofService app config.serviceName config.containerType)
  refine ⟨?_, _, rfl, rfl, by simp [writtenKeys]⟩
  simp [ServiceManifest.toJson, ServiceManifest.ofConfig, Json.distinct_obj_iff,
    Json.distinct_of_ne_obj, hlabels]

theorem headed_namespace {settings : Settings} (app : AppName)
    (h : (settings.namespaceAnnotations.map (·.1)).Nodup) :
    Headed (NamespaceManifest.ofApp app settings).toJson app.namespaceId := by
  have hlabels : (Json.ofMap (Labels.ofApp app)).Distinct :=
    Json.distinct_ofMap (List.nodup_singleton _)
  have hmetadata : ((NamespaceManifest.ofApp app settings).toJson.get "metadata").Distinct := by
    apply Json.distinct_record (by simp)
    simp only [List.forall_mem_cons]
    refine ⟨?_, ?_, ?_, by simp⟩
    · rintro v ⟨⟩
      exact Json.distinct_of_ne_obj (by simp)
    · rintro v ⟨⟩
      exact hlabels
    · intro v hv
      rw [Json.eq_of_mem_nonempty hv]
      exact Json.distinct_ofMap h
  refine ⟨?_, _, rfl, ?_, ?_⟩
  · simp only [NamespaceManifest.toJson, Json.distinct_obj_iff]
    refine ⟨by simp, ?_⟩
    simp only [List.forall_mem_cons]
    exact ⟨Json.distinct_of_ne_obj (by simp), Json.distinct_of_ne_obj (by simp), hmetadata, by simp⟩
  · exact member?_namespace (NamespaceManifest.ofApp app settings) "name"
  · unfold Json.nonempty
    split
    · simp [writtenKeys]
    · simp [writtenKeys]

theorem distinct_objectMeta (name ns : Option String) {labels : Labels}
    (hlabels : (labels.map (·.1)).Nodup) :
    (Traefik.ObjectMeta.mk name ns (some labels) none).toJson.Distinct := by
  apply Json.distinct_record (by simp)
  simp only [List.forall_mem_cons]
  refine ⟨?_, ?_, ?_, by simp⟩
  · exact distinct_of_mem_map fun _ => Json.distinct_of_ne_obj (by simp)
  · exact distinct_of_mem_map fun _ => Json.distinct_of_ne_obj (by simp)
  · rintro v ⟨⟩
    exact Json.distinct_ofMap hlabels

theorem headed_middleware {app : AppName} {s : DeployableService}
    {r : Traefik.MiddlewareResource} (hs : TidyRoute s.route) (hr : r ∈ Traefik.middlewares app s) :
    Headed r.toJson (r.metadata.name.getD "") := by
  obtain ⟨m, hm, rfl⟩ := List.mem_map.1 hr
  have hspec := hs m (IngressRoute.mem_middlewares_of_mem_inlineMiddlewares hm)
  have hmetadata := distinct_objectMeta (some m.objectName) (some app.namespaceId)
    (nodup_ofNamed app s.name)
  refine ⟨?_, _, rfl, rfl, by simp [writtenKeys]⟩
  simp [Traefik.MiddlewareResource.toJson, Json.distinct_obj_iff, Json.distinct_of_ne_obj,
    hmetadata, hspec]

theorem headed_ingressRoute {app : AppName} {s : DeployableService}
    {r : Traefik.IngressRouteResource} (hr : Traefik.ingressRoute? app s = some r) :
    Headed r.toJson (app.ingressRouteName s.name) := by
  unfold Traefik.ingressRoute? at hr
  split at hr
  · cases hr
  · cases hr
    have hmetadata := distinct_objectMeta (some (app.ingressRouteName s.name))
      (some app.namespaceId) (nodup_ofService app s.name s.config.containerType)
    have hspec := distinct_toJson
    refine ⟨?_, _, rfl, rfl, by simp [writtenKeys]⟩
    simp [Traefik.IngressRouteResource.toJson, Json.distinct_obj_iff, Json.distinct_of_ne_obj,
      DeployableService.labels, hmetadata, hspec]

end Manifests

section Plan

variable (app : AppName)

def deploymentKey (s : DeployableService) : Key :=
  ⟨.deployments, app.namespaceId, app.deploymentName s.name⟩

def fileWrites (s : DeployableService) : List Write :=
  if s.files.isEmpty then []
  else [⟨.patch, ⟨.secrets, app.namespaceId, app.secretName s.name⟩,
    (Secret.ofFiles app s.config).toJson⟩]

def middlewareWrites (rs : List Traefik.MiddlewareResource) : List Write :=
  rs.map fun r => ⟨.patch, ⟨.middlewares, app.namespaceId, r.metadata.name.getD ""⟩, r.toJson⟩

def routeWrites (s : DeployableService) : List Write :=
  middlewareWrites app (Traefik.middlewares app s) ++
    (Traefik.ingressRoute? app s).toList.map fun r => ⟨.patch, routeKey app s, r.toJson⟩

def pullSecretKey : Key := ⟨.secrets, app.namespaceId, app.pullSecretName⟩

def pullWrites (u : DeploymentUnit) : List Write :=
  if u.needsPullSecret then
    [⟨.replace, pullSecretKey u.app, (Secret.forImagePull u.app u.credentials).toJson⟩]
  else []

end Plan

theorem mem_pullWrites_iff {u : DeploymentUnit} {w : Write} :
    w ∈ pullWrites u ↔ u.needsPullSecret ∧
      w = ⟨.replace, pullSecretKey u.app, (Secret.forImagePull u.app u.credentials).toJson⟩ := by
  unfold pullWrites
  split
  · next hpull => simp [hpull]
  · next hpull => simp [hpull]

abbrev Supply := DeployableService × List (String × Claim)

def Rollout.manifest (r : Rollout) (e : Supply) : Json :=
  (Deployment.ofService r.unit.app e.1 r.container r.unit.needsPullSecret e.2 r.now).toJson

def serviceWrites (r : Rollout) (base : Option IngressRoute) (e : Supply) : List Write :=
  fileWrites r.unit.app e.1 ++
    ⟨.replace, deploymentKey r.unit.app e.1, r.manifest e⟩ ::
    ⟨.patch, ⟨.services, r.unit.app.namespaceId, e.1.name⟩,
      (ServiceManifest.ofConfig r.unit.app e.1.config).toJson⟩ ::
    routeWrites r.unit.app (placedBehind base e.1)

def namespaceWrite (settings : Settings) (app : AppName) : Write :=
  ⟨.patch, ⟨.namespaces, "", app.namespaceId⟩, (NamespaceManifest.ofApp app settings).toJson⟩

def rolloutWrites (settings : Settings) (r : Rollout) (base : Option IngressRoute)
    (supplies : List Supply) : List Write :=
  namespaceWrite settings r.unit.app ::
    (pullWrites r.unit ++ supplies.flatMap (serviceWrites r base))

section Stages

open Program

variable {σ : Type} {server : SparingServer σ} {m : Store}

theorem yields_patch {kind : Kind} {ns name : String} {body : Json} {creating updating : Action}
    (hkind : kind ≠ .claims ∧ kind ≠ .deployments) (hbody : Headed body name) :
    (upsert .patch kind ns name body creating updating).Yields server.interface m fun _ m' =>
      Stage server.KeepsIdentity [⟨.patch, ⟨kind, ns, name⟩, body⟩] m m' :=
  yields_upsert hkind.1 hbody fun _ hj => stage_patch hkind hbody hj

theorem yields_upsertFiles (app : AppName) (s : DeployableService) :
    (upsertFiles app s).Yields server.interface m fun _ m' =>
      Stage server.KeepsIdentity (fileWrites app s) m m' := by
  unfold upsertFiles fileWrites
  split
  · exact Stage.refl _ m
  · exact (yields_patch (by decide) (headed_files app s.config)).discard

theorem yields_upsertMiddlewares {app : AppName} {rs : List Traefik.MiddlewareResource}
    (hrs : ∀ r ∈ rs, Headed r.toJson (r.metadata.name.getD "")) :
    (rs.forM (upsertMiddleware app)).Yields server.interface m fun _ m' =>
      Stage server.KeepsIdentity (middlewareWrites app rs) m m' := by
  induction rs generalizing m with
  | nil => exact Stage.refl _ m
  | cons r rs ih =>
    obtain ⟨hr, hrs⟩ := List.forall_mem_cons.1 hrs
    apply Yields.bind
    apply Yields.discard
    apply (yields_patch (by decide) hr).mono
    intro _ m₁ h₁
    apply (ih hrs).mono
    intro _ m₂ h₂
    exact h₁.append h₂

theorem routeWrites_of_isEmpty {app : AppName} {s : DeployableService}
    (h : s.route.isEmpty = true) : routeWrites app s = [] := by
  have hroutes : s.route.routes = [] := List.isEmpty_iff.1 h
  have hinline : s.route.inlineMiddlewares = [] := by
    simp [IngressRoute.inlineMiddlewares, IngressRoute.middlewares, hroutes, IngressRoute.distinct]
  simp [routeWrites, middlewareWrites, Traefik.middlewares, hinline, Traefik.ingressRoute?, h]

theorem yields_upsertRoutes (app : AppName) {s : DeployableService} {base : Option IngressRoute}
    (hs : TidyRoute (placedBehind base s).route) :
    (upsertRoutes app s base).Yields server.interface m fun _ m' =>
      Stage server.KeepsIdentity (routeWrites app (placedBehind base s)) m m' := by
  unfold upsertRoutes
  split
  · next hroute =>
    rw [routeWrites_of_isEmpty ((isEmpty_placedBehind base s).trans hroute)]
    exact Stage.refl _ m
  · next hroute =>
    rw [routeWrites]
    obtain ⟨r, hr, -⟩ := exists_ingressRoute app base (Bool.eq_false_iff.2 hroute)
    apply Yields.bind
    apply (yields_upsertMiddlewares fun _ h => headed_middleware hs h).mono
    intro _ m₁ h₁
    unfold upsertIngressRoute
    rw [hr]
    apply Yields.discard
    apply (yields_patch (by decide) (headed_ingressRoute hr)).mono
    intro _ m₂ h₂
    exact h₁.append h₂

theorem yields_deleteSecret {ns name : String} {action : Action} :
    (may [404] action (.delete .secrets ns name)).Yields server.interface m fun _ m' =>
      ∀ key ≠ ⟨.secrets, ns, name⟩, m' key = m key := by
  have hclean : (Call.delete .secrets ns name).Clean :=
    ⟨trivial, by simp [Call.body?], fun hcall => by cases hcall; rfl⟩
  refine yields_may hclean ?_ ?_
  · intro j m' hstep
    cases SparingServer.serves_of_steps hclean hstep with
    | deleted hold => exact fun key hkey => delete_secret_of_ne hkey m
  · intro e m' hstep
    cases SparingServer.serves_of_steps hclean hstep with
    | missing hkey hnone => exact fun key _ => rfl

theorem yields_replacePullSecret (u : DeploymentUnit) :
    (replacePullSecret u).Yields server.interface m fun _ m' =>
      Stage server.KeepsIdentity
        [⟨.replace, pullSecretKey u.app, (Secret.forImagePull u.app u.credentials).toJson⟩]
        m m' := by
  let key := pullSecretKey u.app
  let body := (Secret.forImagePull u.app u.credentials).toJson
  have hkind : Kind.secrets ≠ .claims := by decide
  have hbody : Headed body u.app.pullSecretName := headed_pullSecret u.app u.credentials
  have hspare : body.withoutNulls = body := (spare_secret _).withoutNulls
  have hclean := clean_create hkind u.app.namespaceId hbody
  obtain ⟨hstem, hgiven⟩ := hbody.withoutNulls.named
  apply Yields.bind
  apply Yields.discard
  apply yields_deleteSecret.mono
  intro _ m₁ h₁
  apply Yields.discard
  apply yields_must hclean
  intro j m₂ hstep
  cases SparingServer.serves_of_steps hclean hstep with
  | created hname hnew hentries =>
    rw [hname hstem, hgiven, hspare]
    have hdressed := dressed_created hentries body u.app.pullSecretName
    have hothers : ∀ j, ∀ key' ≠ key, m₁.put key j key' = m key' :=
      fun j key' hkey' => (Store.put_of_ne hkey' j m₁).trans (h₁ key' hkey')
    refine ⟨leaves_of_written (Store.put_self ..) ?_ nofun (hothers _), ?_, steady_of_same ?_⟩
    · intro ps hps
      rw [Write.leaves, if_pos rfl]
      exact hdressed.shellAt hbody hps
    · intro key' hkey'
      apply hothers
      rintro rfl
      cases hkey'
    · intro key' hkey'
      apply hothers
      rintro rfl
      cases hkey'

theorem yields_providePullSecret (u : DeploymentUnit) :
    (providePullSecret u).Yields server.interface m fun _ m' =>
      Stage server.KeepsIdentity (pullWrites u) m m' := by
  unfold providePullSecret pullWrites
  split
  · exact yields_replacePullSecret u
  · exact Stage.refl _ m

theorem yields_baseRoute (settings : Settings) :
    (baseRoute settings).Yields server.interface m fun base m' =>
      base = baseIn settings m ∧ m' = m := by
  unfold baseRoute baseIn
  cases settings.runtime.baseIngressRoute with
  | none => exact ⟨rfl, rfl⟩
  | some r =>
    have hclean : (Call.get .ingressRoutes r.namespaceId r.name).Clean :=
      ⟨trivial, by simp [Call.body?], nofun⟩
    apply Yields.bind
    refine yields_may hclean ?_ ?_
    · intro j m' hstep
      cases SparingServer.serves_of_steps hclean hstep with
      | got hold =>
        rw [Option.bind_some, hold]
        exact ⟨rfl, rfl⟩
    · intro e m' hstep
      cases SparingServer.serves_of_steps hclean hstep with
      | missing hkey hnone =>
        cases hkey
        rw [Option.bind_some, hnone]
        exact ⟨rfl, rfl⟩

end Stages

end Cluster

end PreviewApps
