import PreviewApps.Proofs.Cluster.Partial
import PreviewApps.Proofs.Cluster.Support
import PreviewApps.Proofs.Json.MergePatch

/-!
What deployments make of the contents of secrets, middlewares and ingress routes. Afterwards they
are what they were before, with the contents that the unit asks for laid over them one by one.
-/

namespace PreviewApps.Cluster

open Program

def Kind.part? : Kind → Option String
  | .secrets => some "data"
  | .ingressRoutes => some "spec"
  | .middlewares => some "spec"
  | _ => none

abbrev Contents := Store

def contents (m : Store) : Contents := fun key =>
  key.kind.part?.bind fun part => (m key).map (·.get part)

def overlay (new : Json) : Option Json → Json
  | none => new
  | some old => old.mergePatch new

namespace Contents

def write (key : Key) (new : Json) (c : Contents) : Contents := c.put key (overlay new (c key))

def writeAll (ws : List (Key × Json)) (c : Contents) : Contents :=
  ws.foldl (fun c w => c.write w.1 w.2) c

theorem writeAll_append (ws ws' : List (Key × Json)) (c : Contents) :
    c.writeAll (ws ++ ws') = (c.writeAll ws).writeAll ws' := List.foldl_append ..

end Contents

structure Carries (body : Json) (part : String) (content : Json) : Prop where
  nodup : (body.members.map (·.1)).Nodup
  member : body.member? part = some content
  ne_null : content ≠ .null

theorem carries_secret (s : Secret) : Carries s.toJson "data" (.ofMap s.data) := by
  refine ⟨List.Nodup.sublist (Json.keys_record_sublist _) (by simp), ?_, Json.noConfusion⟩
  rw [Json.member?, Secret.toJson, Json.lookup_record (by simp)]
  rfl

theorem carries_middleware (r : Traefik.MiddlewareResource) :
    Carries r.toJson "spec" (.obj r.spec) :=
  ⟨by simp [Traefik.MiddlewareResource.toJson, Json.members], rfl, Json.noConfusion⟩

theorem carries_ingressRoute (r : Traefik.IngressRouteResource) :
    Carries r.toJson "spec" r.spec.toJson :=
  ⟨by simp [Traefik.IngressRouteResource.toJson, Json.members], rfl, Json.noConfusion⟩

section Put

variable {key : Key} {m : Store} {part : String} {body content : Json}

theorem part?_ne_metadata (hpart : key.kind.part? = some part) : part ≠ "metadata" := by
  rintro rfl
  cases hkind : key.kind <;> simp [hkind, Kind.part?] at hpart

theorem contents_put_of_part?_eq_none (hpart : key.kind.part? = none) (j : Json) (m : Store) :
    contents (m.put key j) = contents m := by
  funext k
  unfold contents
  by_cases hk : k = key
  · rw [hk, hpart]
    rfl
  · rw [Store.put_of_ne hk]

theorem contents_put (hpart : key.kind.part? = some part) (j : Json) (m : Store) :
    contents (m.put key j) = (contents m).put key (j.get part) := by
  funext k
  unfold contents
  by_cases hk : k = key
  · simp [hk, hpart, Store.put_self]
  · simp [Store.put_of_ne hk]

theorem Carries.get_withMetadata (h : Carries body part content) (hpart : part ≠ "metadata")
    (entries : List (String × Json)) : (Server.withMetadata entries body).get part = content := by
  change ((Assoc.insert "metadata" _ body.members).lookup part).getD .null = _
  rw [Assoc.lookup_insert_of_ne hpart]
  exact congrArg (·.getD .null) h.member

theorem Carries.get_mergePatch (h : Carries body part content) (old : Json) :
    (old.mergePatch body).get part = (old.get part).mergePatch content := by
  obtain ⟨ms, rfl⟩ := eq_obj_of_member? h.member
  have hmember : ms.lookup part = some content := h.member
  have hnull := Json.isNull_eq_false_iff.2 h.ne_null
  have hlookup : (Json.mergeMembers old.members ms).lookup part =
      Json.patched (old.members.lookup part) (ms.lookup part) := by
    apply Json.lookup_mergeMembers h.nodup
    intro hnone
    exact absurd (Option.some.inj (hmember.symm.trans hnone)) h.ne_null
  change ((Json.mergeMembers old.members ms).lookup part).getD .null = _
  rw [hlookup, hmember, Json.patched, hnull]
  rfl

theorem contents_of_written (key : Key) (hpart : key.kind.part? = some part)
    (hbody : Carries body part content) {j : Json} (hj : Written body .patch (m key) j) :
    contents (m.put key j) = (contents m).write key content := by
  rw [contents_put hpart, Contents.write]
  unfold contents
  rw [hpart, Option.bind_some]
  generalize m key = old at hj
  cases hj with
  | created hentries => rw [hbody.get_withMetadata (part?_ne_metadata hpart)]; rfl
  | patched => rw [hbody.get_mergePatch]; rfl

end Put

section Stages

variable {m : Store}

theorem ensures_upsertContent (kind : Kind) {ns name part : String} {body content : Json}
    (hpart : kind.part? = some part) (hnamed : Named body name)
    (hbody : Carries body part content) :
    (upsertObject .patch kind ns name body).Ensures m fun _ m' =>
      contents m' = (contents m).write ⟨kind, ns, name⟩ content := by
  have hkind : kind ≠ .claims := by
    rintro rfl
    cases hpart
  apply Meets.ensures
  apply meets_upsert hkind hnamed
  intro j hj
  exact contents_of_written ⟨kind, ns, name⟩ hpart hbody hj

theorem ensures_upsert_besides {mode : UpdateMode} {kind : Kind} {ns name : String} {body : Json}
    {creating updating : Action} (hpart : kind.part? = none) (hkind : kind ≠ .claims)
    (hnamed : Named body name) :
    (upsert mode kind ns name body creating updating).Ensures m fun _ m' =>
      contents m' = contents m ∧ ∀ key, key.kind = .ingressRoutes → m' key = m key := by
  apply Meets.ensures
  apply meets_upsert hkind hnamed
  intro j _
  refine ⟨contents_put_of_part?_eq_none hpart j m, ?_⟩
  intro key hkey
  apply Store.put_of_ne
  rintro rfl
  change kind = .ingressRoutes at hkey
  rw [hkey] at hpart
  cases hpart

theorem ensures_claimFor (app : AppName) (service : String) (storage : StorageConfig)
    (path : String) (byType : List (String × Json)) :
    (claimFor app service storage path byType).Ensures m fun _ m' => contents m' = contents m := by
  unfold claimFor
  split
  · rfl
  · apply Ensures.bind
    apply ensures_must (proper_createClaim app service _ _ path)
    intro j m' hs
    apply ensures_ofExcept
    intro claim _
    cases hs with
    | created hname hnew hentries => exact contents_put_of_part?_eq_none rfl _ m

theorem ensures_assignClaims (app : AppName) (service : String) (storage : StorageConfig)
    (paths : List String) (byType : List (String × Json)) :
    (assignClaims app service storage paths byType).Ensures m fun _ m' =>
      contents m' = contents m := by
  induction paths generalizing m byType with
  | nil => rfl
  | cons path paths ih =>
    rw [assignClaims_cons]
    apply Ensures.bind
    apply (ensures_claimFor app service storage path byType).mono
    intro claim m₁ hm₁
    apply Ensures.bind
    apply (ih _).mono
    intro rest m₂ hm₂
    exact hm₂.trans hm₁

theorem ensures_claimsFor (settings : Settings) (app : AppName) (s : DeployableService) :
    (claimsFor settings app s).Ensures m fun _ m' => contents m' = contents m := by
  unfold claimsFor
  split
  · rfl
  · split
    · rfl
    · apply Ensures.bind
      refine ensures_must trivial ?_
      intro j m' hs
      cases hs with
      | listed hkeys =>
        apply Ensures.bind
        apply ensures_ofExcept
        intro byType _
        exact ensures_assignClaims app s.name _ _ byType

theorem ensures_mapM_writeAll {α β : Type} {f : α → Program β} {ws : α → List (Key × Json)}
    {xs : List α} (hstep : ∀ x ∈ xs, ∀ m,
      (f x).Ensures m fun _ m' => contents m' = (contents m).writeAll (ws x)) :
    (xs.mapM f).Ensures m fun _ m' => contents m' = (contents m).writeAll (xs.flatMap ws) := by
  induction xs generalizing m with
  | nil => rfl
  | cons x xs ih =>
    rw [List.mapM_cons]
    apply Ensures.bind
    apply (hstep x (List.mem_cons_self ..) m).mono
    intro y m₁ hm₁
    apply Ensures.bind
    apply (ih fun z hz => hstep z (List.mem_cons_of_mem x hz)).mono
    intro ys m₂ hm₂
    change contents m₂ = _
    rw [hm₂, hm₁, List.flatMap_cons, Contents.writeAll_append]

def fileContents (app : AppName) (s : DeployableService) : List (Key × Json) :=
  if s.files.isEmpty then []
  else [(⟨.secrets, app.namespaceId, app.secretName s.name⟩,
    .ofMap (Secret.ofFiles app s.config).data)]

def middlewareContents (app : AppName) (rs : List Traefik.MiddlewareResource) :
    List (Key × Json) :=
  rs.map fun r => (⟨.middlewares, app.namespaceId, r.metadata.name.getD ""⟩, .obj r.spec)

def routeContents (app : AppName) (s : DeployableService) : List (Key × Json) :=
  middlewareContents app (Traefik.middlewares app s) ++
    (Traefik.ingressRoute? app s).toList.map fun r =>
      (⟨.ingressRoutes, app.namespaceId, app.ingressRouteName s.name⟩, r.spec.toJson)

def serviceContents (app : AppName) (base : Option IngressRoute) (s : DeployableService) :
    List (Key × Json) := fileContents app s ++ routeContents app (placedBehind base s)

theorem ensures_upsertFiles (app : AppName) (s : DeployableService) :
    (upsertFiles app s).Ensures m fun _ m' =>
      contents m' = (contents m).writeAll (fileContents app s) := by
  unfold upsertFiles fileContents
  split
  · rfl
  · apply Ensures.discard
    exact ensures_upsertContent .secrets rfl (named_secret _) (carries_secret _)

theorem ensures_upsertMiddlewares {app : AppName} {rs : List Traefik.MiddlewareResource}
    (hrs : ∀ r ∈ rs, Named r.toJson (r.metadata.name.getD "")) :
    (rs.forM (upsertMiddleware app)).Ensures m fun _ m' =>
      contents m' = (contents m).writeAll (middlewareContents app rs) := by
  induction rs generalizing m with
  | nil => rfl
  | cons r rs ih =>
    have hr := hrs r (List.mem_cons_self ..)
    apply Ensures.bind
    apply Ensures.discard
    apply (ensures_upsertContent .middlewares rfl hr (carries_middleware r)).mono
    intro _ m₁ hm₁
    apply (ih fun r' hr' => hrs r' (List.mem_cons_of_mem r hr')).mono
    intro _ m₂ hm₂
    rw [hm₂, hm₁]
    rfl

theorem routeContents_of_isEmpty {app : AppName} {s : DeployableService}
    (h : s.route.isEmpty = true) : routeContents app s = [] := by
  have hroutes : s.route.routes = [] := List.isEmpty_iff.1 h
  have hinline : s.route.inlineMiddlewares = [] := by
    simp [IngressRoute.inlineMiddlewares, IngressRoute.middlewares, hroutes, IngressRoute.distinct]
  simp [routeContents, middlewareContents, Traefik.middlewares, hinline, Traefik.ingressRoute?, h]

theorem ensures_upsertRoutes (app : AppName) (s : DeployableService) (base : Option IngressRoute) :
    (upsertRoutes app s base).Ensures m fun _ m' =>
      contents m' = (contents m).writeAll (routeContents app (placedBehind base s)) := by
  unfold upsertRoutes
  split
  · next hroute =>
    rw [routeContents_of_isEmpty ((isEmpty_placedBehind base s).trans hroute)]
    rfl
  · next hroute =>
    rw [routeContents]
    obtain ⟨r, hr, hnamed⟩ := exists_ingressRoute app base (Bool.eq_false_iff.2 hroute)
    apply Ensures.bind
    apply (ensures_upsertMiddlewares fun _ h => named_middleware h).mono
    intro _ m₁ hm₁
    unfold upsertIngressRoute
    rw [hr]
    apply Ensures.discard
    apply (ensures_upsertContent .ingressRoutes rfl hnamed (carries_ingressRoute r)).mono
    intro _ m₂ hm₂
    rw [hm₂, hm₁, Contents.writeAll_append]
    rfl

theorem ensures_deployService (settings : Settings) (container : ContainerConfig)
    (now : Timestamp) (app : AppName) (usePullSecret : Bool) (base : Option IngressRoute)
    (s : DeployableService) :
    (deployService settings container now app usePullSecret base s).Ensures m fun _ m' =>
      contents m' = (contents m).writeAll (serviceContents app base s) := by
  unfold deployService
  apply Ensures.bind
  apply (ensures_upsertFiles app s).mono
  intro _ m₁ h₁
  apply Ensures.bind
  apply (ensures_claimsFor settings app s).mono
  intro found m₂ h₂
  apply Ensures.bind
  apply ensures_ofExcept
  intro claims _
  apply Ensures.bind
  apply (ensures_upsert_besides rfl (by decide) (named_deployment _)).mono
  rintro stored m₃ ⟨h₃, -⟩
  apply Ensures.bind
  apply Ensures.discard
  apply (ensures_upsert_besides rfl (by decide) (named_service _)).mono
  rintro _ m₄ ⟨h₄, -⟩
  apply Ensures.bind
  apply (ensures_upsertRoutes app s base).mono
  intro _ m₅ h₅
  apply ensures_ofExcept
  intro r _
  rw [h₅, h₄, h₃, h₂, h₁, serviceContents, Contents.writeAll_append]

/-- The pull secret is not patched but made anew. -/
def pulled (u : DeploymentUnit) (c : Contents) : Contents :=
  if u.needsPullSecret then
    c.put ⟨.secrets, u.app.namespaceId, u.app.pullSecretName⟩
      (.ofMap (Secret.forImagePull u.app u.credentials).data)
  else c

def baseIn (settings : Settings) (m : Store) : Option IngressRoute :=
  settings.runtime.baseIngressRoute.bind fun r =>
    (m ⟨.ingressRoutes, r.namespaceId, r.name⟩).bind fun j => (Traefik.convertJson j).toOption

theorem delete_secret_of_ne {key : Key} {ns name : String} (h : key ≠ ⟨.secrets, ns, name⟩)
    (m : Store) : m.delete ⟨.secrets, ns, name⟩ key = m key := by
  apply if_neg
  rintro (rfl | ⟨hkind, -⟩)
  · exact h rfl
  · cases hkind

theorem ensures_deleteSecret {ns name : String} {action : Action} :
    (may [404] action (.delete .secrets ns name)).Ensures m fun _ m' =>
      ∀ key ≠ ⟨.secrets, ns, name⟩, m' key = m key := by
  refine ensures_may trivial ?_ ?_
  · intro j m' hs
    cases hs with
    | deleted hold => exact fun key hkey => delete_secret_of_ne hkey m
  · intro e m' hs
    cases hs with
    | missing hkey hnone => exact fun key _ => rfl

theorem ensures_replacePullSecret (u : DeploymentUnit) :
    (replacePullSecret u).Ensures m fun _ m' =>
      contents m' = (contents m).put ⟨.secrets, u.app.namespaceId, u.app.pullSecretName⟩
        (.ofMap (Secret.forImagePull u.app u.credentials).data) ∧
      ∀ key, key.kind = .ingressRoutes → m' key = m key := by
  let secret := Secret.forImagePull u.app u.credentials
  apply Ensures.bind
  apply Ensures.discard
  apply ensures_deleteSecret.mono
  intro _ m₁ hm₁
  apply Ensures.discard
  refine ensures_must (.inl ⟨rfl, by decide⟩) ?_
  intro j m₂ hs
  cases hs with
  | created hname hnew hentries =>
    rw [hname rfl]
    change contents (m₁.put ⟨.secrets, u.app.namespaceId, u.app.pullSecretName⟩ _) = _ ∧ _
    constructor
    · have hpart : Kind.secrets.part? = some "data" := rfl
      rw [contents_put hpart, (carries_secret secret).get_withMetadata (by decide)]
      funext key
      by_cases hkey : key = ⟨.secrets, u.app.namespaceId, u.app.pullSecretName⟩
      · rw [hkey, Store.put_self, Store.put_self]
      · rw [Store.put_of_ne hkey, Store.put_of_ne hkey]
        unfold contents
        rw [hm₁ key hkey]
    · rintro ⟨kind, ns, name⟩ hkey
      change kind = .ingressRoutes at hkey
      rw [hkey, Store.put_of_ne (by simp), hm₁ _ (by simp)]

theorem ensures_providePullSecret (u : DeploymentUnit) :
    (providePullSecret u).Ensures m fun _ m' =>
      contents m' = pulled u (contents m) ∧ ∀ key, key.kind = .ingressRoutes → m' key = m key := by
  unfold providePullSecret pulled
  split
  · exact ensures_replacePullSecret u
  · exact ⟨rfl, fun _ _ => rfl⟩

theorem ensures_baseRoute (settings : Settings) :
    (baseRoute settings).Ensures m fun base m' => base = baseIn settings m ∧ m' = m := by
  unfold baseRoute baseIn
  cases settings.runtime.baseIngressRoute with
  | none => exact ⟨rfl, rfl⟩
  | some r =>
    apply Ensures.bind
    refine ensures_may trivial ?_ ?_
    · intro j m' hs
      cases hs with
      | got hold =>
        rw [Option.bind_some, hold]
        exact ⟨rfl, rfl⟩
    · intro e m' hs
      cases hs with
      | missing hkey hnone =>
        cases hkey
        rw [Option.bind_some, hnone]
        exact ⟨rfl, rfl⟩

theorem baseIn_congr {settings : Settings} {m m' : Store}
    (h : ∀ key, key.kind = .ingressRoutes → m' key = m key) :
    baseIn settings m' = baseIn settings m := by
  unfold baseIn
  congr 1
  funext r
  rw [h _ rfl]

theorem ensures_deploy (settings : Settings) (container : ContainerConfig) (now : Timestamp)
    (u : DeploymentUnit) :
    (deploy settings container now u).Ensures m fun _ m' =>
      contents m' = (pulled u (contents m)).writeAll
        (u.services.flatMap (serviceContents u.app (baseIn settings m))) := by
  rw [deploy_eq]
  apply Ensures.bind
  apply Ensures.discard
  apply (ensures_upsert_besides rfl (by decide) (named_namespace _)).mono
  rintro _ m₁ ⟨h₁, hroutes₁⟩
  apply Ensures.bind
  apply (ensures_providePullSecret u).mono
  rintro _ m₂ ⟨h₂, hroutes₂⟩
  apply Ensures.bind
  apply (ensures_baseRoute settings).mono
  rintro base m₃ ⟨rfl, rfl⟩
  have hbase : baseIn settings m₃ = baseIn settings m :=
    (baseIn_congr hroutes₂).trans (baseIn_congr hroutes₁)
  rw [← h₁, ← h₂, hbase]
  apply ensures_mapM_writeAll
  intro s _ m'
  exact ensures_deployService settings container now u.app _ _ s

end Stages

end PreviewApps.Cluster
