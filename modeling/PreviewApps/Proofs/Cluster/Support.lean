import PreviewApps.Proofs.Cluster.Claims
import PreviewApps.Proofs.Cluster.Stages
import PreviewApps.Proofs.Cluster.Writes

/-!
The support of a deployment: the pull secret, the secret with its files, its claims, the service in
front of it and its routes. Whatever the server answers, none of them fails.
-/

namespace PreviewApps.Cluster

open Program

theorem meets_deleteSecret {ns name : String} (m : Store) {action : Action} :
    (may [404] action (.delete .secrets ns name)).Meets m fun _ m' =>
      Untouched m m' ∧ m' ⟨.secrets, ns, name⟩ = none := by
  have hkind : Kind.IsSupport .secrets := by decide
  refine meets_may_of_target trivial rfl ?_ fun hnone => ⟨Untouched.refl m, hnone⟩
  intro j m' hs
  cases hs with
  | deleted hold => exact ⟨untouched_delete hkind m, if_pos (.inl rfl)⟩

theorem meets_replacePullSecret (u : DeploymentUnit) (m : Store) :
    (replacePullSecret u).Meets m fun _ m' => Untouched m m' := by
  let secret := Secret.forImagePull u.app u.credentials
  have hkind : Kind.IsSupport .secrets := by decide
  refine Meets.bind (Meets.discard ((meets_deleteSecret m).mono ?_))
  rintro - m₁ ⟨hm₁, hfree⟩
  refine Meets.discard (meets_must (.inl ⟨rfl, by decide⟩) ?_)
  intro a m₂ hs
  cases hs with
  | created hname hnew hentries => exact ⟨_, rfl, hm₁.trans (untouched_put hkind _ m₁)⟩
  | conflict hname hold =>
    have htaken : m₁ ⟨.secrets, secret.namespaceId, secret.name⟩ = some _ := hold
    rw [hfree] at htaken
    cases htaken
  | missing hkey hnone => cases hkey

theorem meets_providePullSecret (u : DeploymentUnit) (m : Store) :
    (providePullSecret u).Meets m fun _ m' => Untouched m m' := by
  unfold providePullSecret
  split
  · exact meets_replacePullSecret u m
  · exact Untouched.refl m

theorem meets_baseRoute (settings : Settings) (m : Store) :
    (baseRoute settings).Meets m fun _ m' => Untouched m m' := by
  unfold baseRoute
  split
  · exact Untouched.refl m
  · refine Meets.bind (meets_may_of_target trivial rfl ?_ fun _ => Untouched.refl m)
    intro j m' hs
    cases hs with
    | got hold => exact Untouched.refl m

theorem meets_upsertFiles (app : AppName) (s : DeployableService) (m : Store) :
    (upsertFiles app s).Meets m fun _ m' => Untouched m m' := by
  unfold upsertFiles
  split
  · exact Untouched.refl m
  · exact Meets.discard (meets_upsertObject m (by decide) (by decide) (named_secret _))

theorem meets_upsertMiddlewares {app : AppName} {ms : List Traefik.MiddlewareResource} (m : Store)
    (hms : ∀ r ∈ ms, Named r.toJson (r.metadata.name.getD "")) :
    (ms.forM (upsertMiddleware app)).Meets m fun _ m' => Untouched m m' := by
  induction ms generalizing m with
  | nil => exact Untouched.refl m
  | cons r ms ih =>
    have hr := hms r (List.mem_cons_self ..)
    refine Meets.bind (Meets.discard ((meets_upsertObject m (by decide) (by decide) hr).mono ?_))
    intro _ m₁ hm₁
    have hrest := ih m₁ fun r' hr' => hms r' (List.mem_cons_of_mem r hr')
    exact hrest.mono fun _ m₂ hm₂ => hm₁.trans hm₂

theorem meets_upsertRoutes (app : AppName) (s : DeployableService) (base : Option IngressRoute)
    (m : Store) : (upsertRoutes app s base).Meets m fun _ m' => Untouched m m' := by
  unfold upsertRoutes
  split
  · exact Untouched.refl m
  · next hroute =>
    obtain ⟨r, hr, hnamed⟩ := exists_ingressRoute app base (Bool.eq_false_iff.2 hroute)
    refine Meets.bind ((meets_upsertMiddlewares m fun _ h => named_middleware h).mono ?_)
    intro _ m₁ hm₁
    unfold upsertIngressRoute
    rw [hr]
    refine Meets.discard ((meets_upsertObject m₁ (by decide) (by decide) hnamed).mono ?_)
    exact fun _ m₂ hm₂ => hm₁.trans hm₂

theorem meets_upsertService (app : AppName) (config : ServiceConfig) (m : Store) :
    (upsertObject .patch .services app.namespaceId config.serviceName
      (ServiceManifest.ofConfig app config).toJson).Meets m fun _ m' => Untouched m m' :=
  meets_upsertObject m (by decide) (by decide) (named_service (ServiceManifest.ofConfig app config))

theorem exists_piece (sep : Char) (cs : List Char) : ∃ p, p ∈ Text.pieces sep cs := by
  cases cs with
  | nil => exact ⟨[], List.mem_cons_self ..⟩
  | cons c r =>
    rw [Text.pieces]
    split
    · exact ⟨[], List.mem_cons_self ..⟩
    · split
      · exact ⟨_, List.mem_cons_self ..⟩
      · exact ⟨_, List.mem_cons_self ..⟩

theorem eq_obj_of_member? {j v : Json} {key : String} (h : j.member? key = some v) :
    ∃ ms, j = .obj ms := by
  cases j with
  | obj ms => exact ⟨ms, rfl⟩
  | _ => cases h

theorem isReadable_of_selects {selector : String} {j : Json} (h : Server.selects selector j) :
    IsReadable j := by
  obtain ⟨part, hpart⟩ := exists_piece ',' selector.toList
  have hmeets := List.all_eq_true.1 h part hpart
  have hmember : ∃ key v, (j.path ["metadata", "labels"]).member? key = some v := by
    unfold Server.meets at hmeets
    split at hmeets
    · next k v hcut =>
      obtain ⟨l, hl, -⟩ := Option.bind_eq_some_iff.1 (eq_of_beq hmeets)
      exact ⟨_, l, hl⟩
    · exact ⟨_, Option.isSome_iff_exists.1 hmeets⟩
  obtain ⟨key, v, hv⟩ := hmember
  obtain ⟨labels, hlabels⟩ := eq_obj_of_member? hv
  obtain ⟨metadata, hmetadata, hown⟩ := Json.lookup_of_get_eq_obj hlabels
  obtain ⟨ms, rfl, hms⟩ := Json.lookup_of_get_eq_obj hmetadata
  refine ⟨ms, metadata, rfl, hms, .inr ⟨labels, ?_⟩⟩
  rw [member, hown]
  rfl

theorem isReadable_created {manifest : ClaimManifest} {name : String}
    {entries : List (String × Json)} (h : Assigned entries) :
    IsReadable (Server.withMetadata (("name", .str name) :: entries) manifest.toJson) := by
  have hforeign : ∀ e ∈ ("name", Json.str name) :: entries, e.1 ≠ "labels" := by
    intro e he
    rcases List.mem_cons.1 he with rfl | he
    · simp
    · intro hlabels
      exact h.foreign e he (hlabels ▸ by decide)
  refine ⟨_, _, rfl, Assoc.lookup_insert_self .., .inr ⟨(Json.ofMap manifest.labels).members, ?_⟩⟩
  rw [member, Assoc.lookup_foldl_insert_of_ne hforeign]
  rfl

theorem proper_createClaim (app : AppName) (service : String) (size : Int)
    (className path : String) :
    (Call.create .claims app.namespaceId
      (ClaimManifest.ofVolume app service size className path).toJson).Proper := by
  refine .inr ⟨app.namespaceId ++ "-" ++ service ++ "-pvc", ?_, rfl⟩
  have hend : "-pvc-" = "-pvc" ++ "-" := by decide
  have hstem : app.claimNameStem service = app.namespaceId ++ "-" ++ service ++ "-pvc" ++ "-" := by
    simp only [AppName.claimNameStem, hend, String.append_assoc]
  exact congrArg some hstem

theorem meets_createClaim (app : AppName) (service : String) (size : Int)
    (className path : String) (m : Store) :
    (must (.createClaim path) (.create .claims app.namespaceId
      (ClaimManifest.ofVolume app service size className path).toJson)).Meets m fun claim m' =>
        Untouched m m' ∧ IsReadable claim := by
  refine meets_must (proper_createClaim app service size className path) ?_
  intro a m' hs
  cases hs with
  | created hname hnew hentries =>
    have hkind : Kind.IsSupport .claims := by decide
    exact ⟨_, rfl, untouched_put hkind _ m, isReadable_created hentries⟩
  | conflict hname hold => cases hname
  | missing hkey hnone => cases hkey

theorem meets_claimFor (app : AppName) (service : String) (storage : StorageConfig) (path : String)
    (m : Store) {byType : List (String × Json)} (h : ∀ e ∈ byType, IsReadable e.2) :
    (claimFor app service storage path byType).Meets m fun claim m' =>
      Untouched m m' ∧ IsReadable claim := by
  unfold claimFor
  cases hfound : byType.lookup (ClaimManifest.storageTypeOf path) with
  | some claim => exact ⟨Untouched.refl m, h _ (Assoc.mem_of_lookup hfound)⟩
  | none =>
    refine Meets.bind ((meets_createClaim app service _ _ path m).mono ?_)
    rintro claim m₁ ⟨hm₁, hclaim⟩
    exact meets_ofExcept hclaim.checkCreated ⟨hm₁, hclaim⟩

theorem meets_assignClaims (app : AppName) (service : String) (storage : StorageConfig)
    (paths : List String) (m : Store) {byType : List (String × Json)}
    (h : ∀ e ∈ byType, IsReadable e.2) :
    (assignClaims app service storage paths byType).Meets m fun claims m' =>
      Untouched m m' ∧ ∀ e ∈ claims, IsReadable e.2 := by
  induction paths generalizing m byType with
  | nil => exact ⟨Untouched.refl m, fun e he => absurd he List.not_mem_nil⟩
  | cons path paths ih =>
    rw [assignClaims_cons]
    refine Meets.bind ((meets_claimFor app service storage path m h).mono ?_)
    rintro claim m₁ ⟨hm₁, hclaim⟩
    -- the claim also serves the paths of its type that follow
    refine Meets.bind ((ih m₁ (forall_mem_insertNew h hclaim)).mono ?_)
    rintro rest m₂ ⟨hm₂, hreadable⟩
    exact ⟨hm₁.trans hm₂, List.forall_mem_cons.2 ⟨hclaim, hreadable⟩⟩

theorem meets_claimsFor (settings : Settings) (app : AppName) (s : DeployableService) (m : Store) :
    (claimsFor settings app s).Meets m fun claims m' =>
      Untouched m m' ∧ ∀ e ∈ claims, IsReadable e.2 := by
  have hempty : ∀ e ∈ ([] : List (String × Json)), IsReadable e.2 :=
    fun e he => absurd he List.not_mem_nil
  unfold claimsFor
  split
  · exact ⟨Untouched.refl m, hempty⟩
  · split
    · exact ⟨Untouched.refl m, hempty⟩
    · refine Meets.bind (meets_must trivial ?_)
      intro a m' hs
      cases hs with
      | missing hkey hnone => cases hkey
      | @listed _ _ _ keys hkeys =>
        have hreadable : ∀ c ∈ (Json.arr (keys.filterMap m)).items, IsReadable c := by
          intro c hc
          obtain ⟨key, hkey, hstored⟩ := List.mem_filterMap.1 hc
          obtain ⟨-, j, hj, hselects⟩ := (hkeys.mem_iff key).1 hkey
          rw [hj] at hstored
          cases hstored
          exact isReadable_of_selects hselects
        obtain ⟨byType, hbyType⟩ := exists_claimsByType hreadable
        have hall := forall_mem_claimsByType hreadable hbyType
        refine ⟨_, rfl, Meets.bind (meets_ofExcept hbyType ?_)⟩
        exact meets_assignClaims app s.name _ _ m hall

theorem meets_deployService_of_written {settings : Settings} {container : ContainerConfig}
    {now : Timestamp} {app : AppName} {usePullSecret : Bool} {base : Option IngressRoute}
    {s : DeployableService} {m : Store} {Q : Option Service → Store → Prop}
    (hwritten : ∀ claims m₁ j m₂, Untouched m m₁ →
      Written (Deployment.ofService app s container usePullSecret claims now).toJson .replace
        (m₁ ⟨.deployments, app.namespaceId, app.deploymentName s.name⟩) j →
      Untouched (m₁.put ⟨.deployments, app.namespaceId, app.deploymentName s.name⟩ j) m₂ →
      ∃ r, serviceOf j = .ok r ∧ Q r m₂) :
    (deployService settings container now app usePullSecret base s).Meets m Q := by
  unfold deployService
  refine Meets.bind ((meets_upsertFiles app s m).mono ?_)
  intro _ m₁ h₁
  refine Meets.bind ((meets_claimsFor settings app s m₁).mono ?_)
  rintro found m₂ ⟨h₂, hreadable⟩
  obtain ⟨claims, hclaims⟩ := exists_readClaims hreadable
  refine Meets.bind (meets_ofExcept hclaims ?_)
  refine Meets.bind (meets_upsert (by decide) (named_deployment _) ?_)
  intro j hj
  refine Meets.bind (Meets.discard ((meets_upsertService app s.config _).mono ?_))
  intro _ m₄ h₄
  refine Meets.bind ((meets_upsertRoutes app s base m₄).mono ?_)
  intro _ m₅ h₅
  obtain ⟨r, hr, hQ⟩ := hwritten claims m₂ j m₅ (h₁.trans h₂) hj (Untouched.trans h₄ h₅)
  exact meets_ofExcept hr hQ

theorem meets_deploy_of_services {settings : Settings} {container : ContainerConfig}
    {now : Timestamp} {u : DeploymentUnit} {m : Store} {Q : List (Option Service) → Store → Prop}
    (hservices : ∀ j base m', Untouched (m.put ⟨.namespaces, "", u.app.namespaceId⟩ j) m' →
      (u.services.mapM (deployService settings container now u.app u.needsPullSecret base)).Meets
        m' Q) :
    (deploy settings container now u).Meets m Q := by
  rw [deploy_eq]
  refine Meets.bind (Meets.discard (meets_upsert (by decide) (named_namespace _) ?_))
  intro j _
  refine Meets.bind ((meets_providePullSecret u _).mono ?_)
  intro _ m₁ h₁
  refine Meets.bind ((meets_baseRoute settings m₁).mono ?_)
  exact fun base m₂ h₂ => hservices j base m₂ (h₁.trans h₂)

end PreviewApps.Cluster
