import PreviewApps.Proofs.Cluster.ClaimOrder
import PreviewApps.Proofs.Cluster.Planned

/-!
What a completed deployment has done: it has written its plan for the claims that are in use then,
and it answers with the services that it reads from the deployments it has stored.
-/

namespace PreviewApps.Cluster

open Program

def Supplied (settings : Settings) (app : AppName) (v : OrderedStore) (e : Supply) : Prop :=
  ∃ found, Finds settings app v e.1 found ∧ readClaims found = .ok e.2

structure Progress (keeps : Prop) (settings : Settings) (app : AppName)
    (ds : List DeployableService) (ws : List Write) (v v' : OrderedStore) : Prop where
  leaves : Leaves ws v.store v'.store
  grows : Grows app v v'
  idle : (∀ d ∈ ds, ∃ found, Finds settings app v d found) → SameClaims v.store v'.store
  steady : Steady keeps v.store v'.store

def Replied (keeps : Prop) (r : Rollout) (m : Store) (e : Supply) (reply : Option Service) : Prop :=
  ∃ j last, Dressed (r.manifest e) (r.unit.app.deploymentName e.1.name) j ∧
    serviceOf j = .ok reply ∧ m (deploymentKey r.unit.app e.1) = some last ∧
    (keeps → identity last = identity j)

structure Completed (keeps : Prop) (settings : Settings) (r : Rollout)
    (ds : List DeployableService) (ws : List Write) (supplies : List Supply)
    (replies : List (Option Service)) (v v' : OrderedStore) : Prop where
  services : supplies.map (·.1) = ds
  supplied : ∀ e ∈ supplies, Supplied settings r.unit.app v' e
  replied : List.Forall₂ (Replied keeps r v'.store) supplies replies
  progress : Progress keeps settings r.unit.app ds ws v v'

section Parts

variable {keeps : Prop} {settings : Settings} {app : AppName} {ds ds' : List DeployableService}
  {ws ws' : List Write} {v v' v'' : OrderedStore}

theorem Progress.append (h : Progress keeps settings app ds ws v v')
    (h' : Progress keeps settings app ds' ws' v' v'') :
    Progress keeps settings app (ds ++ ds') (ws ++ ws') v v'' := by
  refine ⟨h.leaves.append h'.leaves, h.grows.trans h'.grows, ?_, h.steady.trans h'.steady⟩
  intro hfound
  obtain ⟨hown, hother⟩ := List.forall_mem_append.1 hfound
  apply (h.idle hown).trans
  apply h'.idle
  intro d hd
  obtain ⟨found, hfinds⟩ := hother d hd
  exact ⟨found, hfinds.grows h.grows⟩

theorem Stage.progress (h : Stage keeps ws v.store v'.store) (hv : KeepsOrder v v') :
    Progress keeps settings app [] ws v v' :=
  ⟨h.leaves, h.claims.grows hv, fun _ => h.claims, h.steady⟩

theorem Claiming.progress {d : DeployableService} (h : Claiming app v v')
    (hidle : (∃ old, Finds settings app v d old) → v'.store = v.store) :
    Progress keeps settings app [d] [] v v' := by
  refine ⟨leaves_nil h.besides ?_, h.grows, ?_, steady_of_same ?_⟩
  · intro key hkey
    by_cases hclaims : key.kind = .claims
    · obtain ⟨j, hj⟩ := Option.isSome_iff_exists.1 hkey
      rw [h.grows.kept hclaims hj]
      rfl
    · rwa [h.besides key hclaims]
  · intro hfound key _
    rw [hidle (hfound d (List.mem_singleton_self d))]
  · intro key hkey
    apply h.besides
    rw [hkey]
    decide

theorem Supplied.grows {e : Supply} (h : Supplied settings app v e) (hv : Grows app v v') :
    Supplied settings app v' e := by
  obtain ⟨found, hfound, hread⟩ := h
  exact ⟨found, hfound.grows hv, hread⟩

theorem Supplied.unique (hasymm : ∀ {key key'}, v.before key key' → ¬v.before key' key)
    {e e' : Supply} (h : Supplied settings app v e) (h' : Supplied settings app v e')
    (hservice : e'.1 = e.1) : e' = e := by
  obtain ⟨found, hfound, hread⟩ := h
  obtain ⟨found', hfound', hread'⟩ := h'
  rw [hservice] at hfound'
  rw [hfound.unique hasymm hfound', hread] at hread'
  exact Prod.ext hservice (Except.ok.inj hread').symm

theorem Replied.steady {r : Rollout} {m m' : Store} {e : Supply} {reply : Option Service}
    (h : Replied keeps r m e reply) (hm : Steady keeps m m') : Replied keeps r m' e reply := by
  obtain ⟨j, last, hdressed, hread, hlast, hsame⟩ := h
  obtain ⟨last', hlast', hsame'⟩ := hm _ last rfl hlast
  exact ⟨j, last', hdressed, hread, hlast', fun hkeeps => (hsame' hkeeps).trans (hsame hkeeps)⟩

end Parts

section Deployment

variable {σ : Type} {server : SparingServer σ} {settings : Settings} {r : Rollout}
  {base : Option IngressRoute} {v : OrderedStore}

theorem yields_upsertDeployment (r : Rollout) (e : Supply) {m : Store} :
    (upsertObject .replace .deployments r.unit.app.namespaceId
      (r.unit.app.deploymentName e.1.name) (r.manifest e)).Yields server.interface m fun j m' =>
        Stage server.KeepsIdentity [⟨.replace, deploymentKey r.unit.app e.1, r.manifest e⟩] m m' ∧
        Dressed (r.manifest e) (r.unit.app.deploymentName e.1.name) j ∧
        m' (deploymentKey r.unit.app e.1) = some j := by
  have hbody := headed_deployment r.unit.app e.1 r.container r.unit.needsPullSecret e.2 r.now
  have hspare := (spare_deployment (Deployment.ofService r.unit.app e.1 r.container
    r.unit.needsPullSecret e.2 r.now)).withoutNulls
  apply yields_upsert (by decide) hbody
  intro j hj
  exact ⟨stage_replace hbody hspare rfl hj, hj.dressed hspare, Store.put_self ..⟩

theorem yields_writeService (e : Supply) (hroute : TidyRoute (placedBehind base e.1).route)
    {m : Store} :
    (do
      let stored ← upsertObject .replace .deployments r.unit.app.namespaceId
        (r.unit.app.deploymentName e.1.name) (r.manifest e)
      discard <| upsertObject .patch .services r.unit.app.namespaceId e.1.name
        (ServiceManifest.ofConfig r.unit.app e.1.config).toJson
      upsertRoutes r.unit.app e.1 base
      .ofExcept (serviceOf stored) : Program (Option Service)).Yields server.interface m
        fun reply m' =>
          Stage server.KeepsIdentity
            (⟨.replace, deploymentKey r.unit.app e.1, r.manifest e⟩ ::
              ⟨.patch, ⟨.services, r.unit.app.namespaceId, e.1.name⟩,
                (ServiceManifest.ofConfig r.unit.app e.1.config).toJson⟩ ::
              routeWrites r.unit.app (placedBehind base e.1)) m m' ∧
          Replied server.KeepsIdentity r m' e reply := by
  apply Yields.bind
  apply (yields_upsertDeployment r e).mono
  rintro j m₁ ⟨hdeployment, hdressed, hstored⟩
  apply Yields.bind
  apply Yields.discard
  apply (yields_patch (by decide) (headed_service r.unit.app e.1.config)).mono
  rintro _ m₂ hservice
  apply Yields.bind
  apply (yields_upsertRoutes r.unit.app hroute).mono
  rintro _ m₃ hroutes
  apply yields_ofExcept
  intro reply hreply
  have hlast := hservice.append hroutes
  have hreplied : Replied server.KeepsIdentity r m₁ e reply :=
    ⟨j, j, hdressed, hreply, hstored, fun _ => rfl⟩
  exact ⟨hdeployment.append hlast, hreplied.steady hlast.steady⟩

theorem yields_deployService {d : DeployableService} (hd : Selectable settings d)
    (hroute : TidyRoute (placedBehind base d).route) :
    (deployService settings r.container r.now r.unit.app r.unit.needsPullSecret base d).Yields
      server.ordered v fun reply v' => ∃ claims,
        Supplied settings r.unit.app v' (d, claims) ∧
        Replied server.KeepsIdentity r v'.store (d, claims) reply ∧
        Progress server.KeepsIdentity settings r.unit.app [d] (serviceWrites r base (d, claims))
          v v' := by
  apply Yields.bind
  apply (SparingServer.yields_ordered (yields_upsertFiles r.unit.app d)).mono
  rintro _ v₁ ⟨hfiles, horder₁⟩
  apply Yields.bind
  apply (yields_claimsFor hd).mono
  rintro found v₂ ⟨hclaiming, hfound, hidle⟩
  apply Yields.bind
  apply yields_ofExcept
  intro claims hread
  apply (SparingServer.yields_ordered (yields_writeService (d, claims) hroute)).mono
  rintro reply v₃ ⟨⟨hrest, hreplied⟩, horder₃⟩
  have hgrows : Grows r.unit.app v₂ v₃ := hrest.claims.grows horder₃
  refine ⟨claims, ⟨found, hfound.grows hgrows, hread⟩, hreplied, ?_⟩
  have hclaims := (hclaiming.progress hidle).append (hrest.progress horder₃)
  exact (hfiles.progress horder₁).append hclaims

theorem yields_deployServices {ds : List DeployableService}
    (hds : ∀ d ∈ ds, Selectable settings d)
    (hroutes : ∀ d ∈ ds, TidyRoute (placedBehind base d).route) :
    (ds.mapM (deployService settings r.container r.now r.unit.app r.unit.needsPullSecret
      base)).Yields server.ordered v fun replies v' => ∃ supplies,
        Completed server.KeepsIdentity settings r ds (supplies.flatMap (serviceWrites r base))
          supplies replies v v' := by
  induction ds generalizing v with
  | nil =>
    have hidle : Progress server.KeepsIdentity settings r.unit.app [] [] v v :=
      (Stage.refl _ v.store).progress fun _ _ => id
    exact ⟨[], rfl, fun e he => absurd he List.not_mem_nil, .nil, hidle⟩
  | cons d ds ih =>
    obtain ⟨hd, hds⟩ := List.forall_mem_cons.1 hds
    obtain ⟨hroute, hroutes⟩ := List.forall_mem_cons.1 hroutes
    rw [List.mapM_cons]
    apply Yields.bind
    apply (yields_deployService hd hroute).mono
    rintro reply v₁ ⟨claims, hsupplied, hreplied, hprogress⟩
    apply Yields.bind
    apply (ih hds hroutes).mono
    rintro replies v₂ ⟨supplies, hrest⟩
    refine ⟨(d, claims) :: supplies, ?_, ?_, ?_, hprogress.append hrest.progress⟩
    · rw [List.map_cons, hrest.services]
    · exact List.forall_mem_cons.2 ⟨hsupplied.grows hrest.progress.grows, hrest.supplied⟩
    · exact .cons (hreplied.steady hrest.progress.steady) hrest.replied

theorem yields_rollOut (hannotations : (settings.namespaceAnnotations.map (·.1)).Nodup)
    (hunit : TidyUnit r.unit) (hclaims : ∀ d ∈ r.unit.services, Selectable settings d) :
    (rollOut settings r).Yields server.ordered v fun replies v' => ∃ supplies,
      Completed server.KeepsIdentity settings r r.unit.services
        (rolloutWrites settings r (baseIn settings v.store) supplies) supplies replies v v' := by
  rw [rollOut, deploy_eq]
  apply Yields.bind
  apply Yields.discard
  apply (SparingServer.yields_ordered
    (yields_patch (by decide) (headed_namespace r.unit.app hannotations))).mono
  rintro _ v₁ ⟨hnamespace, horder₁⟩
  apply Yields.bind
  apply (SparingServer.yields_ordered (yields_providePullSecret r.unit)).mono
  rintro _ v₂ ⟨hpull, horder₂⟩
  apply Yields.bind
  apply (SparingServer.yields_ordered (yields_baseRoute settings)).mono
  rintro base v₃ ⟨⟨rfl, hsame⟩, horder₃⟩
  -- the namespace and the pull secret are no routes, so the base route is still that of the start
  have hbase : baseIn settings v₂.store = baseIn settings v.store := by
    apply baseIn_congr
    intro key hkey
    apply (hnamespace.append hpull).leaves.others
    · rw [hkey]
      decide
    · intro w hw hwritten
      rw [hwritten] at hkey
      rcases List.mem_append.1 hw with hw | hw
      · rw [List.mem_singleton.1 hw] at hkey
        cases hkey
      · rw [(mem_pullWrites_iff.1 hw).2] at hkey
        cases hkey
  rw [hbase]
  have hroutes : ∀ d ∈ r.unit.services,
      TidyRoute (placedBehind (baseIn settings v.store) d).route :=
    fun d hd => tidyRoute_placedBehind (hunit d hd) tidyRoute_of_mem_baseIn
  apply (yields_deployServices hclaims hroutes).mono
  rintro replies v₄ ⟨supplies, hcompleted⟩
  have hread : Stage server.KeepsIdentity [] v₂.store v₃.store := by
    rw [hsame]
    exact Stage.refl _ v₂.store
  have hservices := (hread.progress horder₃).append hcompleted.progress
  refine ⟨supplies, hcompleted.services, hcompleted.supplied, hcompleted.replied, ?_⟩
  exact (hnamespace.progress horder₁).append ((hpull.progress horder₂).append hservices)

end Deployment

end PreviewApps.Cluster
