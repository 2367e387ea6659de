import PreviewApps.Proofs.Agreement
import PreviewApps.Proofs.Cluster.History

/-!
A deployment under every pattern of failures. Objects that exist are updated, missing ones that are
not needed are passed over, and the first failure of any other kind ends the deployment.
-/

namespace PreviewApps.Cluster

open Program

namespace Call

/-- The update in place of a creation, where the object exists already. Claims get names of their
own, and an immutable secret cannot be updated. -/
def update? : Call → Option Call
  | .create kind ns body =>
    match kind with
    | .claims => none
    | .deployments => some (.replace kind ns (givenName body) body)
    | .secrets =>
      if (body.get "immutable").truthy then none else some (.patch kind ns (givenName body) body)
    | _ => some (.patch kind ns (givenName body) body)
  | _ => none

def isUpdate : Call → Bool
  | .patch .. => true
  | .replace .. => true
  | _ => false

def Absorbs : Call → Int → Prop
  | .create kind ns body, status => status = 409 ∧ ((create kind ns body).update?).isSome
  | .delete .secrets _ _, status => status = 404
  | .get .ingressRoutes _ _, status => status = 404
  | _, _ => False

end Call

/-- A written object comes back: the server leaves what the manifest says and may add to it. -/
structure Echoes (body j : Json) : Prop where
  members : ∀ k v, k ≠ "metadata" → body.member? k = some v → j.member? k = some v
  metadata : ∃ own, j.member? "metadata" = some (.obj own) ∧
    (∀ k ∈ writtenKeys, ∀ v, (body.get "metadata").member? k = some v → own.lookup k = some v) ∧
    ∃ t, startOf own = .ok t

/-- What is assumed of the answers: failures may have any status, written objects come back, and
listed ones are well-formed. -/
def Expected : Exchange → Prop
  | (.create _ _ body, .ok j) => Echoes body j
  | (.replace _ _ _ body, .ok j) => Echoes body j
  | (.list .., .ok j) => ∀ item ∈ j.items, IsReadable item
  | _ => True

def owes : Exchange → Option Call
  | (c, .error e) => if e.status = 409 then c.update? else none
  | _ => none

def owed (h : History) : Option Call := h.getLast?.bind owes

def Absorbed (h : History) : Prop := ∀ c e, (c, .error e) ∈ h → c.Absorbs e.status

structure Settled (h : History) : Prop where
  absorbed : Absorbed h
  owed : owed h = none

/-- Updates are made exactly when they are due, and only a failure that is not absorbed ends a
deployment. -/
def handling : Contract where
  expects := Expected
  before h c := Absorbed h ∧ owed h = if c.isUpdate then some c else none
  faulty h f := ∃ past c e action, h = past ++ [(c, .error e)] ∧ Absorbed past ∧
    ¬c.Absorbs e.status ∧ f = .api action e

variable {h : History} {c : Call} {a : Answer} {action : Action}

theorem owed_concat (h : History) (x : Exchange) : owed (h ++ [x]) = owes x := by
  rw [owed, List.getLast?_concat]
  rfl

theorem settled_nil : Settled [] := ⟨fun _ _ hmem => absurd hmem List.not_mem_nil, rfl⟩

theorem Absorbed.concat (hh : Absorbed h) (ha : ∀ e, a = .error e → c.Absorbs e.status) :
    Absorbed (h ++ [(c, a)]) :=
  forall_error_concat hh ha

theorem Settled.concat_ok (hh : Settled h) (j : Json) : Settled (h ++ [(c, .ok j)]) := by
  refine ⟨hh.absorbed.concat fun e he => ?_, owed_concat ..⟩
  cases he

theorem Settled.concat_missing (hh : Settled h) {e : ApiError} (he : e.status = 404)
    (hc : c.Absorbs 404) : Settled (h ++ [(c, .error e)]) := by
  constructor
  · refine hh.absorbed.concat ?_
    rintro _ ⟨⟩
    rw [he]
    exact hc
  · rw [owed_concat, owes, if_neg (by rw [he]; decide)]

theorem faulty_of_not_absorbs (hh : Absorbed h) {e : ApiError} (he : ¬c.Absorbs e.status) :
    handling.faulty (h ++ [(c, .error e)]) (.api action e) :=
  ⟨h, c, e, action, rfl, hh, he, rfl⟩

theorem Settled.before (hh : Settled h) (hc : c.isUpdate = false) : handling.before h c := by
  refine ⟨hh.absorbed, ?_⟩
  rw [hh.owed, hc]
  rfl

theorem handles_needed (hh : Settled h) (hc : c.isUpdate = false)
    (habsorbs : ∀ status, ¬c.Absorbs status) :
    (must action c).Honours handling h fun h' j => Settled h' ∧ Expected (c, .ok j) := by
  refine honours_must (hh.before hc) ?_ ?_
  · exact fun j hj => ⟨hh.concat_ok j, hj⟩
  · exact fun e => faulty_of_not_absorbs hh.absorbed (habsorbs e.status)

theorem handles_optional (hh : Settled h) (hc : c.isUpdate = false)
    (habsorbs : ∀ status, c.Absorbs status ↔ status = 404) :
    (may [404] action c).Honours handling h fun h' _ => Settled h' := by
  refine honours_may (hh.before hc) ?_ ?_ ?_
  · exact fun j _ => hh.concat_ok j
  · intro e he
    exact hh.concat_missing (List.mem_singleton.1 he) ((habsorbs 404).2 rfl)
  · intro e he
    refine faulty_of_not_absorbs hh.absorbed ?_
    rw [habsorbs]
    exact fun hstatus => he (List.mem_singleton.2 hstatus)

theorem isUpdate_updateCall (mode : UpdateMode) (kind : Kind) (ns name : String) (body : Json) :
    (updateCall mode kind ns name body).isUpdate = true := by
  cases mode <;> rfl

theorem not_absorbs_updateCall (mode : UpdateMode) (kind : Kind) (ns name : String) (body : Json)
    (status : Int) : ¬(updateCall mode kind ns name body).Absorbs status := by
  cases mode <;> exact id

theorem echoes_of_expected_updateCall {mode : UpdateMode} {kind : Kind} {ns name : String}
    {body j : Json} (h : Expected (updateCall mode kind ns name body, .ok j))
    (hmode : mode = .replace) : Echoes body j := by
  subst hmode
  exact h

theorem handles_upsert {mode : UpdateMode} {kind : Kind} {ns name : String} {body : Json}
    {creating updating : Action} (hh : Settled h)
    (hupdate : (Call.create kind ns body).update? = some (updateCall mode kind ns name body)) :
    (upsert mode kind ns name body creating updating).Honours handling h fun h' j =>
      Settled h' ∧ (mode = .replace → Echoes body j) := by
  have habsorbs : ∀ status, (Call.create kind ns body).Absorbs status ↔ status = 409 := by
    intro status
    rw [Call.Absorbs, hupdate, Option.isSome_some]
    exact and_iff_left rfl
  apply honours_createOrUpdate (hh.before rfl)
  · exact fun j hj => ⟨hh.concat_ok j, fun _ => hj⟩
  · intro e hconflict
    have habsorbed : Absorbed (h ++ [(.create kind ns body, .error e)]) := by
      refine hh.absorbed.concat ?_
      rintro _ ⟨⟩
      exact (habsorbs e.status).2 hconflict
    have howed : owed (h ++ [(.create kind ns body, .error e)]) =
        some (updateCall mode kind ns name body) := by
      rw [owed_concat, owes, if_pos hconflict, hupdate]
    refine honours_must ⟨habsorbed, ?_⟩ ?_ ?_
    · rw [howed, isUpdate_updateCall]
      rfl
    · intro j hj
      refine ⟨⟨habsorbed.concat fun e he => ?_, owed_concat ..⟩, echoes_of_expected_updateCall hj⟩
      cases he
    · intro e'
      have hlast := not_absorbs_updateCall mode kind ns name body e'.status
      exact faulty_of_not_absorbs habsorbed hlast
  · intro e hother
    exact faulty_of_not_absorbs hh.absorbed fun habsorb => hother ((habsorbs e.status).1 habsorb)

theorem handles_upsertNamespace (settings : Settings) (app : AppName) (hh : Settled h) :
    (upsertNamespace settings app).Honours handling h fun h' _ => Settled h' := by
  have hnamed := named_namespace (NamespaceManifest.ofApp app settings)
  refine Honours.discard ((handles_upsert hh ?_).mono fun _ _ hpost => hpost.1)
  show some (Call.patch .namespaces "" (givenName _) _) = some (.patch .namespaces "" _ _)
  rw [hnamed.given]

theorem handles_upsertObject {kind : Kind} {ns name : String} {body : Json} (hh : Settled h)
    (hbody : Named body name)
    (hkind : kind ∈ [.secrets, .services, .middlewares, .ingressRoutes])
    (hmutable : (body.get "immutable").truthy = false) :
    (Functor.discard (upsertObject .patch kind ns name body)).Honours handling h
      fun h' _ => Settled h' := by
  refine Honours.discard ((handles_upsert hh ?_).mono fun _ _ hpost => hpost.1)
  rw [updateCall, ← hbody.given]
  simp only [List.mem_cons, List.not_mem_nil, or_false] at hkind
  rcases hkind with rfl | rfl | rfl | rfl
  · rw [Call.update?, hmutable]
    rfl
  · rfl
  · rfl
  · rfl

theorem handles_replacePullSecret (u : DeploymentUnit) (hh : Settled h) :
    (replacePullSecret u).Honours handling h fun h' _ => Settled h' := by
  refine Honours.bind (Honours.discard ?_)
  refine (handles_optional hh rfl fun _ => Iff.rfl).mono ?_
  intro h₁ _ hh₁
  refine Honours.discard ((handles_needed hh₁ rfl ?_).mono fun _ _ hpost => hpost.1)
  rintro status ⟨-, hsome⟩
  cases hsome

theorem handles_providePullSecret (u : DeploymentUnit) (hh : Settled h) :
    (providePullSecret u).Honours handling h fun h' _ => Settled h' := by
  unfold providePullSecret
  split
  · exact handles_replacePullSecret u hh
  · exact hh

theorem handles_baseRoute (settings : Settings) (hh : Settled h) :
    (baseRoute settings).Honours handling h fun h' _ => Settled h' := by
  unfold baseRoute
  split
  · exact hh
  · refine Honours.bind ((handles_optional hh rfl fun _ => Iff.rfl).mono ?_)
    intro h₁ j hh₁
    cases j with
    | none => exact hh₁
    | some j => exact hh₁

theorem handles_upsertFiles (app : AppName) (s : DeployableService) (hh : Settled h) :
    (upsertFiles app s).Honours handling h fun h' _ => Settled h' := by
  unfold upsertFiles
  split
  · exact hh
  · exact handles_upsertObject hh (named_secret _) (by decide) rfl

theorem isReadable_of_echoes {manifest : ClaimManifest} {j : Json}
    (hj : Echoes manifest.toJson j) : IsReadable j := by
  obtain ⟨own, hown, hkept, -⟩ := hj.metadata
  obtain ⟨ms, rfl⟩ := eq_obj_of_member? hown
  have hlabels : own.lookup "labels" = some (.ofMap manifest.labels) :=
    hkept "labels" (by decide) _ rfl
  refine ⟨ms, own, rfl, hown, .inr ⟨(Json.ofMap manifest.labels).members, ?_⟩⟩
  rw [member, hlabels]
  rfl

theorem handles_claimFor (app : AppName) (service : String) (storage : StorageConfig)
    (path : String) {byType : List (String × Json)} (hh : Settled h)
    (hbyType : ∀ e ∈ byType, IsReadable e.2) :
    (claimFor app service storage path byType).Honours handling h fun h' claim =>
      Settled h' ∧ IsReadable claim := by
  unfold claimFor
  cases hfound : byType.lookup (ClaimManifest.storageTypeOf path) with
  | some claim => exact ⟨hh, hbyType _ (Assoc.mem_of_lookup hfound)⟩
  | none =>
    have hcreate : ∀ status, ¬(Call.create .claims app.namespaceId (ClaimManifest.ofVolume app
        service storage.size storage.className path).toJson).Absorbs status := by
      rintro status ⟨-, hsome⟩
      cases hsome
    refine Honours.bind ((handles_needed hh rfl hcreate).mono ?_)
    rintro h₁ claim ⟨hh₁, hecho⟩
    have hclaim := isReadable_of_echoes hecho
    exact honours_ok hclaim.checkCreated ⟨hh₁, hclaim⟩

theorem handles_assignClaims (app : AppName) (service : String) (storage : StorageConfig)
    (paths : List String) {byType : List (String × Json)} (hh : Settled h)
    (hbyType : ∀ e ∈ byType, IsReadable e.2) :
    (assignClaims app service storage paths byType).Honours handling h fun h' claims =>
      Settled h' ∧ ∀ e ∈ claims, IsReadable e.2 := by
  induction paths generalizing h byType with
  | nil => exact ⟨hh, fun e he => absurd he List.not_mem_nil⟩
  | cons path paths ih =>
    rw [assignClaims_cons]
    refine Honours.bind ((handles_claimFor app service storage path hh hbyType).mono ?_)
    rintro h₁ claim ⟨hh₁, hclaim⟩
    refine Honours.bind ((ih hh₁ (forall_mem_insertNew hbyType hclaim)).mono ?_)
    rintro h₂ rest ⟨hh₂, hreadable⟩
    exact ⟨hh₂, List.forall_mem_cons.2 ⟨hclaim, hreadable⟩⟩

theorem handles_claimsFor (settings : Settings) (app : AppName) (s : DeployableService)
    (hh : Settled h) :
    (claimsFor settings app s).Honours handling h fun h' claims =>
      Settled h' ∧ ∀ e ∈ claims, IsReadable e.2 := by
  have hempty : ∀ e ∈ ([] : List (String × Json)), IsReadable e.2 :=
    fun e he => absurd he List.not_mem_nil
  unfold claimsFor
  split
  · exact ⟨hh, hempty⟩
  · split
    · exact ⟨hh, hempty⟩
    · refine Honours.bind ((handles_needed hh rfl fun _ => id).mono ?_)
      rintro h₁ found ⟨hh₁, hitems⟩
      obtain ⟨byType, hbyType⟩ := exists_claimsByType hitems
      have hreadable := forall_mem_claimsByType hitems hbyType
      exact Honours.bind (honours_ok hbyType (handles_assignClaims app s.name _ _ hh₁ hreadable))

theorem handles_upsertMiddlewares {app : AppName} {ms : List Traefik.MiddlewareResource}
    (hms : ∀ m ∈ ms, Named m.toJson (m.metadata.name.getD "")) (hh : Settled h) :
    (ms.forM (upsertMiddleware app)).Honours handling h fun h' _ => Settled h' := by
  refine honours_forM (I := fun _ => Settled) ?_ hh
  intro _ m hm h hh
  exact handles_upsertObject hh (hms m hm) (by decide) rfl

theorem handles_upsertRoutes (app : AppName) (s : DeployableService) (base : Option IngressRoute)
    (hh : Settled h) : (upsertRoutes app s base).Honours handling h fun h' _ => Settled h' := by
  unfold upsertRoutes
  split
  · exact hh
  · next hroute =>
    obtain ⟨r, hr, hnamed⟩ := exists_ingressRoute app base (Bool.eq_false_iff.2 hroute)
    refine Honours.bind ((handles_upsertMiddlewares (fun _ hm => named_middleware hm) hh).mono ?_)
    intro h₁ _ hh₁
    unfold upsertIngressRoute
    rw [hr]
    exact handles_upsertObject hh₁ hnamed (by decide) rfl

theorem serviceOf_congr {ms ms' : List (String × Json)}
    (hmetadata : ms.lookup "metadata" = ms'.lookup "metadata")
    (hspec : ms.lookup "spec" = ms'.lookup "spec") :
    serviceOf (.obj ms) = serviceOf (.obj ms') := by
  -- reading a service back looks at the metadata and the specification only
  simp only [serviceOf, member, hmetadata, hspec]

theorem exists_serviceOf_of_echoes {app : AppName} {s : DeployableService}
    {container : ContainerConfig} {usePullSecret : Bool} {claims : List (String × Claim)}
    {now : Timestamp} {j : Json} (hname : s.name ≠ "")
    (hj : Echoes (Deployment.ofService app s container usePullSecret claims now).toJson j) :
    ∃ r, serviceOf j = .ok (some r) ∧ r.outline = s.outline app := by
  let d := Deployment.ofService app s container usePullSecret claims now
  obtain ⟨own, hown, hkept, hstart⟩ := hj.metadata
  obtain ⟨ms, rfl⟩ := eq_obj_of_member? hown
  have hkeeps : Keeps d own := by
    refine ⟨hkept "labels" (by decide) _ rfl, hkept "annotations" (by decide) _ rfl, hstart⟩
  have hspec : ms.lookup "spec" = some (.obj (d.storedSpec 1)) :=
    hj.members "spec" _ (by decide) rfl
  have hshows : Shows (d.stored own 1) ⟨"", app, s.config, .running, none⟩ :=
    ⟨d, own, ⟨s, container, usePullSecret, claims, now, rfl, rfl⟩, hkeeps, rfl⟩
  obtain ⟨r, hr, houtline⟩ := serviceOf_of_shows hshows hname
  refine ⟨r, ?_, houtline⟩
  rw [← hr]
  exact serviceOf_congr hown hspec

theorem handles_deployService (settings : Settings) (container : ContainerConfig) (now : Timestamp)
    (app : AppName) (usePullSecret : Bool) (base : Option IngressRoute) {s : DeployableService}
    (hname : s.name ≠ "") (hh : Settled h) :
    (deployService settings container now app usePullSecret base s).Honours handling h fun h' r =>
      Settled h' ∧ r.map (·.outline) = some (s.outline app) := by
  unfold deployService
  refine Honours.bind ((handles_upsertFiles app s hh).mono ?_)
  intro h₁ _ hh₁
  refine Honours.bind ((handles_claimsFor settings app s hh₁).mono ?_)
  rintro h₂ found ⟨hh₂, hreadable⟩
  obtain ⟨claims, hclaims⟩ := exists_readClaims hreadable
  refine Honours.bind (honours_ok hclaims ?_)
  refine Honours.bind ((handles_upsert hh₂ rfl).mono ?_)
  rintro h₃ stored ⟨hh₃, hecho⟩
  obtain ⟨r, hr, houtline⟩ := exists_serviceOf_of_echoes hname (hecho rfl)
  refine Honours.bind ((handles_upsertObject hh₃ (named_service _) (by decide) rfl).mono ?_)
  intro h₄ _ hh₄
  refine Honours.bind ((handles_upsertRoutes app s base hh₄).mono ?_)
  intro h₅ _ hh₅
  exact honours_ok hr ⟨hh₅, congrArg some houtline⟩

theorem handles_deployServices (settings : Settings) (container : ContainerConfig)
    (now : Timestamp) (app : AppName) (usePullSecret : Bool) (base : Option IngressRoute)
    {ss : List DeployableService} (hss : ∀ s ∈ ss, s.name ≠ "") (hh : Settled h) :
    (ss.mapM (deployService settings container now app usePullSecret base)).Honours handling h
      fun h' rs => Settled h' ∧
        rs.map (·.map (·.outline)) = ss.map fun s => some (s.outline app) := by
  have hstep : ∀ s ∈ ss, ∀ h, Settled h →
      (deployService settings container now app usePullSecret base s).Honours handling h
        fun h' r => Settled h' ∧ r.map (·.outline) = some (s.outline app) :=
    fun s hs _ =>
      handles_deployService settings container now app usePullSecret base (hss s hs)
  refine (honours_mapM hstep hh).mono ?_
  rintro h' rs ⟨hh', hrs⟩
  refine ⟨hh', ?_⟩
  have heq : List.Forall₂ (· = ·) (ss.map fun s => some (s.outline app))
      (rs.map (·.map (·.outline))) := by
    rw [List.forall₂_map_left_iff, List.forall₂_map_right_iff]
    exact hrs.imp fun _ _ h => h.symm
  exact (List.forall₂_eq_eq_eq ▸ heq).symm

theorem handles_deploy (settings : Settings) (container : ContainerConfig) (now : Timestamp)
    {u : DeploymentUnit} (hu : ∀ s ∈ u.services, s.name ≠ "") (hh : Settled h) :
    (deploy settings container now u).Honours handling h fun h' rs =>
      Settled h' ∧
        rs.map (·.map (·.outline)) = u.services.map fun s => some (s.outline u.app) := by
  rw [deploy_eq]
  refine Honours.bind ((handles_upsertNamespace settings u.app hh).mono ?_)
  intro h₁ _ hh₁
  refine Honours.bind ((handles_providePullSecret u hh₁).mono ?_)
  intro h₂ _ hh₂
  refine Honours.bind ((handles_baseRoute settings hh₂).mono ?_)
  intro h₃ base hh₃
  exact handles_deployServices settings container now u.app u.needsPullSecret base hu hh₃

structure Copes (u : DeploymentUnit) (h : History) (result : Except Fault (List (Option Service))) :
    Prop where
  updates : ∀ past c a rest, h = past ++ (c, a) :: rest →
    owed past = if c.isUpdate then some c else none
  complete : owed h = none
  ending : (Absorbed h ∧ ∃ rs, result = .ok rs ∧
      rs.map (·.map (·.outline)) = u.services.map fun s => some (s.outline u.app)) ∨
    ∃ past c e f, h = past ++ [(c, .error e)] ∧ Absorbed past ∧ ¬c.Absorbs e.status ∧
      result = .error f ∧ f.status? = some e.status ∧
      f.failureClass? = some (if e.status = 404 then .notFound
        else if e.status = 409 then .conflict else .other)

theorem owes_of_not_absorbs {e : ApiError} (h : ¬c.Absorbs e.status) :
    owes (c, .error e) = none := by
  rw [owes]
  split
  · next hconflict =>
    cases c with
    | create kind ns body =>
      have hnone : ¬((Call.create kind ns body).update?).isSome :=
        fun hsome => h ⟨hconflict, hsome⟩
      exact Option.not_isSome_iff_eq_none.1 hnone
    | _ => rfl
  · rfl

theorem deploy_copes {σ : Type} (answer : Call → σ → Answer × σ) (s : σ) (settings : Settings)
    (container : ContainerConfig) (now : Timestamp) {u : DeploymentUnit}
    (hnamed : ∀ d ∈ u.services, d.name ≠ "")
    (hanswers : ∀ x ∈ (deploy settings container now u).history answer s, Expected x) :
    Copes u ((deploy settings container now u).history answer s)
      ((deploy settings container now u).run answer s).1 := by
  have hdeploy := handles_deploy settings container now hnamed settled_nil
  have hupdates : ∀ past c a rest,
      (deploy settings container now u).history answer s = past ++ (c, a) :: rest →
        owed past = if c.isUpdate then some c else none :=
    fun past c a rest hsplit => (before_of_honours hdeploy hanswers hsplit).2
  rcases ending_of_honours hdeploy hanswers with ⟨rs, hrs, hsettled, houtlines⟩ | hfault
  · exact ⟨hupdates, hsettled.owed, .inl ⟨hsettled.absorbed, rs, hrs, houtlines⟩⟩
  · obtain ⟨f, hf, past, c, e, action, hlast, habsorbed, hother, rfl⟩ := hfault
    rw [List.nil_append] at hlast
    refine ⟨hupdates, ?_, .inr ⟨past, c, e, _, hlast, habsorbed, hother, hf, rfl, rfl⟩⟩
    rw [hlast, owed_concat, owes_of_not_absorbs hother]

def stamped (body : Json) : Json :=
  Server.withMetadata [("creationTimestamp", .str "2024-01-01T10:00:00Z")] body

def onlyDeploymentsExist : Call → Unit → Answer × Unit
  | .create .deployments _ _, _ => (.error Server.conflict, ())
  | .create _ _ body, _ => (.ok (stamped body), ())
  | .replace _ _ _ body, _ => (.ok (stamped body), ())
  | .list .., _ => (.ok (.arr []), ())
  | _, _ => (.error Server.notFound, ())

theorem echoes_stamped (body : Json) : Echoes body (stamped body) := by
  have htime : (Iso.timestamp (spellZone "2024-01-01T10:00:00Z")).isSome := by decide +kernel
  obtain ⟨t, ht⟩ := Option.isSome_iff_exists.1 htime
  constructor
  · intro k v hk hv
    exact (Assoc.lookup_insert_of_ne hk _ _).trans hv
  · refine ⟨_, Assoc.lookup_insert_self .., ?_, some t, ?_⟩
    · intro k hk v hv
      refine (Assoc.lookup_insert_of_ne ?_ _ _).trans hv
      rintro rfl
      exact absurd hk (by decide)
    · refine Server.startOf_eq_ok ?_ ht
      rw [member, List.foldl_cons, List.foldl_nil, Assoc.lookup_insert_self]
      rfl

theorem expected_onlyDeploymentsExist (c : Call) (s : Unit) :
    Expected (c, (onlyDeploymentsExist c s).1) := by
  cases c with
  | create kind ns body => cases kind <;> first | exact echoes_stamped body | trivial
  | replace kind ns name body => exact echoes_stamped body
  | list kind ns selector => exact fun item hitem => absurd hitem List.not_mem_nil
  | _ => trivial

theorem deploy_copes_when_deployments_exist :
    (∀ d ∈ [webService], d.name ≠ "") ∧
    Copes ⟨.master, [webService], []⟩
      ((deploy webSettings ⟨none⟩ noon ⟨.master, [webService], []⟩).history onlyDeploymentsExist ())
      ((deploy webSettings ⟨none⟩ noon ⟨.master, [webService], []⟩).run onlyDeploymentsExist
        ()).1 := by
  have hnamed : ∀ d ∈ [webService], d.name ≠ "" := by
    intro d hd
    rw [List.mem_singleton.1 hd]
    decide
  refine ⟨hnamed, deploy_copes onlyDeploymentsExist () webSettings ⟨none⟩ noon hnamed ?_⟩
  intro x hx
  obtain ⟨s, hs⟩ := exists_answer_of_mem_history hx
  have hexpected := expected_onlyDeploymentsExist x.1 s
  rwa [← hs] at hexpected

end PreviewApps.Cluster
