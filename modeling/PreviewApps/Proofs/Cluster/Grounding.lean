import PreviewApps.Proofs.Cluster.Claims
import PreviewApps.Proofs.Cluster.Positions
import PreviewApps.Proofs.Cluster.Writes
import PreviewApps.Proofs.Manifest.References

/-!
References of the objects that a deployment writes. Whatever call fails, everything that an object
refers to has been written or found before the object itself is.
-/

namespace PreviewApps.Cluster

open Program

/-- The object that a call writes. A claim goes without a name, which the server makes up. -/
def Call.write? : Call → Option (Key × Json)
  | .create kind ns body => some (⟨kind, ns, givenName body⟩, body)
  | .patch kind ns name body => some (⟨kind, ns, name⟩, body)
  | .replace kind ns name body => some (⟨kind, ns, name⟩, body)
  | _ => none

def record (m : Store) : Exchange → Store
  | (.delete kind ns name, .ok _) => m.delete ⟨kind, ns, name⟩
  | (c, .ok _) => (c.write?.map fun w => m.put w.1 w.2).getD m
  | _ => m

/-- What was written last under every key, unless it was deleted again. -/
def manifests (h : History) : Store := h.foldl record fun _ => none

def claimsIn (ns : String) : Exchange → List Json
  | (.list .claims ns' _, .ok found) => if ns' = ns then found.items else []
  | (.create .claims ns' _, .ok claim) => if ns' = ns then [claim] else []
  | _ => []

def knownClaims (ns : String) (h : History) : List Json := h.flatMap (claimsIn ns)

/-- The object was written at some time, though something else may have been written over it. -/
def Wrote (h : History) (key : Key) (body : Json) : Prop :=
  ∃ c reply, (c, .ok reply) ∈ h ∧ c.write? = some (key, body)

/-- Nothing that the object refers to is missing after the history. -/
structure Grounded (u : DeploymentUnit) (h : History) (key : Key) (body : Json) : Prop where
  namespaced : key.kind ≠ .namespaces → ∃ j, manifests h ⟨.namespaces, "", key.namespaceId⟩ = some j
  files : key.kind = .deployments → ∀ v ∈ body.podVolumes, ∀ source,
    v.member? "secret" = some source → ∃ name secret, source.get "secretName" = .str name ∧
      manifests h ⟨.secrets, key.namespaceId, name⟩ = some secret ∧
      ∀ item ∈ (source.get "items").items, ∃ k, item.get "key" = .str k ∧
        ((secret.get "data").member? k).isSome
  claims : key.kind = .deployments → ∀ v ∈ body.podVolumes, ∀ source,
    v.member? "persistentVolumeClaim" = some source →
      ∃ claim ∈ knownClaims key.namespaceId h, source.get "claimName" = claimName claim
  pullSecrets : key.kind = .deployments → ∀ r ∈ body.podPullSecrets,
    r.get "name" = .str u.app.pullSecretName ∧
      (∃ j, manifests h ⟨.secrets, key.namespaceId, u.app.pullSecretName⟩ = some j) ∧
      Wrote h ⟨.secrets, key.namespaceId, u.app.pullSecretName⟩
        (Secret.forImagePull u.app u.credentials).toJson
  pods : key.kind = .services → ∃ name d,
    manifests h ⟨.deployments, key.namespaceId, name⟩ = some d ∧
    ∀ k v, body.selector.member? k = some v → d.podLabels.member? k = some v
  backends : key.kind = .ingressRoutes → ∀ rule ∈ body.rules, (rule.get "services").items ≠ [] ∧
    ∀ b ∈ (rule.get "services").items, ∃ name s port, b.get "name" = .str name ∧
      manifests h ⟨.services, key.namespaceId, name⟩ = some s ∧
      b.member? "port" = some port ∧ ∃ p ∈ s.ports, p.member? "port" = some port

/-- The object is the ingress route of `d` behind `base`, and none of its inline middlewares is
missing after the history. -/
structure Routed (u : DeploymentUnit) (d : DeployableService) (base : Option IngressRoute)
    (h : History) (key : Key) (body : Json) : Prop where
  name : key.name = u.app.ingressRouteName d.name
  manifest : (Traefik.ingressRoute? u.app (placedBehind base d)).map (·.toJson) = some body
  middlewares : List.Forall₂ (fun rule (route : Route) =>
    List.Forall₂ (fun ref (m : Middleware) => ref.get "name" = .str m.objectName ∧
      (m.isRef = false → ∃ j, manifests h ⟨.middlewares, key.namespaceId, m.objectName⟩ = some j))
      (rule.get "middlewares").items route.middlewares)
    body.rules (placedBehind base d).route.routes

def grounding (u : DeploymentUnit) (routed : History → Key → Json → Prop) : Contract where
  expects _ := True
  before h c := ∀ key body, c.write? = some (key, body) →
    Grounded u h key body ∧ (key.kind = .ingressRoutes → routed h key body)
  faulty _ _ := True

variable {u : DeploymentUnit} {routed : History → Key → Json → Prop} {h h' h'' : History}
  {key : Key} {body : Json} {c : Call} {action : Action}

theorem manifests_concat (h : History) (x : Exchange) :
    manifests (h ++ [x]) = record (manifests h) x := by
  rw [manifests, List.foldl_append]
  rfl

theorem record_write {reply : Json} (hc : c.write? = some (key, body)) (m : Store) :
    record m (c, .ok reply) = m.put key body := by
  cases c with
  | create kind ns b => cases hc; rfl
  | patch kind ns name b => cases hc; rfl
  | replace kind ns name b => cases hc; rfl
  | _ => cases hc

theorem Wrote.mono (hsub : h ⊆ h') (hw : Wrote h key body) : Wrote h' key body := by
  obtain ⟨c, reply, hmem, hc⟩ := hw
  exact ⟨c, reply, hsub hmem, hc⟩

theorem knownClaims_mono {ns : String} (hsub : h ⊆ h') : knownClaims ns h ⊆ knownClaims ns h' := by
  intro claim hclaim
  obtain ⟨x, hx, hin⟩ := List.mem_flatMap.1 hclaim
  exact List.mem_flatMap.2 ⟨x, hsub hx, hin⟩

theorem Grounded.mono (hm : manifests h' = manifests h) (hsub : h ⊆ h')
    (hg : Grounded u h key body) : Grounded u h' key body := by
  constructor
  · rw [hm]
    exact hg.namespaced
  · rw [hm]
    exact hg.files
  · intro hkind v hv source hsource
    obtain ⟨claim, hclaim, hname⟩ := hg.claims hkind v hv source hsource
    exact ⟨claim, knownClaims_mono hsub hclaim, hname⟩
  · intro hkind r hr
    obtain ⟨hname, hthere, hwrote⟩ := hg.pullSecrets hkind r hr
    rw [hm]
    exact ⟨hname, hthere, hwrote.mono hsub⟩
  · rw [hm]
    exact hg.pods
  · rw [hm]
    exact hg.backends

theorem Routed.mono {d : DeployableService} {base : Option IngressRoute}
    (hm : manifests h' = manifests h) (hr : Routed u d base h key body) :
    Routed u d base h' key body := by
  refine ⟨hr.name, hr.manifest, ?_⟩
  rw [hm]
  exact hr.middlewares

structure Adds (key : Key) (body : Json) (h h' : History) : Prop where
  stored : manifests h' = (manifests h).put key body
  subset : h ⊆ h'
  wrote : Wrote h' key body

structure Follows (h h' : History) : Prop where
  kept : ∀ key j, manifests h key = some j → ∃ j', manifests h' key = some j'
  subset : h ⊆ h'

theorem Follows.refl (h : History) : Follows h h := ⟨fun _ j hj => ⟨j, hj⟩, fun _ hx => hx⟩

theorem Follows.trans (h₁ : Follows h h') (h₂ : Follows h' h'') : Follows h h'' := by
  refine ⟨?_, fun x hx => h₂.subset (h₁.subset hx)⟩
  intro key j hj
  obtain ⟨j', hj'⟩ := h₁.kept key j hj
  exact h₂.kept key j' hj'

theorem Follows.of_eq (hm : manifests h' = manifests h) (hsub : h ⊆ h') : Follows h h' :=
  ⟨fun _ j hj => ⟨j, by rw [hm]; exact hj⟩, hsub⟩

theorem Adds.self (ha : Adds key body h h') : manifests h' key = some body := by
  rw [ha.stored, Store.put_self]

theorem Adds.of_ne (ha : Adds key body h h') {k : Key} (hk : k ≠ key) :
    manifests h' k = manifests h k := by
  rw [ha.stored, Store.put_of_ne hk]

theorem Adds.follows (ha : Adds key body h h') : Follows h h' := by
  refine ⟨?_, ha.subset⟩
  intro k j hj
  by_cases hk : k = key
  · exact ⟨body, hk ▸ ha.self⟩
  · exact ⟨j, (ha.of_ne hk).trans hj⟩

theorem adds_concat {reply : Json} (hc : c.write? = some (key, body)) :
    Adds key body h (h ++ [(c, .ok reply)]) := by
  refine ⟨?_, List.subset_append_left h _, c, reply, ?_, hc⟩
  · rw [manifests_concat, record_write hc]
  · exact List.mem_append_right h (List.mem_singleton_self _)

theorem before_of_write (hc : c.write? = some (key, body)) (hg : Grounded u h key body)
    (hroute : key.kind = .ingressRoutes → routed h key body) :
    (grounding u routed).before h c := by
  intro k b hw
  rw [hc] at hw
  cases hw
  exact ⟨hg, hroute⟩

theorem grounds_write {Q : History → Json → Prop} (hc : c.write? = some (key, body))
    (hg : Grounded u h key body) (hkind : key.kind ≠ .ingressRoutes)
    (hQ : ∀ j, Adds key body h (h ++ [(c, .ok j)]) → Q (h ++ [(c, .ok j)]) j) :
    (must action c).Honours (grounding u routed) h Q :=
  honours_must (before_of_write hc hg fun hk => absurd hk hkind) (fun j _ => hQ j (adds_concat hc))
    fun _ => trivial

theorem honours_upsert_adds {k : Contract} {mode : UpdateMode} {kind : Kind} {ns name : String}
    {body : Json} {creating updating : Action} {Q : History → Json → Prop}
    (hname : givenName body = name) (hcreate : k.before h (.create kind ns body))
    (hupdate : ∀ e, k.before (h ++ [(.create kind ns body, .error e)])
      (updateCall mode kind ns name body)) (hfaulty : ∀ h' e, k.faulty h' e)
    (hQ : ∀ h' j, Adds ⟨kind, ns, name⟩ body h h' → Q h' j) :
    (upsert mode kind ns name body creating updating).Honours k h Q := by
  have hcreates : (Call.create kind ns body).write? = some (⟨kind, ns, name⟩, body) := by
    rw [Call.write?, hname]
  have hupdates : (updateCall mode kind ns name body).write? = some (⟨kind, ns, name⟩, body) := by
    cases mode <;> rfl
  refine honours_createOrUpdate hcreate (fun j _ => hQ _ j (adds_concat hcreates)) ?_
    fun e _ => hfaulty _ _
  intro e _
  -- the refused creation has changed nothing
  let refused : History := h ++ [(.create kind ns body, .error e)]
  have hsame : manifests refused = manifests h := manifests_concat ..
  have hsub : h ⊆ refused := List.subset_append_left h _
  refine honours_must (hupdate e) ?_ fun _ => hfaulty _ _
  intro j _
  have hadds : Adds ⟨kind, ns, name⟩ body refused
      (refused ++ [(updateCall mode kind ns name body, .ok j)]) := adds_concat hupdates
  refine hQ _ j ⟨?_, fun x hx => hadds.subset (hsub hx), hadds.wrote⟩
  rw [hadds.stored, hsame]

theorem grounds_upsert {mode : UpdateMode} {kind : Kind} {ns name : String} {body : Json}
    {creating updating : Action} {Q : History → Json → Prop} (hname : givenName body = name)
    (hg : Grounded u h ⟨kind, ns, name⟩ body)
    (hroute : kind = .ingressRoutes →
      ∀ h', manifests h' = manifests h → routed h' ⟨kind, ns, name⟩ body)
    (hQ : ∀ h' j, Adds ⟨kind, ns, name⟩ body h h' → Q h' j) :
    (upsert mode kind ns name body creating updating).Honours (grounding u routed) h Q := by
  refine honours_upsert_adds hname ?_ ?_ (fun _ _ => trivial) hQ
  · exact before_of_write (by rw [Call.write?, hname]) hg fun hk => hroute hk h rfl
  · intro e
    have hsub := List.subset_append_left h [(Call.create kind ns body, Except.error e)]
    have hsame := manifests_concat h (Call.create kind ns body, Except.error e)
    exact before_of_write (by cases mode <;> rfl) (hg.mono hsame hsub) fun hk => hroute hk _ hsame

structure Ready (u : DeploymentUnit) (h : History) : Prop where
  namespaced : ∃ j, manifests h ⟨.namespaces, "", u.app.namespaceId⟩ = some j
  pullable : u.needsPullSecret = true →
    (∃ j, manifests h ⟨.secrets, u.app.namespaceId, u.app.pullSecretName⟩ = some j) ∧
      Wrote h ⟨.secrets, u.app.namespaceId, u.app.pullSecretName⟩
        (Secret.forImagePull u.app u.credentials).toJson

theorem Ready.follows (hr : Ready u h) (hf : Follows h h') : Ready u h' := by
  constructor
  · obtain ⟨j, hj⟩ := hr.namespaced
    exact hf.kept _ j hj
  · intro hneeds
    obtain ⟨⟨j, hj⟩, hwrote⟩ := hr.pullable hneeds
    exact ⟨hf.kept _ j hj, hwrote.mono hf.subset⟩

theorem grounded_of_namespace {kind : Kind} {ns name : String}
    (hkind : kind ∈ [.secrets, .claims, .middlewares])
    (hns : ∃ j, manifests h ⟨.namespaces, "", ns⟩ = some j) :
    Grounded u h ⟨kind, ns, name⟩ body := by
  have hother : kind ≠ .deployments ∧ kind ≠ .services ∧ kind ≠ .ingressRoutes := by
    revert hkind
    revert kind
    decide
  exact ⟨fun _ => hns, fun hk => absurd hk hother.1, fun hk => absurd hk hother.1,
    fun hk => absurd hk hother.1, fun hk => absurd hk hother.2.1, fun hk => absurd hk hother.2.2⟩

theorem grounds_upsertNamespace (settings : Settings) (app : AppName) (h : History) :
    (upsertNamespace settings app).Honours (grounding u routed) h fun h' _ =>
      ∃ j, manifests h' ⟨.namespaces, "", app.namespaceId⟩ = some j := by
  have hnamed := named_namespace (NamespaceManifest.ofApp app settings)
  refine Honours.discard (grounds_upsert hnamed.given ?_ nofun fun h' _ hadds => ⟨_, hadds.self⟩)
  exact ⟨fun hk => absurd rfl hk, nofun, nofun, nofun, nofun, nofun⟩

theorem grounds_replacePullSecret
    (hns : ∃ j, manifests h ⟨.namespaces, "", u.app.namespaceId⟩ = some j) :
    (replacePullSecret u).Honours (grounding u routed) h fun h' _ => Ready u h' := by
  let s := Secret.forImagePull u.app u.credentials
  have hcreate {h : History}
      (hns : ∃ j, manifests h ⟨.namespaces, "", u.app.namespaceId⟩ = some j) :
      (Functor.discard (must (.create .secrets s.namespaceId s.name)
        (.create .secrets s.namespaceId s.toJson))).Honours (grounding u routed) h fun h' _ =>
          Ready u h' := by
    refine Honours.discard (grounds_write rfl (grounded_of_namespace (by decide) hns) nofun ?_)
    intro j hadds
    obtain ⟨namespace', hnamespace⟩ := hns
    exact ⟨hadds.follows.kept _ _ hnamespace, fun _ => ⟨⟨_, hadds.self⟩, hadds.wrote⟩⟩
  refine Honours.bind (Honours.discard (honours_may nofun ?_ ?_ fun _ _ => trivial))
  · intro j _
    refine hcreate ?_
    rw [manifests_concat]
    obtain ⟨namespace', hnamespace⟩ := hns
    refine ⟨namespace', ?_⟩
    show Store.delete _ (manifests h) _ = _
    rw [Store.delete, if_neg (by rintro (hk | ⟨hk, -⟩) <;> cases hk)]
    exact hnamespace
  · intro e _
    refine hcreate ?_
    rw [manifests_concat]
    exact hns

theorem grounds_providePullSecret
    (hns : ∃ j, manifests h ⟨.namespaces, "", u.app.namespaceId⟩ = some j) :
    (providePullSecret u).Honours (grounding u routed) h fun h' _ => Ready u h' := by
  unfold providePullSecret
  split
  · exact grounds_replacePullSecret hns
  · next hneeds => exact ⟨hns, fun hpull => absurd hpull hneeds⟩

theorem grounds_baseRoute (settings : Settings) (hr : Ready u h) :
    (baseRoute settings).Honours (grounding u routed) h fun h' _ => Ready u h' := by
  unfold baseRoute
  split
  · exact hr
  · have hread : ∀ ns name a, Ready u (h ++ [(.get .ingressRoutes ns name, a)]) := by
      intro ns name a
      refine hr.follows (Follows.of_eq ?_ (List.subset_append_left h _))
      rw [manifests_concat]
      cases a <;> rfl
    refine Honours.bind (honours_may nofun ?_ ?_ fun _ _ => trivial)
    · exact fun j _ => hread _ _ (.ok j)
    · exact fun e _ => hread _ _ (.error e)

theorem grounds_upsertFiles (s : DeployableService) (hr : Ready u h) :
    (upsertFiles u.app s).Honours (grounding u routed) h fun h' _ => Follows h h' ∧ (s.files ≠ [] →
      manifests h' ⟨.secrets, u.app.namespaceId, u.app.secretName s.name⟩ =
        some (Secret.ofFiles u.app s.config).toJson) := by
  unfold upsertFiles
  split
  · next hempty => exact ⟨Follows.refl h, fun hne => absurd (List.isEmpty_iff.1 hempty) hne⟩
  · refine Honours.discard
      (grounds_upsert rfl ?_ nofun fun h' _ hadds => ⟨hadds.follows, fun _ => ?_⟩)
    · exact grounded_of_namespace (by decide) hr.namespaced
    · exact hadds.self

structure AddsClaims (h h' : History) : Prop where
  follows : Follows h h'
  others : ∀ key, key.kind ≠ .claims → manifests h' key = manifests h key

theorem AddsClaims.refl (h : History) : AddsClaims h h := ⟨Follows.refl h, fun _ _ => rfl⟩

theorem AddsClaims.trans (h₁ : AddsClaims h h') (h₂ : AddsClaims h' h'') : AddsClaims h h'' :=
  ⟨h₁.follows.trans h₂.follows, fun key hk => (h₂.others key hk).trans (h₁.others key hk)⟩

theorem Adds.addsClaims (ha : Adds key body h h') (hkey : key.kind = .claims) :
    AddsClaims h h' := by
  refine ⟨ha.follows, fun k hk => ha.of_ne ?_⟩
  rintro rfl
  exact hk hkey

theorem mem_knownClaims_created (ns : String) (body claim : Json) (h : History) :
    claim ∈ knownClaims ns (h ++ [(.create .claims ns body, .ok claim)]) := by
  refine List.mem_flatMap.2 ⟨_, List.mem_append_right h (List.mem_singleton_self _), ?_⟩
  show claim ∈ if ns = ns then [claim] else []
  rw [if_pos rfl]
  exact List.mem_singleton_self claim

theorem mem_knownClaims_listed {found claim : Json} (ns selector : String) (h : History)
    (hclaim : claim ∈ found.items) :
    claim ∈ knownClaims ns (h ++ [(.list .claims ns selector, .ok found)]) := by
  refine List.mem_flatMap.2 ⟨_, List.mem_append_right h (List.mem_singleton_self _), ?_⟩
  show claim ∈ if ns = ns then found.items else []
  rwa [if_pos rfl]

theorem grounds_claimFor (service : String) (storage : StorageConfig) (path : String)
    {byType : List (String × Json)} (hr : Ready u h)
    (hbyType : ∀ e ∈ byType, e.2 ∈ knownClaims u.app.namespaceId h) :
    (claimFor u.app service storage path byType).Honours (grounding u routed) h fun h' claim =>
      AddsClaims h h' ∧ claim ∈ knownClaims u.app.namespaceId h' := by
  unfold claimFor
  cases hfound : byType.lookup (ClaimManifest.storageTypeOf path) with
  | some claim => exact ⟨AddsClaims.refl h, hbyType _ (Assoc.mem_of_lookup hfound)⟩
  | none =>
    let manifest := ClaimManifest.ofVolume u.app service storage.size storage.className path
    have hg : Grounded u h ⟨.claims, u.app.namespaceId, ""⟩ manifest.toJson :=
      grounded_of_namespace (by decide) hr.namespaced
    refine Honours.bind (grounds_write rfl hg nofun ?_)
    intro claim hadds
    refine honours_ofExcept ?_ fun _ _ => trivial
    intro claim' hclaim'
    rw [eq_of_checkCreated hclaim']
    exact ⟨hadds.addsClaims rfl, mem_knownClaims_created ..⟩

theorem grounds_assignClaims (service : String) (storage : StorageConfig) (paths : List String)
    {byType : List (String × Json)} (hr : Ready u h)
    (hbyType : ∀ e ∈ byType, e.2 ∈ knownClaims u.app.namespaceId h) :
    (assignClaims u.app service storage paths byType).Honours (grounding u routed) h
      fun h' claims => AddsClaims h h' ∧ ∀ e ∈ claims, e.2 ∈ knownClaims u.app.namespaceId h' := by
  induction paths generalizing h byType with
  | nil => exact ⟨AddsClaims.refl h, fun e he => absurd he List.not_mem_nil⟩
  | cons path paths ih =>
    rw [assignClaims_cons]
    refine Honours.bind ((grounds_claimFor service storage path hr hbyType).mono ?_)
    rintro h₁ claim ⟨hadds, hclaim⟩
    have hold := fun e he => knownClaims_mono hadds.follows.subset (hbyType e he)
    have hknown : ∀ e ∈ Assoc.insertNew (ClaimManifest.storageTypeOf path) claim byType,
        e.2 ∈ knownClaims u.app.namespaceId h₁ := forall_mem_insertNew hold hclaim
    refine Honours.bind ((ih (hr.follows hadds.follows) hknown).mono ?_)
    rintro h₂ rest ⟨hadds₂, hclaims⟩
    have hfirst := knownClaims_mono hadds₂.follows.subset hclaim
    exact ⟨hadds.trans hadds₂, List.forall_mem_cons.2 ⟨hfirst, hclaims⟩⟩

theorem grounds_claimsFor (settings : Settings) (s : DeployableService) (hr : Ready u h) :
    (claimsFor settings u.app s).Honours (grounding u routed) h fun h' claims =>
      AddsClaims h h' ∧ ∀ e ∈ claims, e.2 ∈ knownClaims u.app.namespaceId h' := by
  have hnone : AddsClaims h h ∧ ∀ e ∈ ([] : List (String × Json)),
      e.2 ∈ knownClaims u.app.namespaceId h :=
    ⟨AddsClaims.refl h, fun e he => absurd he List.not_mem_nil⟩
  unfold claimsFor
  split
  · exact hnone
  · split
    · exact hnone
    · refine Honours.bind (honours_must nofun ?_ fun _ => trivial)
      intro found _
      have hsame := manifests_concat h (.list .claims u.app.namespaceId
        (Labels.ofNamed u.app s.name).selector, .ok found)
      have hfollows := Follows.of_eq hsame (List.subset_append_left h _)
      refine Honours.bind (honours_ofExcept ?_ fun _ _ => trivial)
      intro byType hbyType
      have hitems := fun c (hc : c ∈ found.items) =>
        mem_knownClaims_listed u.app.namespaceId (Labels.ofNamed u.app s.name).selector h hc
      have hlisted := forall_mem_claimsByType hitems hbyType
      refine (grounds_assignClaims s.name _ _ (hr.follows hfollows) hlisted).mono ?_
      rintro h' claims ⟨hadds, hclaims⟩
      refine ⟨AddsClaims.trans ⟨hfollows, fun key _ => ?_⟩ hadds, hclaims⟩
      rw [hsame]
      rfl

section Service

variable {s : DeployableService}

theorem grounded_deployment {container : ContainerConfig} {claims : List (String × Claim)}
    {now : Timestamp} {name : String} (hr : Ready u h)
    (hfiles : s.files ≠ [] →
      manifests h ⟨.secrets, u.app.namespaceId, u.app.secretName s.name⟩ =
        some (Secret.ofFiles u.app s.config).toJson)
    (hclaims : ∀ c ∈ claims, ∃ claim ∈ knownClaims u.app.namespaceId h,
      c.2.name = claimName claim) :
    Grounded u h ⟨.deployments, u.app.namespaceId, name⟩
      (Deployment.ofService u.app s container u.needsPullSecret claims now).toJson where
  namespaced _ := hr.namespaced
  files _ v hv source hsource := by
    obtain ⟨g, hg, rfl⟩ := Deployment.exists_directory_of_secret hv hsource
    have hne : s.files ≠ [] := by
      intro hempty
      rw [hempty] at hg
      exact absurd hg (by simp [Files.byParent, Files.sorted, Text.sortBy, Assoc.groupBy])
    refine ⟨_, _, rfl, hfiles hne, ?_⟩
    intro item hitem
    rw [List.map_map] at hitem
    obtain ⟨p, hp, rfl⟩ := List.mem_map.1 hitem
    obtain ⟨content, hfile⟩ := Files.mem_of_mem_byParent hg hp
    refine ⟨p.secretKey, rfl, ?_⟩
    rw [Secret.data_toJson, Json.member?, Json.lookup_ofMap, Option.isSome_map]
    exact Secret.isSome_lookup_fileData hfile
  claims _ v hv source hsource := by
    obtain ⟨e, he, rfl⟩ := Deployment.exists_claim_of_source hv hsource
    exact hclaims e he
  pullSecrets _ r hpull := by
    rw [Deployment.podPullSecrets_toJson] at hpull
    obtain ⟨name, hname, rfl⟩ := List.mem_map.1 hpull
    have hused : (if u.needsPullSecret then some u.app.pullSecretName else none) = some name :=
      Option.mem_toList.1 hname
    split at hused
    · next hneeds =>
      cases hused
      exact ⟨rfl, hr.pullable hneeds⟩
    · cases hused
  pods := nofun
  backends := nofun

theorem grounded_service {container : ContainerConfig} {usePullSecret : Bool}
    {claims : List (String × Claim)} {now : Timestamp} {name : String} (hr : Ready u h)
    (hdeployment : manifests h ⟨.deployments, u.app.namespaceId, u.app.deploymentName s.name⟩ =
      some (Deployment.ofService u.app s container usePullSecret claims now).toJson) :
    Grounded u h ⟨.services, u.app.namespaceId, name⟩
      (ServiceManifest.ofConfig u.app s.config).toJson where
  namespaced _ := hr.namespaced
  files := nofun
  claims := nofun
  pullSecrets := nofun
  pods _ := ⟨_, _, hdeployment, fun _ _ hlabel => hlabel⟩
  backends := nofun

structure Routable (u : DeploymentUnit) (s : DeployableService)
    (written : List Traefik.MiddlewareResource) (h : History) : Prop where
  ready : Ready u h
  service : manifests h ⟨.services, u.app.namespaceId, s.name⟩ =
    some (ServiceManifest.ofConfig u.app s.config).toJson
  middlewares : ∀ m ∈ written,
    ∃ j, manifests h ⟨.middlewares, u.app.namespaceId, m.metadata.name.getD ""⟩ = some j

theorem grounds_upsertMiddleware {written : List Traefik.MiddlewareResource}
    {m : Traefik.MiddlewareResource} (hr : Routable u s written h)
    (hm : Named m.toJson (m.metadata.name.getD "")) :
    (upsertMiddleware u.app m).Honours (grounding u routed) h fun h' _ =>
      Routable u s (written ++ [m]) h' := by
  refine Honours.discard (grounds_upsert hm.given ?_ nofun ?_)
  · exact grounded_of_namespace (by decide) hr.ready.namespaced
  · intro h' _ hadds
    have hother : (⟨.services, u.app.namespaceId, s.name⟩ : Key) ≠
        ⟨.middlewares, u.app.namespaceId, m.metadata.name.getD ""⟩ := nofun
    refine ⟨hr.ready.follows hadds.follows, (hadds.of_ne hother).trans hr.service, ?_⟩
    intro m' hm'
    rcases List.mem_append.1 hm' with hold | hnew
    · obtain ⟨j, hj⟩ := hr.middlewares m' hold
      exact hadds.follows.kept _ j hj
    · rw [List.mem_singleton.1 hnew]
      exact ⟨_, hadds.self⟩

theorem rules_ingressRoute {base : Option IngressRoute} {r : Traefik.IngressRouteResource}
    (hroute : Traefik.ingressRoute? u.app (placedBehind base s) = some r) :
    r.toJson.rules = (placedBehind base s).route.routes.map fun own =>
      (Traefik.ruleSpec (placedBehind base s) own).toJson := by
  unfold Traefik.ingressRoute? at hroute
  split at hroute
  · cases hroute
  · cases hroute
    rw [Traefik.rules_toJson, Option.getD_some, List.map_map]
    rfl

theorem grounded_ingressRoute {base : Option IngressRoute} {r : Traefik.IngressRouteResource}
    {written : List Traefik.MiddlewareResource} {name : String} (hr : Routable u s written h)
    (hroute : Traefik.ingressRoute? u.app (placedBehind base s) = some r) :
    Grounded u h ⟨.ingressRoutes, u.app.namespaceId, name⟩ r.toJson where
  namespaced _ := hr.ready.namespaced
  files := nofun
  claims := nofun
  pullSecrets := nofun
  pods := nofun
  backends _ rule hrule := by
    rw [rules_ingressRoute hroute] at hrule
    obtain ⟨own, -, rfl⟩ := List.mem_map.1 hrule
    rw [Traefik.services_toJson]
    refine ⟨List.cons_ne_nil _ _, ?_⟩
    intro b hb
    obtain rfl := List.mem_singleton.1 hb
    exact ⟨s.name, _, .int s.config.port, rfl, hr.service, rfl, _, List.mem_singleton_self _, rfl⟩

theorem routed_ingressRoute {base : Option IngressRoute} {r : Traefik.IngressRouteResource}
    (hr : Routable u s (Traefik.middlewares u.app (placedBehind base s)) h)
    (hroute : Traefik.ingressRoute? u.app (placedBehind base s) = some r) :
    Routed u s base h ⟨.ingressRoutes, u.app.namespaceId, u.app.ingressRouteName s.name⟩
      r.toJson := by
  have hinline : ∀ own ∈ (placedBehind base s).route.routes, ∀ m ∈ own.middlewares,
      m.isRef = false →
        ∃ j, manifests h ⟨.middlewares, u.app.namespaceId, m.objectName⟩ = some j := by
    intro own hown m hm hkind
    have hmem : m ∈ (placedBehind base s).route.middlewares := List.mem_flatMap.2 ⟨own, hown, hm⟩
    -- another middleware of this name may have been written in its place
    obtain ⟨m', hm', hname⟩ := IngressRoute.exists_inlineMiddleware hmem hkind
    have hthere := hr.middlewares _ (List.mem_map_of_mem hm')
    rw [← hname]
    exact hthere
  refine ⟨rfl, by rw [hroute]; rfl, ?_⟩
  rw [rules_ingressRoute hroute, List.forall₂_map_left_iff, List.forall₂_same]
  intro own hown
  rw [Traefik.middlewares_toJson]
  show List.Forall₂ _ ((own.middlewares.map (·.objectName)).map _) _
  rw [List.map_map, List.forall₂_map_left_iff, List.forall₂_same]
  exact fun m hm => ⟨rfl, hinline own hown m hm⟩

theorem grounds_upsertRoutes (base : Option IngressRoute) (hr : Ready u h)
    (hservice : manifests h ⟨.services, u.app.namespaceId, s.name⟩ =
      some (ServiceManifest.ofConfig u.app s.config).toJson)
    (hrouted : ∀ h key body, Routed u s base h key body → routed h key body) :
    (upsertRoutes u.app s base).Honours (grounding u routed) h fun h' _ => Ready u h' := by
  unfold upsertRoutes
  split
  · exact hr
  · next hroute =>
    obtain ⟨r, hr', hnamed⟩ := exists_ingressRoute u.app base (Bool.eq_false_iff.2 hroute)
    have hstep : ∀ written, ∀ m ∈ Traefik.middlewares u.app (placedBehind base s), ∀ h,
        Routable u s written h → (upsertMiddleware u.app m).Honours (grounding u routed) h
          fun h' _ => Routable u s (written ++ [m]) h' :=
      fun _ _ hm _ hroutable => grounds_upsertMiddleware hroutable (named_middleware hm)
    have hstart : Routable u s [] h := ⟨hr, hservice, fun m hm => absurd hm List.not_mem_nil⟩
    refine Honours.bind ((honours_forM hstep hstart).mono ?_)
    intro h₁ _ hroutable
    unfold upsertIngressRoute
    rw [hr']
    refine Honours.discard (grounds_upsert hnamed.given ?_ ?_ ?_)
    · exact grounded_ingressRoute hroutable hr'
    · exact fun _ _ hm => hrouted _ _ _ ((routed_ingressRoute hroutable hr').mono hm)
    · exact fun h' _ hadds => hroutable.ready.follows hadds.follows

theorem grounds_deployService (settings : Settings) (container : ContainerConfig) (now : Timestamp)
    (base : Option IngressRoute) (hr : Ready u h)
    (hrouted : ∀ h key body, Routed u s base h key body → routed h key body) :
    (deployService settings container now u.app u.needsPullSecret base s).Honours
      (grounding u routed) h fun h' _ => Ready u h' := by
  unfold deployService
  refine Honours.bind ((grounds_upsertFiles s hr).mono ?_)
  rintro h₁ - ⟨hfollows, hfiles⟩
  have hr₁ := hr.follows hfollows
  refine Honours.bind ((grounds_claimsFor settings s hr₁).mono ?_)
  rintro h₂ found ⟨hadds, hknown⟩
  have hr₂ := hr₁.follows hadds.follows
  have hfiles₂ := fun hne => (hadds.others ⟨.secrets, _, _⟩ nofun).trans (hfiles hne)
  refine Honours.bind (honours_ofExcept ?_ fun _ _ => trivial)
  intro claims hclaims
  have hnames : ∀ c ∈ claims, ∃ claim ∈ knownClaims u.app.namespaceId h₂,
      c.2.name = claimName claim := by
    intro c hc
    obtain ⟨e, he, hname⟩ := exists_claim_of_readClaims hclaims c hc
    exact ⟨e.2, hknown e he, hname⟩
  refine Honours.bind (grounds_upsert rfl (grounded_deployment hr₂ hfiles₂ hnames) nofun ?_)
  intro h₃ stored hadds₃
  have hr₃ := hr₂.follows hadds₃.follows
  refine Honours.bind
    (Honours.discard (grounds_upsert rfl (grounded_service hr₃ hadds₃.self) nofun ?_))
  intro h₄ _ hadds₄
  have hr₄ := hr₃.follows hadds₄.follows
  refine Honours.bind ((grounds_upsertRoutes base hr₄ hadds₄.self hrouted).mono ?_)
  intro h₅ _ hr₅
  exact honours_ofExcept (fun _ _ => hr₅) fun _ _ => trivial

end Service

theorem grounds_prepare (settings : Settings) :
    (prepare settings u).Honours (grounding u routed) [] fun h' _ => Ready u h' := by
  refine Honours.bind ((grounds_upsertNamespace settings u.app []).mono ?_)
  intro h₁ _ hns
  refine Honours.bind ((grounds_providePullSecret hns).mono ?_)
  intro h₂ _ hr₂
  exact grounds_baseRoute settings hr₂

theorem grounds_deployServices (settings : Settings) (container : ContainerConfig)
    (now : Timestamp) (base : Option IngressRoute) (ds : List DeployableService) (hr : Ready u h) :
    (ds.mapM (deployService settings container now u.app u.needsPullSecret base)).Honours
      (grounding u fun _ _ _ => True) h fun h' _ => Ready u h' := by
  have hstep : ∀ d ∈ ds, ∀ h, Ready u h →
      (deployService settings container now u.app u.needsPullSecret base d).Honours
        (grounding u fun _ _ _ => True) h fun h' _ => Ready u h' ∧ True := by
    intro d _ h hr
    refine (grounds_deployService settings container now base hr ?_).mono ?_
    · exact fun _ _ _ _ => trivial
    · exact fun _ _ hr' => ⟨hr', trivial⟩
  exact (honours_mapM (R := fun _ _ => True) hstep hr).mono fun _ _ h => h.1

theorem grounds_leadUp (settings : Settings) (container : ContainerConfig) (now : Timestamp)
    (ready : List DeployableService) :
    (leadUp settings container now u ready).Honours (grounding u fun _ _ _ => True) []
      fun h' _ => Ready u h' := by
  refine Honours.bind ((grounds_prepare settings).mono ?_)
  intro h base hr
  exact Honours.bind (grounds_deployServices settings container now base ready hr)

theorem grounds_deploy (settings : Settings) (container : ContainerConfig) (now : Timestamp) :
    (deploy settings container now u).Honours (grounding u fun _ _ _ => True) []
      fun h' _ => Ready u h' := by
  rw [deploy_eq_prepare]
  refine Honours.bind ((grounds_prepare settings).mono ?_)
  intro h base hr
  exact grounds_deployServices settings container now base u.services hr

section Places

variable {σ : Type} {answer : Call → σ → Answer × σ} {s : σ} {settings : Settings}
  {container : ContainerConfig} {now : Timestamp} {a : Answer}

theorem routed_of_deploying {d : DeployableService} {base : Option IngressRoute} {past : History}
    (hd : Deploying answer settings container now u s d base past (c, a))
    (hwrite : c.write? = some (key, body)) (hkind : key.kind = .ingressRoutes) :
    Routed u d base past key body := by
  obtain ⟨ready, -, -, h, s', own, hled, rfl, rest, hown⟩ := hd
  have hready : Ready u h := hled.ends (grounds_leadUp settings container now ready)
    fun _ _ => trivial
  have hhonours : (deployService settings container now u.app u.needsPullSecret base d).Honours
      (grounding u (Routed u d base)) h fun h' _ => Ready u h' :=
    grounds_deployService settings container now base hready fun _ _ _ hr => hr
  exact (before_of_honours hhonours (fun _ _ => trivial) hown key body hwrite).2 hkind

theorem not_ingressRoutes_of_prepare {past : History}
    (hprepare : (prepare settings u).Reaches answer s past (c, a))
    (hwrite : c.write? = some (key, body)) : key.kind ≠ .ingressRoutes := by
  obtain ⟨rest, hsplit⟩ := hprepare
  -- the contract that forbids them is kept
  have hhonours : (prepare settings u).Honours (grounding u fun _ _ _ => False) []
      fun h' _ => Ready u h' := grounds_prepare settings
  exact (before_of_honours hhonours (fun _ _ => trivial) hsplit key body hwrite).2

end Places

/-- Every object that is written refers only to what was written or found before. An ingress route
is the one of the service that is being deployed, behind the base route that was read. -/
def NeverDangles {σ : Type} (answer : Call → σ → Answer × σ) (s : σ) (settings : Settings)
    (container : ContainerConfig) (now : Timestamp) (u : DeploymentUnit) : Prop :=
  ∀ past c a rest, (deploy settings container now u).history answer s = past ++ (c, a) :: rest →
    ∀ key body, c.write? = some (key, body) → Grounded u past key body ∧
      (key.kind = .ingressRoutes → ∃ d base,
        Deploying answer settings container now u s d base past (c, a) ∧
          Routed u d base past key body)

theorem deploy_neverDangles {σ : Type} (answer : Call → σ → Answer × σ) (s : σ)
    (settings : Settings) (container : ContainerConfig) (now : Timestamp) (u : DeploymentUnit) :
    NeverDangles answer s settings container now u := by
  intro past c a rest hsplit key body hwrite
  have hgrounded := before_of_honours (grounds_deploy settings container now) (fun _ _ => trivial)
    hsplit key body hwrite
  refine ⟨hgrounded.1, ?_⟩
  intro hkind
  rcases reaches_deploy ⟨rest, hsplit⟩ with hprepare | ⟨d, base, hd⟩
  · exact absurd hkind (not_ingressRoutes_of_prepare hprepare hwrite)
  · exact ⟨d, base, hd, routed_of_deploying hd hwrite hkind⟩

end PreviewApps.Cluster
