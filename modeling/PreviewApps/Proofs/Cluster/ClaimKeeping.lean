import PreviewApps.Proofs.Agreement
import PreviewApps.Proofs.Cluster.Backing
import PreviewApps.Proofs.Cluster.ClaimLabels
import PreviewApps.Proofs.Cluster.ClaimServer
import PreviewApps.Proofs.Cluster.Grounding
import PreviewApps.Proofs.Cluster.Redeployment

/-!
Claims over many deployments, some of which may fail. What was created is known by its labels only,
and it is found again, so that there is one claim for a service and a storage type and every path
leads to its own.
-/

namespace PreviewApps.Cluster

open Program

def createdFor (app : AppName) (h : History) (service type : String) : List Json :=
  (createdIn app.namespaceId h).filter fun claim =>
    hasLabel Label.serviceName service claim && hasLabel Label.storageType type claim

structure WellKept (app : AppName) (h : History) : Prop where
  labelled : ∀ claim ∈ createdIn app.namespaceId h, ∃ service path,
    claim.path ["metadata", "labels"] = .ofMap (Labels.ofNamed app service ++
      [(Label.storageType, ClaimManifest.storageTypeOf path)])
  single : ∀ service type, ',' ∉ service.toList → (createdFor app h service type).length ≤ 1

/-- The declared paths of a service lead to the claims of the service and their storage types. -/
def Led (app : AppName) (h : History) (d : DeployableService) (claims : List (String × Claim))
    (deployment : Json) : Prop :=
  ∀ path ∈ d.declaredVolumes, ∃ claim c,
    createdFor app h d.name (ClaimManifest.storageTypeOf path) = [claim] ∧
    claims.lookup path = some c ∧ Claim.ofJson? claim = some c ∧
    ((∀ e ∈ d.files, e.1.parent.volumeName ≠ c.volumeName) →
      deployment.LeadsTo path (claimName claim))

/-- The deployment is the one of `d` in the rollout, with claims for its paths. -/
def IsLed (app : AppName) (r : Rollout) (d : DeployableService) (h : History) (deployment : Json) :
    Prop :=
  ∃ claims,
    deployment =
      (Deployment.ofService app d r.container r.unit.needsPullSecret claims r.now).toJson ∧
    (',' ∉ d.name.toList → Led app h d claims deployment)

def Guarded (app : AppName) (h : History) : Prop := Faithful app.namespaceId h → WellKept app h

/-- As long as the answers are truthful, claims are kept and the deployments as they are to be. -/
def keeping (app : AppName) (led : History → Json → Prop) : Contract where
  expects _ := True
  before h c := c.SparesClaims ∧ ∀ key body, c.write? = some (key, body) →
    key.kind = .deployments → Faithful app.namespaceId h → led h body
  faulty h _ := Guarded app h

section Histories

variable {ns : String} {app : AppName} {h h' : History} {x : Exchange} {service type : String}
  {claim : Json}

theorem createdFor_concat_of_none (hx : created? app.namespaceId x = none) :
    createdFor app (h ++ [x]) = createdFor app h := by
  unfold createdFor
  rw [createdIn_concat_of_none hx]

theorem createdFor_sublist (app : AppName) (service type : String) (hh : h <+: h') :
    (createdFor app h service type).Sublist (createdFor app h' service type) := by
  obtain ⟨more, rfl⟩ := hh
  unfold createdFor createdIn
  rw [List.filterMap_append, List.filter_append]
  exact List.sublist_append_left ..

theorem WellKept.createdFor_eq (hkept : WellKept app h') (hservice : ',' ∉ service.toList)
    (hh : h <+: h') (hclaim : createdFor app h service type = [claim]) :
    createdFor app h' service type = [claim] := by
  have hsub := createdFor_sublist app service type hh
  rw [hclaim] at hsub
  exact (hsub.eq_of_length_le (hkept.single service type hservice)).symm

theorem Guarded.concat_of_none (hh : Guarded app h) (hx : created? app.namespaceId x = none) :
    Guarded app (h ++ [x]) := by
  intro hfaithful
  obtain ⟨labelled, single⟩ := hh (faithful_concat_iff.1 hfaithful).1
  constructor
  · rw [createdIn_concat_of_none hx]
    exact labelled
  · rw [createdFor_concat_of_none hx]
    exact single

theorem wellKept_nil (app : AppName) : WellKept app [] :=
  ⟨fun _ h => absurd h List.not_mem_nil, fun _ _ _ => Nat.zero_le 1⟩

end Histories

structure Call.Aside (c : Call) : Prop where
  spares : c.SparesClaims
  created : ∀ ns a, created? ns (c, a) = none
  other : ∀ key body, c.write? = some (key, body) → key.kind ≠ .deployments

section Rules

variable {α β : Type} {app : AppName} {led : History → Json → Prop} {p : Program α} {h : History}
  {c : Call}

def Minds (app : AppName) (led : History → Json → Prop) (p : Program α) : Prop :=
  ∀ h, Guarded app h → p.Honours (keeping app led) h fun h' _ => Guarded app h'

theorem Call.Aside.before (hc : c.Aside) (h : History) : (keeping app led).before h c :=
  ⟨hc.spares, fun key body hw hkind => absurd hkind (hc.other key body hw)⟩

theorem Call.Aside.guarded (hc : c.Aside) (hh : Guarded app h) (a : Answer) :
    Guarded app (h ++ [(c, a)]) := hh.concat_of_none (hc.created _ a)

theorem aside_get (kind : Kind) (ns name : String) : (Call.get kind ns name).Aside :=
  ⟨trivial, fun _ _ => rfl, fun _ _ hw => by cases hw⟩

theorem aside_list (kind : Kind) (ns selector : String) : (Call.list kind ns selector).Aside :=
  ⟨trivial, fun _ _ => rfl, fun _ _ hw => by cases hw⟩

theorem aside_delete {kind : Kind} (hclaims : kind ≠ .claims) (hns : kind ≠ .namespaces)
    (ns name : String) : (Call.delete kind ns name).Aside :=
  ⟨⟨hclaims, hns⟩, fun _ _ => rfl, fun _ _ hw => by cases hw⟩

theorem aside_create {kind : Kind} (hclaims : kind ≠ .claims) (hother : kind ≠ .deployments)
    (ns : String) (body : Json) : (Call.create kind ns body).Aside := by
  refine ⟨trivial, fun ns' => created?_create_of_ne hclaims ns' ns body, ?_⟩
  intro key body' hw
  cases hw
  exact hother

theorem created?_updateCall (mode : UpdateMode) (kind : Kind) (ns ns' name : String) (body : Json)
    (a : Answer) : created? ns (updateCall mode kind ns' name body, a) = none := by
  cases mode <;> rfl

theorem sparesClaims_updateCall {kind : Kind} (hkind : kind ≠ .claims) (mode : UpdateMode)
    (ns name : String) (body : Json) : (updateCall mode kind ns name body).SparesClaims := by
  cases mode with
  | patch => exact hkind
  | replace => exact hkind

theorem write?_updateCall (mode : UpdateMode) (kind : Kind) (ns name : String) (body : Json) :
    (updateCall mode kind ns name body).write? = some (⟨kind, ns, name⟩, body) := by
  cases mode <;> rfl

theorem minds_ofExcept (r : Except Fault α) : Minds app led (ofExcept r) :=
  fun _ hh => honours_ofExcept (fun _ _ => hh) fun _ _ => hh

theorem Minds.bind {f : α → Program β} (hp : Minds app led p) (hf : ∀ a, Minds app led (f a)) :
    Minds app led (p >>= f) := by
  intro h hh
  apply Honours.bind
  apply (hp h hh).mono
  intro h' a hh'
  exact hf a h' hh'

theorem minds_closed (app : AppName) (led : History → Json → Prop) : Closed (Minds app led) :=
  ⟨minds_ofExcept, Minds.bind⟩

theorem Minds.discard (hp : Minds app led p) : Minds app led (Functor.discard p) :=
  (minds_closed app led).discard hp

theorem minds_must {action : Action} (hc : c.Aside) : Minds app led (must action c) := by
  intro h hh
  apply honours_must (hc.before h)
  · exact fun j _ => hc.guarded hh _
  · exact fun e => hc.guarded hh _

theorem minds_may {absorbed : List Int} {action : Action} (hc : c.Aside) :
    Minds app led (may absorbed action c) := by
  intro h hh
  apply honours_may (hc.before h)
  · exact fun j _ => hc.guarded hh _
  · exact fun e _ => hc.guarded hh _
  · exact fun e _ => hc.guarded hh _

theorem honours_upsert {mode : UpdateMode} {kind : Kind} {ns name : String} {body : Json}
    {creating updating : Action} (hkind : kind ≠ .claims) (hh : Guarded app h)
    (hled : kind = .deployments → ∀ h', h <+: h' → createdFor app h' = createdFor app h →
      Faithful app.namespaceId h' → led h' body) :
    (upsert mode kind ns name body creating updating).Honours (keeping app led) h
      fun h' _ => Guarded app h' := by
  have hnone := created?_create_of_ne hkind app.namespaceId ns body
  have hsame := created?_updateCall mode kind app.namespaceId ns name body
  have hh' : ∀ a, Guarded app (h ++ [(.create kind ns body, a)]) :=
    fun a => hh.concat_of_none (hnone a)
  apply honours_createOrUpdate
  · refine ⟨trivial, ?_⟩
    intro key body' hw hkey hfaithful
    cases hw
    exact hled hkey h (List.prefix_refl h) rfl hfaithful
  · exact fun j _ => hh' _
  · intro e _
    apply honours_must
    · refine ⟨sparesClaims_updateCall hkind mode ns name body, ?_⟩
      intro key body' hw hkey hfaithful
      rw [write?_updateCall] at hw
      cases hw
      exact hled hkey _ (List.prefix_append h _) (createdFor_concat_of_none (hnone _)) hfaithful
    · exact fun j _ => (hh' _).concat_of_none (hsame _)
    · exact fun e' => (hh' _).concat_of_none (hsame _)
  · exact fun e _ => hh' _

theorem minds_upsert {mode : UpdateMode} {kind : Kind} {ns name : String} {body : Json}
    {creating updating : Action} (hkind : kind ≠ .claims) (hother : kind ≠ .deployments) :
    Minds app led (upsert mode kind ns name body creating updating) :=
  fun _ hh => honours_upsert hkind hh fun hkey => absurd hkey hother

end Rules

section Claims

variable {app : AppName} {led : History → Json → Prop} {h : History} {service : String}

def Known (app : AppName) (service : String) (h : History) (byType : List (String × Json)) : Prop :=
  ',' ∉ service.toList → Faithful app.namespaceId h →
    ∀ type, byType.lookup type = (createdFor app h service type).head?

theorem createdFor_concat_claim {body claim : Json} {path : String}
    (hlabels : claim.path ["metadata", "labels"] = .ofMap (Labels.ofNamed app service ++
      [(Label.storageType, ClaimManifest.storageTypeOf path)])) (service' type : String) :
    createdFor app (h ++ [(.create .claims app.namespaceId body, .ok claim)]) service' type =
      createdFor app h service' type ++
        if service = service' ∧ ClaimManifest.storageTypeOf path = type then [claim] else [] := by
  have hservice := hasLabel_serviceName hlabels service'
  have htype := hasLabel_storageType hlabels type
  unfold createdFor
  rw [createdIn_concat, List.filter_append]
  have hcreated : created? app.namespaceId (.create .claims app.namespaceId body, .ok claim) =
      some claim := if_pos rfl
  simp only [hcreated, Option.toList_some, List.filter_cons, hservice, htype, List.filter_nil,
    Bool.and_eq_true, beq_iff_eq]

theorem WellKept.concat_claim (hkept : WellKept app h) {body claim : Json} {path : String}
    (hlabels : claim.path ["metadata", "labels"] = .ofMap (Labels.ofNamed app service ++
      [(Label.storageType, ClaimManifest.storageTypeOf path)]))
    (hnew : ',' ∉ service.toList →
      createdFor app h service (ClaimManifest.storageTypeOf path) = []) :
    WellKept app (h ++ [(.create .claims app.namespaceId body, .ok claim)]) := by
  have hcreated : created? app.namespaceId (.create .claims app.namespaceId body, .ok claim) =
      some claim := if_pos rfl
  constructor
  · rw [createdIn_concat, hcreated]
    intro j hj
    rcases List.mem_append.1 hj with hj | hj
    · exact hkept.labelled j hj
    · rw [List.mem_singleton.1 hj]
      exact ⟨service, path, hlabels⟩
  · intro service' type hservice'
    rw [createdFor_concat_claim hlabels]
    split
    · next hsame =>
      obtain ⟨rfl, rfl⟩ := hsame
      rw [hnew hservice']
      exact Nat.le_refl 1
    · rw [List.append_nil]
      exact hkept.single service' type hservice'

theorem honours_claimFor (storage : StorageConfig) (path : String)
    {byType : List (String × Json)} (hh : Guarded app h) (hknown : Known app service h byType) :
    (claimFor app service storage path byType).Honours (keeping app led) h fun h' claim =>
      Guarded app h' ∧
      Known app service h' (Assoc.insertNew (ClaimManifest.storageTypeOf path) claim byType) ∧
      (',' ∉ service.toList → Faithful app.namespaceId h' →
        createdFor app h' service (ClaimManifest.storageTypeOf path) = [claim]) := by
  unfold claimFor
  cases hfound : byType.lookup (ClaimManifest.storageTypeOf path) with
  | some claim =>
    have hsame : Assoc.insertNew (ClaimManifest.storageTypeOf path) claim byType = byType :=
      if_pos (by rw [hfound]; rfl)
    refine ⟨hh, hsame.symm ▸ hknown, ?_⟩
    intro hservice hfaithful
    have hhead := hknown hservice hfaithful (ClaimManifest.storageTypeOf path)
    have hle := (hh hfaithful).single service (ClaimManifest.storageTypeOf path) hservice
    rw [hfound] at hhead
    obtain ⟨rest, hcreated⟩ := List.head?_eq_some_iff.1 hhead.symm
    rw [hcreated] at hle ⊢
    rw [List.length_eq_zero_iff.1 (Nat.le_zero.1 (Nat.le_of_succ_le_succ hle))]
  | none =>
    let body := (ClaimManifest.ofVolume app service storage.size storage.className path).toJson
    have hempty : ',' ∉ service.toList → Faithful app.namespaceId h →
        createdFor app h service (ClaimManifest.storageTypeOf path) = [] := by
      intro hservice hfaithful
      have hhead := hknown hservice hfaithful (ClaimManifest.storageTypeOf path)
      rw [hfound] at hhead
      exact List.head?_eq_none_iff.1 hhead.symm
    have hlabels : ∀ claim, Faithful app.namespaceId
        (h ++ [(.create .claims app.namespaceId body, .ok claim)]) →
        claim.path ["metadata", "labels"] = .ofMap (Labels.ofNamed app service ++
          [(Label.storageType, ClaimManifest.storageTypeOf path)]) :=
      fun claim hfaithful => (faithful_concat_iff.1 hfaithful).2 rfl
    have hkept : ∀ claim, Guarded app
        (h ++ [(.create .claims app.namespaceId body, .ok claim)]) := by
      intro claim hfaithful
      have hearlier := (faithful_concat_iff.1 hfaithful).1
      exact (hh hearlier).concat_claim (hlabels claim hfaithful) fun hs => hempty hs hearlier
    apply Honours.bind
    apply honours_must
    · refine ⟨trivial, ?_⟩
      intro key body' hw hkey
      cases hw
      cases hkey
    · intro claim _
      apply honours_ofExcept
      · intro claim' hclaim'
        rw [eq_of_checkCreated hclaim']
        refine ⟨hkept claim, ?_, ?_⟩
        · intro hservice hfaithful type
          have hearlier := (faithful_concat_iff.1 hfaithful).1
          rw [lookup_insertNew, createdFor_concat_claim (hlabels claim hfaithful), List.head?_append,
            hknown hservice hearlier]
          by_cases htype : ClaimManifest.storageTypeOf path = type
          · simp [htype]
          · simp [htype, Ne.symm htype]
        · intro hservice hfaithful
          have hearlier := (faithful_concat_iff.1 hfaithful).1
          rw [createdFor_concat_claim (hlabels claim hfaithful), hempty hservice hearlier,
            if_pos ⟨rfl, rfl⟩]
          rfl
      · exact fun e _ => hkept claim
    · exact fun e => hh.concat_of_none rfl

theorem honours_assignClaims (storage : StorageConfig) (paths : List String)
    {byType : List (String × Json)} (hh : Guarded app h) (hknown : Known app service h byType) :
    (assignClaims app service storage paths byType).Honours (keeping app led) h fun h' found =>
      Guarded app h' ∧ found.map (·.1) = paths ∧
      (',' ∉ service.toList → Faithful app.namespaceId h' → ∀ e ∈ found,
        createdFor app h' service (ClaimManifest.storageTypeOf e.1) = [e.2]) := by
  induction paths generalizing h byType with
  | nil => exact ⟨hh, rfl, fun _ _ e he => absurd he List.not_mem_nil⟩
  | cons path paths ih =>
    rw [assignClaims_cons]
    apply Honours.bind
    apply (honours_claimFor storage path hh hknown).mono
    rintro h₁ claim ⟨hh₁, hknown₁, hclaim⟩
    apply Honours.bind
    apply (ih hh₁ hknown₁).extending.mono
    rintro h₂ rest ⟨hlater, hh₂, hpaths, hrest⟩
    refine ⟨hh₂, by rw [List.map_cons, hpaths], ?_⟩
    intro hservice hfaithful e he
    rcases List.mem_cons.1 he with rfl | he
    · have hthere := hclaim hservice (hfaithful.of_prefix hlater)
      exact (hh₂ hfaithful).createdFor_eq hservice hlater hthere
    · exact hrest hservice hfaithful e he

theorem WellKept.find?_listed (hkept : WellKept app h) (hservice : ',' ∉ service.toList)
    {found : List Json} (hfound : found.Perm ((createdIn app.namespaceId h).filter
      (Server.selects (Labels.ofNamed app service).selector))) (type : String) :
    found.find? (hasLabel Label.storageType type) = (createdFor app h service type).head? := by
  have happ : ∀ claim ∈ createdIn app.namespaceId h,
      Server.selects (Labels.ofNamed app service).selector claim =
        hasLabel Label.serviceName service claim := by
    intro claim hclaim
    obtain ⟨service', path, hlabels⟩ := hkept.labelled claim hclaim
    have howner := hasLabel_appName hlabels
    rw [selects_ofNamed app hservice, howner, Bool.true_and]
  rw [List.filter_congr happ] at hfound
  have hperm := hfound.filter (hasLabel Label.storageType type)
  rw [List.filter_filter] at hperm
  have hsame : (createdIn app.namespaceId h).filter (fun claim =>
      hasLabel Label.storageType type claim && hasLabel Label.serviceName service claim) =
        createdFor app h service type :=
    List.filter_congr fun claim _ => Bool.and_comm ..
  rw [hsame] at hperm
  have hle := hkept.single service type hservice
  rw [← List.head?_filter]
  cases hcreated : createdFor app h service type with
  | nil =>
    rw [hcreated] at hperm
    rw [List.perm_nil.1 hperm]
  | cons claim rest =>
    rw [hcreated] at hperm hle
    have hrest : rest = [] := List.length_eq_zero_iff.1 (Nat.le_zero.1 (Nat.le_of_succ_le_succ hle))
    rw [hrest] at hperm ⊢
    rw [List.perm_singleton.1 hperm]

theorem honours_claimsFor {settings : Settings} {storage : StorageConfig}
    (hstorage : settings.runtime.storage = some storage) (d : DeployableService)
    (hh : Guarded app h) :
    (claimsFor settings app d).Honours (keeping app led) h fun h' found =>
      Guarded app h' ∧ found.map (·.1) = d.declaredVolumes ∧
      (',' ∉ d.name.toList → Faithful app.namespaceId h' → ∀ e ∈ found,
        createdFor app h' d.name (ClaimManifest.storageTypeOf e.1) = [e.2]) := by
  unfold claimsFor
  rw [hstorage]
  dsimp only
  split
  · next hnone =>
    rw [List.isEmpty_iff.1 hnone]
    exact ⟨hh, rfl, fun _ _ e he => absurd he List.not_mem_nil⟩
  · have haside := aside_list .claims app.namespaceId (Labels.ofNamed app d.name).selector
    apply Honours.bind
    apply honours_must (haside.before h)
    · intro found _
      have hh₁ := haside.guarded hh (.ok found)
      apply Honours.bind
      apply honours_ofExcept
      · intro byType hbyType
        apply honours_assignClaims storage d.declaredVolumes hh₁
        intro hservice hfaithful type
        obtain ⟨hearlier, htruth⟩ := faithful_concat_iff.1 hfaithful
        have hperm := htruth rfl
        have hkept := hh hearlier
        rw [lookup_claimsByType hbyType, createdFor_concat_of_none rfl]
        exact hkept.find?_listed hservice hperm type
      · exact fun e _ => hh₁
    · exact fun e => haside.guarded hh _

end Claims

section Deployments

variable {app : AppName} {led : History → Json → Prop} {rs : List Rollout} {h : History}

theorem hasLabel_of_createdFor {service type : String} {claim : Json}
    (h : createdFor app h service type = [claim]) : hasLabel Label.storageType type claim := by
  have hmem := h.symm ▸ List.mem_singleton_self claim
  exact (Bool.and_eq_true_iff.1 (List.mem_filter.1 hmem).2).2

theorem led_of_readClaims {d : DeployableService} {found : List (String × Json)}
    {claims : List (String × Claim)} (hread : readClaims found = .ok claims)
    (hpaths : found.map (·.1) = d.declaredVolumes)
    (hfound : ∀ e ∈ found, createdFor app h d.name (ClaimManifest.storageTypeOf e.1) = [e.2])
    (container : ContainerConfig) (usePullSecret : Bool) (now : Timestamp) :
    Led app h d claims
      (Deployment.ofService app d container usePullSecret claims now).toJson := by
  have hassigned : Assignment d.declaredVolumes found := by
    refine ⟨hpaths, fun e he => hasLabel_of_createdFor (hfound e he), ?_⟩
    intro e he e' he' htype
    have hsame := hfound e he
    rw [htype, hfound e' he'] at hsame
    exact (List.cons.inj hsame).1.symm
  obtain rfl : claims = found.map claimOf :=
    Except.ok.inj (hread.symm.trans hassigned.readClaims_eq)
  intro path hpath
  obtain ⟨claim, hclaim⟩ := hassigned.exists_lookup hpath
  have hcreated := hfound _ (Assoc.mem_of_lookup hclaim)
  have hown := ofJson?_of_hasLabel (hasLabel_of_createdFor hcreated)
  refine ⟨claim, (claimOf (path, claim)).2, hcreated, ?_, hown, ?_⟩
  · rw [lookup_map_claimOf, hclaim]
    rfl
  · intro hfiles
    have hbacked := hassigned.backedBy_iff (fun p hp => hp) hclaim app container usePullSecret now
    exact (hbacked.2 hfiles).leadsTo

theorem minds_upsertFiles (app : AppName) (d : DeployableService) :
    Minds app led (upsertFiles app d) :=
  (minds_closed app led).upsertFiles app d (minds_upsert (by decide) (by decide))

theorem minds_upsertRoutes (app : AppName) (d : DeployableService) (base : Option IngressRoute) :
    Minds app led (upsertRoutes app d base) := by
  apply (minds_closed app led).upsertRoutes
  · exact fun _ _ => (minds_upsert (by decide) (by decide)).discard
  · exact fun _ _ => minds_upsert (by decide) (by decide)

theorem honours_deployService {settings : Settings} {storage : StorageConfig}
    (hstorage : settings.runtime.storage = some storage) (r : Rollout) (d : DeployableService)
    (base : Option IngressRoute) (hled : ∀ h body, IsLed app r d h body → led h body)
    (hh : Guarded app h) :
    (deployService settings r.container r.now app r.unit.needsPullSecret base d).Honours
      (keeping app led) h fun h' _ => Guarded app h' := by
  unfold deployService
  apply Honours.bind
  apply (minds_upsertFiles app d h hh).mono
  intro h₁ _ hh₁
  apply Honours.bind
  apply (honours_claimsFor hstorage d hh₁).mono
  rintro h₂ found ⟨hh₂, hpaths, hfound⟩
  apply Honours.bind
  apply honours_ofExcept
  · intro claims hread
    apply Honours.bind
    apply (honours_upsert (by decide) hh₂ _).mono
    · intro h₃ stored hh₃
      have hrest : Minds app led (do
          discard <| upsertObject .patch .services app.namespaceId d.name
            (ServiceManifest.ofConfig app d.config).toJson
          upsertRoutes app d base
          .ofExcept (serviceOf stored)) := by
        apply (minds_upsert (by decide) (by decide)).discard.bind
        intro _
        apply (minds_upsertRoutes app d base).bind
        intro _
        exact minds_ofExcept _
      exact hrest h₃ hh₃
    · intro _ h' hlater hsame hfaithful
      refine hled h' _ ⟨claims, rfl, ?_⟩
      intro hservice
      apply led_of_readClaims hread hpaths
      rw [hsame]
      exact hfound hservice (hfaithful.of_prefix hlater)
  · exact fun e _ => hh₂

theorem minds_providePullSecret (u : DeploymentUnit) : Minds app led (providePullSecret u) := by
  apply (minds_closed app led).providePullSecret
  · exact minds_may (aside_delete (by decide) (by decide) _ _)
  · exact minds_must (aside_create (by decide) (by decide) _ _)

theorem minds_baseRoute (settings : Settings) : Minds app led (baseRoute settings) :=
  (minds_closed app led).baseRoute settings fun _ _ => minds_may (aside_get _ _ _)

theorem minds_prepare (settings : Settings) (u : DeploymentUnit) :
    Minds app led (prepare settings u) := by
  have hnamespace : Minds app led (upsertNamespace settings u.app) :=
    (minds_upsert (by decide) (by decide)).discard
  exact hnamespace.bind fun _ => (minds_providePullSecret u).bind fun _ => minds_baseRoute settings

theorem minds_deployServices {settings : Settings} {storage : StorageConfig}
    (hstorage : settings.runtime.storage = some storage) (r : Rollout) (base : Option IngressRoute)
    (ds : List DeployableService) :
    Minds app (fun _ _ => True)
      (ds.mapM (deployService settings r.container r.now app r.unit.needsPullSecret base)) := by
  intro h hh
  apply (honours_mapM (I := Guarded app) (R := fun _ _ => True) _ hh).mono
  · exact fun _ _ hh' => hh'.1
  · intro d _ h' hh'
    apply (honours_deployService hstorage r d base (fun _ _ _ => trivial) hh').mono
    exact fun _ _ hh'' => ⟨hh'', trivial⟩

theorem minds_leadUp {settings : Settings} {storage : StorageConfig}
    (hstorage : settings.runtime.storage = some storage) (r : Rollout)
    (ready : List DeployableService) :
    Minds r.unit.app (fun _ _ => True) (leadUp settings r.container r.now r.unit ready) := by
  apply (minds_prepare settings r.unit).bind
  intro base
  apply (minds_deployServices hstorage r base ready).bind
  exact fun _ => minds_ofExcept (.ok base)

theorem minds_rollOut {settings : Settings} {storage : StorageConfig}
    (hstorage : settings.runtime.storage = some storage) (r : Rollout) :
    Minds r.unit.app (fun _ _ => True) (rollOut settings r) := by
  rw [rollOut, deploy_eq_prepare]
  exact (minds_prepare settings r.unit).bind fun base => minds_deployServices hstorage r base _

/-- Deployments one after the other, of which any may fail. -/
def attempts (settings : Settings) (rs : List Rollout) :
    Program (List (Except Fault (List (Option Service)))) :=
  rs.mapM fun r => (rollOut settings r).attempt

theorem minds_attempts {settings : Settings} {storage : StorageConfig}
    (hstorage : settings.runtime.storage = some storage) (happ : ∀ r ∈ rs, r.unit.app = app) :
    Minds app (fun _ _ => True) (attempts settings rs) := by
  intro h hh
  apply (honours_mapM (I := Guarded app) (R := fun _ _ => True) _ hh).mono
  · exact fun _ _ hh' => hh'.1
  · intro r hr h' hh'
    obtain rfl := happ r hr
    apply honours_attempt (minds_rollOut hstorage r h' hh')
    · exact fun _ _ hh'' => ⟨hh'', trivial⟩
    · exact fun _ _ hh'' => ⟨hh'', trivial⟩

end Deployments

section Places

variable {σ : Type} {answer : Call → σ → Answer × σ} {settings : Settings} {app : AppName}
  {rs : List Rollout} {s : σ} {past : History} {x : Exchange}

/-- The exchange is one of deploying `d`, the next service of the rollout that is next. -/
def RollingOut (answer : Call → σ → Answer × σ) (settings : Settings) (rs : List Rollout) (s : σ)
    (r : Rollout) (d : DeployableService) (past : History) (x : Exchange) : Prop :=
  ∃ done waiting, rs = done ++ r :: waiting ∧ ∃ h replies s' base own,
    (attempts settings done).Passes answer s h replies s' ∧ past = h ++ own ∧
    Deploying answer settings r.container r.now r.unit s' d base own x

theorem reaches_attempts (h : (attempts settings rs).Reaches answer s past x) :
    ∃ done r waiting, rs = done ++ r :: waiting ∧ ∃ h replies s' own,
      (attempts settings done).Passes answer s h replies s' ∧ past = h ++ own ∧
      (rollOut settings r).Reaches answer s' own x := by
  obtain ⟨done, r, waiting, hrs, h₁, replies, s₁, own, hdone, hpast, rest, hr⟩ := reaches_mapM h
  rw [history_attempt] at hr
  exact ⟨done, r, waiting, hrs, h₁, replies, s₁, own, hdone, hpast, rest, hr⟩

theorem exists_isLed_of_reaches {storage : StorageConfig}
    (hstorage : settings.runtime.storage = some storage) (happ : ∀ r ∈ rs, r.unit.app = app)
    {c : Call} {a : Answer} (h : (attempts settings rs).Reaches answer s past (c, a))
    (hfaithful : Faithful app.namespaceId past) {key : Key} {body : Json}
    (hw : c.write? = some (key, body)) (hkind : key.kind = .deployments) :
    ∃ r d, RollingOut answer settings rs s r d past (c, a) ∧ IsLed app r d past body := by
  obtain ⟨done, r, waiting, rfl, h₁, replies, s₁, own, hdone, rfl, hr⟩ := reaches_attempts h
  have hguarded : Guarded app h₁ := by
    have happ' : ∀ r ∈ done, r.unit.app = app := fun r hr => happ r (List.mem_append_left _ hr)
    exact hdone.ends (minds_attempts hstorage happ' [] fun _ => wellKept_nil app) fun _ _ => trivial
  obtain rfl := happ r (List.mem_append_right done (List.mem_cons_self ..))
  rcases reaches_deploy hr with ⟨rest, hprepare⟩ | ⟨d, base, hd⟩
  · -- before the first service there are no deployments
    have hminds : Minds r.unit.app (fun _ _ => False) (prepare settings r.unit) :=
      minds_prepare settings r.unit
    have hnone := before_of_honours (hminds h₁ hguarded) (fun _ _ => trivial) hprepare
    exact (hnone.2 key body hw hkind hfaithful).elim
  · refine ⟨r, d, ⟨done, waiting, rfl, h₁, replies, s₁, base, own, hdone, rfl, hd⟩, ?_⟩
    obtain ⟨ready, -, -, h₂, s₂, own, hled, rfl, rest, hown⟩ := hd
    have hready := hled.ends (minds_leadUp hstorage r ready h₁ hguarded) fun _ _ => trivial
    have hhonours := honours_deployService hstorage r d base (fun _ _ h => h) hready
    have hbefore := before_of_honours hhonours (fun _ _ => trivial) hown
    rw [List.append_assoc] at hbefore
    exact hbefore.2 key body hw hkind hfaithful

end Places

theorem faithful_history {σ α : Type} (server : ClaimServer σ) {ns : String} {app : AppName}
    {led : History → Json → Prop} {p : Program α} {h : History} {Q : History → α → Prop} {s : σ}
    (hp : p.Honours (keeping app led) h Q) (hh : Faithful ns h)
    (hclaims : (server.claims ns s).Perm (createdIn ns h)) :
    Faithful ns (h ++ p.history server.answer s) := by
  induction p generalizing h s with
  | done r =>
    rw [history, List.append_nil]
    exact hh
  | call c next ih =>
    have hnext : Faithful ns (h ++ [(c, (server.answer c s).1)]) :=
      faithful_concat_iff.2 ⟨hh, server.truthful hclaims c⟩
    have hkept : (server.claims ns (server.answer c s).2).Perm
        (createdIn ns (h ++ [(c, (server.answer c s).1)])) := by
      rw [createdIn_concat]
      exact (server.kept hp.1.1 ns).trans (hclaims.append_right _)
    have hlast := ih _ (hp.2 _ trivial) hnext hkept
    rwa [List.append_assoc] at hlast

/-- However many deployments of an application there are and whichever calls fail, there is at most
one claim for a service and a storage type, and the paths of the service that is being deployed lead
to the claims of their own. -/
theorem one_claim_per_volume {σ : Type} (server : ClaimServer σ) {settings : Settings}
    {storage : StorageConfig} (hstorage : settings.runtime.storage = some storage) {app : AppName}
    {rs : List Rollout} (happ : ∀ r ∈ rs, r.unit.app = app) {s : σ}
    (hnew : server.claims app.namespaceId s = []) :
    (∀ service type, ',' ∉ service.toList →
      (createdFor app ((attempts settings rs).history server.answer s) service type).length ≤ 1) ∧
    ∀ past c a rest, (attempts settings rs).history server.answer s = past ++ (c, a) :: rest →
      ∀ key body, c.write? = some (key, body) → key.kind = .deployments →
        ∃ r d, RollingOut server.answer settings rs s r d past (c, a) ∧
          IsLed app r d past body := by
  have hhonours := minds_attempts hstorage happ [] fun _ => wellKept_nil app
  have hfaithful : Faithful app.namespaceId ((attempts settings rs).history server.answer s) := by
    apply faithful_history server hhonours
    · intro past x rest hsplit
      cases past <;> cases hsplit
    · rw [hnew]
      exact List.Perm.nil
  constructor
  · have hkept : WellKept app ((attempts settings rs).history server.answer s) := by
      rcases ending_of_honours hhonours fun _ _ => trivial with ⟨_, -, hall⟩ | ⟨_, -, hall⟩
      · exact hall hfaithful
      · exact hall hfaithful
    exact hkept.single
  · intro past c a rest hsplit key body hw hkind
    apply exists_isLed_of_reaches hstorage happ ⟨rest, hsplit⟩ _ hw hkind
    rw [hsplit] at hfaithful
    exact hfaithful.of_prefix (List.prefix_append past _)

def volumesOf (service : String) (paths : List String) : Rollout where
  unit := ⟨.master, [{ webWith (.ofService .master service) with
    config := ⟨service, "nginx", none, none, 80, .standalone⟩, declaredVolumes := paths }], []⟩
  container := ⟨none⟩
  now := noon

/-- The first attempt fails when both claims are there already. -/
theorem one_claim_per_volume_after_failure :
    let rs := [volumesOf "web" ["/data", "/", "/backup/data/"], volumesOf "web" ["/", "/data"]]
    let server := Server.forClaims.failing
    let s := ([false, false, false, false, true], Server.empty)
    (((attempts webSettings rs).run server.answer s).1.toOption.map fun replies =>
      replies.map (·.toBool)) = some [false, true] ∧
    webSettings.runtime.storage = some ⟨1024, "local-path"⟩ ∧
    (∀ r ∈ rs, r.unit.app = .master) ∧ server.claims AppName.master.namespaceId s = [] ∧
    (∀ service type, ',' ∉ service.toList →
      (createdFor .master ((attempts webSettings rs).history server.answer s) service type).length
        ≤ 1) ∧
    ∀ past c a rest, (attempts webSettings rs).history server.answer s = past ++ (c, a) :: rest →
      ∀ key body, c.write? = some (key, body) → key.kind = .deployments →
        ∃ r d, RollingOut server.answer webSettings rs s r d past (c, a) ∧
          IsLed .master r d past body := by
  intro rs server s
  have happ : ∀ r ∈ rs, r.unit.app = .master := by
    intro r hr
    simp only [rs, List.mem_cons, List.not_mem_nil, or_false] at hr
    rcases hr with rfl | rfl
    · rfl
    · rfl
  have hnew : server.claims AppName.master.namespaceId s = [] := rfl
  exact ⟨by decide +kernel, rfl, happ, hnew, one_claim_per_volume server rfl happ hnew⟩

/-- A comma in the name hides the claim from the next deployment. -/
theorem second_claim_of_comma :
    Server.forClaims.claims AppName.master.namespaceId .empty = [] ∧
      (createdFor .master ((attempts webSettings [volumesOf "a,b" ["/data"],
        volumesOf "a,b" ["/data"]]).history Server.forClaims.answer .empty) "a,b" "data").length =
          2 := by
  exact ⟨rfl, by decide +kernel⟩

end PreviewApps.Cluster
