import PreviewApps.Proofs.Cluster.ClaimLabels
import PreviewApps.Proofs.Cluster.ClaimServer
import PreviewApps.Proofs.Cluster.Deployed
import PreviewApps.Proofs.Cluster.Plans

/-!
Which claim a deployment uses. Of the stored claims of a service and a storage type it is the first
in the order in which they are listed, and since a claim is only created where there is none it
stays the first.
-/

namespace PreviewApps.Cluster

open Program

theorem eq_of_map_eq {α β : Type} {f : α → β} {P : α → Prop}
    (hinj : ∀ {x y}, P x → P y → f y = f x → y = x) {xs ys : List α} (hxs : ∀ x ∈ xs, P x)
    (hys : ∀ y ∈ ys, P y) (h : ys.map f = xs.map f) : ys = xs := by
  induction xs generalizing ys with
  | nil => exact List.map_eq_nil_iff.1 h
  | cons x xs ih =>
    cases ys with
    | nil => cases h
    | cons y ys =>
      obtain ⟨hfirst, hrest⟩ := List.cons.inj h
      obtain ⟨hx, hxs⟩ := List.forall_mem_cons.1 hxs
      obtain ⟨hy, hys⟩ := List.forall_mem_cons.1 hys
      rw [hinj hx hy hfirst, ih hxs hys hrest]

structure OwnAt (app : AppName) (m : Store) (service type : String) (key : Key) : Prop where
  kind : key.kind = .claims
  namespaceId : key.namespaceId = app.namespaceId
  labelled : ∃ claim, m key = some claim ∧ hasLabel Label.appName app.value claim ∧
    hasLabel Label.serviceName service claim ∧ hasLabel Label.storageType type claim

structure Leads (app : AppName) (v : OrderedStore) (service type : String) (key : Key) : Prop where
  own : OwnAt app v.store service type key
  first : ∀ {key'}, OwnAt app v.store service type key' → key' = key ∨ v.before key key'

def InUse (app : AppName) (v : OrderedStore) (service type : String) (claim : Json) : Prop :=
  ∃ key, Leads app v service type key ∧ v.store key = some claim

structure Grows (app : AppName) (v v' : OrderedStore) : Prop where
  kept : ∀ {key j}, key.kind = .claims → v.store key = some j → v'.store key = some j
  leads : ∀ {service type key}, Leads app v service type key → Leads app v' service type key

section Claims

variable {app : AppName} {m m' : Store} {v v' v'' : OrderedStore} {service type : String}
  {key key' : Key}

theorem OwnAt.congr (hm : SameClaims m m') (h : OwnAt app m service type key) :
    OwnAt app m' service type key := by
  refine ⟨h.kind, h.namespaceId, ?_⟩
  rw [hm key h.kind]
  exact h.labelled

theorem SameClaims.symm (h : SameClaims m m') : SameClaims m' m := fun key hkey => (h key hkey).symm

theorem Leads.unique (hasymm : ∀ {key key'}, v.before key key' → ¬v.before key' key)
    (h : Leads app v service type key) (h' : Leads app v service type key') : key' = key := by
  rcases h.first h'.own with hsame | hbefore
  · exact hsame
  · rcases h'.first h.own with hsame | hbefore'
    · exact hsame.symm
    · exact absurd hbefore' (hasymm hbefore)

theorem Leads.congr (hm : SameClaims v.store v'.store) (hv : KeepsOrder v v')
    (h : Leads app v service type key) : Leads app v' service type key := by
  refine ⟨h.own.congr hm, ?_⟩
  intro key' hown
  exact (h.first (hown.congr hm.symm)).imp id (hv key key')

theorem SameClaims.grows (h : SameClaims v.store v'.store) (hv : KeepsOrder v v') :
    Grows app v v' :=
  ⟨fun hkey hj => (h _ hkey).trans hj, fun hleads => hleads.congr h hv⟩

theorem Grows.trans (h : Grows app v v') (h' : Grows app v' v'') : Grows app v v'' :=
  ⟨fun hkey hj => h'.kept hkey (h.kept hkey hj), fun hleads => h'.leads (h.leads hleads)⟩

theorem InUse.unique (hasymm : ∀ {key key'}, v.before key key' → ¬v.before key' key)
    {claim claim' : Json} (h : InUse app v service type claim)
    (h' : InUse app v service type claim') : claim' = claim := by
  obtain ⟨key, hleads, hstored⟩ := h
  obtain ⟨key', hleads', hstored'⟩ := h'
  rw [hleads.unique hasymm hleads', hstored] at hstored'
  exact (Option.some.inj hstored').symm

theorem InUse.grows {claim : Json} (h : InUse app v service type claim) (hv : Grows app v v') :
    InUse app v' service type claim := by
  obtain ⟨key, hleads, hstored⟩ := h
  exact ⟨key, hv.leads hleads, hv.kept hleads.own.kind hstored⟩

section Put

variable {claim : Json} (hlabels : claim.path ["metadata", "labels"] =
  .ofMap (Labels.ofNamed app service ++ [(Label.storageType, type)]))

include hlabels

theorem ownAt_of_put {service' type' : String} (hother : service' = service → type' ≠ type)
    (h : OwnAt app (m.put key claim) service' type' key') : OwnAt app m service' type' key' := by
  obtain ⟨hkind, hns, own, hown, happ, hservice, htype⟩ := h
  by_cases hkey : key' = key
  · rw [hkey, Store.put_self] at hown
    cases hown
    rw [hasLabel_serviceName hlabels, beq_iff_eq] at hservice
    rw [hasLabel_storageType hlabels, beq_iff_eq] at htype
    exact absurd htype.symm (hother hservice.symm)
  · rw [Store.put_of_ne hkey] at hown
    exact ⟨hkind, hns, own, hown, happ, hservice, htype⟩

variable (hput : v'.store = v.store.put key claim)
  (hnone : ∀ key', ¬OwnAt app v.store service type key')

include hput hnone

theorem leads_put (hkind : key.kind = .claims) (hns : key.namespaceId = app.namespaceId) :
    Leads app v' service type key := by
  constructor
  · rw [hput]
    refine ⟨hkind, hns, claim, Store.put_self .., hasLabel_appName hlabels, ?_, ?_⟩
    · rw [hasLabel_serviceName hlabels, beq_self_eq_true]
    · rw [hasLabel_storageType hlabels, beq_self_eq_true]
  · rw [hput]
    rintro key' ⟨hkind', hns', own, hown, hlabelled⟩
    by_cases hkey : key' = key
    · exact .inl hkey
    · rw [Store.put_of_ne hkey] at hown
      exact absurd ⟨hkind', hns', own, hown, hlabelled⟩ (hnone key')

theorem grows_put (hnew : v.store key = none) (hv : KeepsOrder v v') : Grows app v v' := by
  have hkept : ∀ {key' j}, v.store key' = some j → v'.store key' = some j := by
    intro key' j hj
    rw [hput, Store.put_of_ne _ claim v.store, hj]
    rintro rfl
    rw [hnew] at hj
    cases hj
  refine ⟨fun _ => hkept, ?_⟩
  intro service' type' key' hleads
  obtain ⟨old, hold, hlabelled⟩ := hleads.own.labelled
  refine ⟨⟨hleads.own.kind, hleads.own.namespaceId, old, hkept hold, hlabelled⟩, ?_⟩
  intro other hown
  rw [hput] at hown
  -- the new claim is of another volume, since this one has a claim
  have hother : service' = service → type' ≠ type := by
    rintro rfl rfl
    exact hnone key' hleads.own
  exact (hleads.first (ownAt_of_put hlabels hother hown)).imp id (hv key' other)

end Put

structure Knows (app : AppName) (v : OrderedStore) (service : String)
    (byType : List (String × Json)) : Prop where
  found : ∀ {type claim}, byType.lookup type = some claim → InUse app v service type claim
  missing : ∀ {type}, byType.lookup type = none → ∀ key, ¬OwnAt app v.store service type key

section Listed

variable {keys : List Key} (hservice : ',' ∉ service.toList)
  (hkeys : ListsClaims v.before v.store app.namespaceId (Labels.ofNamed app service).selector keys)

include hservice hkeys

theorem ownAt_iff_of_listed :
    OwnAt app v.store service type key ↔
      key ∈ keys ∧ (v.store key).any (hasLabel Label.storageType type) = true := by
  rw [hkeys.lists.mem_iff]
  constructor
  · rintro ⟨hkind, hns, claim, hclaim, happ, hown, htype⟩
    refine ⟨⟨⟨hkind, hns⟩, claim, hclaim, ?_⟩, ?_⟩
    · rw [selects_ofNamed app hservice, happ, hown]
      rfl
    · rw [hclaim]
      exact htype
  · rintro ⟨⟨⟨hkind, hns⟩, claim, hclaim, hselects⟩, htype⟩
    rw [selects_ofNamed app hservice, Bool.and_eq_true_iff] at hselects
    rw [hclaim] at htype
    exact ⟨hkind, hns, claim, hclaim, hselects.1, hselects.2, htype⟩

theorem knows_of_listed {byType : List (String × Json)}
    (hread : claimsByType (keys.filterMap v.store) = .ok byType) : Knows app v service byType := by
  have hlookup : ∀ type, byType.lookup type =
      (keys.find? fun key => (v.store key).any (hasLabel Label.storageType type)).bind
        v.store := by
    intro type
    rw [lookup_claimsByType hread, List.find?_filterMap]
  constructor
  · intro type claim hclaim
    rw [hlookup] at hclaim
    obtain ⟨key, hfound, hstored⟩ := Option.bind_eq_some_iff.1 hclaim
    obtain ⟨hkey, earlier, later, hsplit, hearlier⟩ := List.find?_eq_some_iff_append.1 hfound
    have hmem : key ∈ keys := List.mem_of_find?_eq_some hfound
    refine ⟨key, ⟨(ownAt_iff_of_listed hservice hkeys).2 ⟨hmem, hkey⟩, ?_⟩, hstored⟩
    intro key' hown
    obtain ⟨hmem', hlabel'⟩ := (ownAt_iff_of_listed hservice hkeys).1 hown
    rw [hsplit] at hmem'
    rcases List.mem_append.1 hmem' with hmem' | hmem'
    · have hnot := hearlier key' hmem'
      rw [hlabel'] at hnot
      cases hnot
    · rcases List.mem_cons.1 hmem' with hsame | hmem'
      · exact .inl hsame
      · have hordered := hkeys.ordered
        rw [hsplit, List.pairwise_append] at hordered
        exact .inr ((List.pairwise_cons.1 hordered.2.1).1 key' hmem')
  · intro type hnone key hown
    obtain ⟨hmem, hlabel⟩ := (ownAt_iff_of_listed hservice hkeys).1 hown
    rw [hlookup] at hnone
    cases hfound : keys.find? fun key => (v.store key).any (hasLabel Label.storageType type) with
    | none =>
      exact List.find?_eq_none.1 hfound key hmem hlabel
    | some key' =>
      rw [hfound] at hnone
      have hlabel' := List.find?_some hfound
      change v.store key' = none at hnone
      rw [hnone] at hlabel'
      cases hlabel'

end Listed

theorem Knows.insertNew {byType : List (String × Json)} {claim : Json}
    (hknows : Knows app v service byType) (hv : Grows app v v')
    (hother : ∀ {type' key}, type' ≠ type → OwnAt app v'.store service type' key →
      OwnAt app v.store service type' key)
    (hclaim : InUse app v' service type claim) :
    Knows app v' service (Assoc.insertNew type claim byType) := by
  constructor
  · intro type' claim' hlookup
    rw [lookup_insertNew] at hlookup
    cases hold : byType.lookup type' with
    | some old =>
      rw [hold] at hlookup
      cases hlookup
      exact (hknows.found hold).grows hv
    | none =>
      rw [hold, Option.none_or] at hlookup
      split at hlookup
      · next htype =>
        cases hlookup
        exact htype ▸ hclaim
      · cases hlookup
  · intro type' hlookup key hown
    rw [lookup_insertNew] at hlookup
    obtain ⟨hold, hnew⟩ := Option.or_eq_none_iff.1 hlookup
    have htype : type' ≠ type := by
      rintro rfl
      simp at hnew
    exact hknows.missing hold key (hother htype hown)

end Claims

section Manifests

variable (app : AppName) (service : String) (size : Int) (className path : String)

theorem distinct_claim :
    (ClaimManifest.ofVolume app service size className path).toJson.Distinct := by
  have hlabels : (Json.ofMap (Labels.ofNamed app service ++
      [(Label.storageType, ClaimManifest.storageTypeOf path)])).Distinct := by
    apply Json.distinct_ofMap
    change [Label.appName, Label.serviceName, Label.storageType].Nodup
    decide
  simp [ClaimManifest.toJson, ClaimManifest.ofVolume, Json.distinct_obj_iff,
    Json.distinct_of_ne_obj, hlabels]

theorem clean_createClaim :
    (Call.create .claims app.namespaceId
      (ClaimManifest.ofVolume app service size className path).toJson).Clean := by
  refine ⟨proper_createClaim app service size className path, ?_, nofun⟩
  rintro body ⟨⟩
  exact distinct_claim app service size className path

theorem labels_created {entries : List (String × Json)} (hentries : Assigned entries)
    (name : String) :
    (Server.withMetadata (("name", .str name) :: entries)
      (ClaimManifest.ofVolume app service size className path).toJson.withoutNulls).path
        ["metadata", "labels"] =
      .ofMap (Labels.ofNamed app service ++
        [(Label.storageType, ClaimManifest.storageTypeOf path)]) := by
  have hforeign : ∀ e ∈ ("name", Json.str name) :: entries, e.1 ≠ "labels" :=
    List.forall_mem_cons.2 ⟨by simp, fun e he =>
      (ne_of_notMem_writtenKeys (hentries.foreign e he)).1⟩
  have hbody := distinct_claim app service size className path
  have hmetadata : ((ClaimManifest.ofVolume app service size className path).toJson.get
      "metadata").Distinct := hbody.getD _
  rw [Server.labels_withMetadata hforeign, Json.path, List.foldl_cons, List.foldl_cons,
    List.foldl_nil, Json.get_withoutNulls hbody, Json.get_withoutNulls hmetadata]
  exact (Json.spare_ofMap _).withoutNulls

end Manifests

structure Claiming (app : AppName) (v v' : OrderedStore) : Prop where
  grows : Grows app v v'
  besides : ∀ key, key.kind ≠ .claims → v'.store key = v.store key

theorem Claiming.refl (app : AppName) (v : OrderedStore) : Claiming app v v :=
  ⟨⟨fun _ => id, fun hleads => hleads⟩, fun _ _ => rfl⟩

theorem Claiming.trans {app : AppName} {v v' v'' : OrderedStore} (h : Claiming app v v')
    (h' : Claiming app v' v'') : Claiming app v v'' :=
  ⟨h.grows.trans h'.grows, fun key hkey => (h'.besides key hkey).trans (h.besides key hkey)⟩

section Stages

variable {σ : Type} {server : SparingServer σ} {app : AppName} {v : OrderedStore} {service : String}

theorem yields_claimFor (storage : StorageConfig) (path : String) {byType : List (String × Json)}
    (hknows : Knows app v service byType) :
    (claimFor app service storage path byType).Yields server.ordered v fun claim v' =>
      Claiming app v v' ∧
      Knows app v' service (Assoc.insertNew (ClaimManifest.storageTypeOf path) claim byType) ∧
      InUse app v' service (ClaimManifest.storageTypeOf path) claim ∧
      ((∃ old, InUse app v service (ClaimManifest.storageTypeOf path) old) →
        v'.store = v.store) := by
  unfold claimFor
  cases hfound : byType.lookup (ClaimManifest.storageTypeOf path) with
  | some claim =>
    have hrefl := Claiming.refl app v
    have hclaim := hknows.found hfound
    exact ⟨hrefl, hknows.insertNew hrefl.grows (fun _ hown => hown) hclaim, hclaim, fun _ => rfl⟩
  | none =>
    have hnone := hknows.missing hfound
    have hclean := clean_createClaim app service storage.size storage.className path
    apply Yields.bind
    apply yields_must hclean
    intro claim v' hstep
    apply yields_ofExcept
    intro claim' hclaim'
    rw [eq_of_checkCreated hclaim']
    have horder := SparingServer.keepsOrder_of_ordered hclean hstep
    have hserved := SparingServer.serves_of_steps hclean (SparingServer.steps_of_ordered hstep)
    generalize hput : v'.store = m' at hserved
    cases hserved with
    | @created _ _ name _ _ hname hnew hentries =>
      have hlabels := labels_created app service storage.size storage.className path hentries name
      have hgrows := grows_put hlabels hput hnone hnew horder
      have hstored := congrFun hput ⟨.claims, app.namespaceId, name⟩
      rw [Store.put_self] at hstored
      have hclaim : InUse app v' service (ClaimManifest.storageTypeOf path) _ :=
        ⟨⟨.claims, app.namespaceId, name⟩, leads_put hlabels hput hnone rfl rfl, hstored⟩
      refine ⟨⟨hgrows, ?_⟩, ?_, hclaim, ?_⟩
      · intro key hkey
        rw [hput]
        apply Store.put_of_ne
        rintro rfl
        exact hkey rfl
      · apply hknows.insertNew hgrows _ hclaim
        intro type' key htype hown
        rw [hput] at hown
        exact ownAt_of_put hlabels (fun _ => htype) hown
      · rintro ⟨old, key, hleads, -⟩
        exact absurd hleads.own (hnone key)

theorem yields_assignClaims (storage : StorageConfig) (paths : List String)
    {byType : List (String × Json)} (hknows : Knows app v service byType) :
    (assignClaims app service storage paths byType).Yields server.ordered v fun found v' =>
      Claiming app v v' ∧ found.map (·.1) = paths ∧
      (∀ f ∈ found, InUse app v' service (ClaimManifest.storageTypeOf f.1) f.2) ∧
      ((∀ path ∈ paths, ∃ old, InUse app v service (ClaimManifest.storageTypeOf path) old) →
        v'.store = v.store) := by
  induction paths generalizing v byType with
  | nil =>
    exact ⟨Claiming.refl app v, rfl, fun f hf => absurd hf List.not_mem_nil, fun _ => rfl⟩
  | cons path paths ih =>
    rw [assignClaims_cons]
    apply Yields.bind
    apply (yields_claimFor storage path hknows).mono
    rintro claim v₁ ⟨h₁, hknows₁, hclaim, hidle₁⟩
    apply Yields.bind
    apply (ih hknows₁).mono
    rintro rest v₂ ⟨h₂, hpaths, hrest, hidle₂⟩
    refine ⟨h₁.trans h₂, by rw [List.map_cons, hpaths], ?_, ?_⟩
    · exact List.forall_mem_cons.2 ⟨hclaim.grows h₂.grows, hrest⟩
    · intro hused
      obtain ⟨hpath, hpaths⟩ := List.forall_mem_cons.1 hused
      refine (hidle₂ ?_).trans (hidle₁ hpath)
      intro path' hpath'
      obtain ⟨old, hold⟩ := hpaths path' hpath'
      exact ⟨old, hold.grows h₁.grows⟩

structure Finds (settings : Settings) (app : AppName) (v : OrderedStore) (d : DeployableService)
    (found : List (String × Json)) : Prop where
  paths : found.map (·.1) = claimedPaths settings d
  used : ∀ f ∈ found, InUse app v d.name (ClaimManifest.storageTypeOf f.1) f.2

/-- The name of a service with claims must not end its requirement in the selector early. -/
def Selectable (settings : Settings) (d : DeployableService) : Prop :=
  claimedPaths settings d = [] ∨ ',' ∉ d.name.toList

theorem yields_claimsFor {settings : Settings} {d : DeployableService}
    (hd : Selectable settings d) :
    (claimsFor settings app d).Yields server.ordered v fun found v' =>
      Claiming app v v' ∧ Finds settings app v' d found ∧
      ((∃ old, Finds settings app v d old) → v'.store = v.store) := by
  have hrefl := Claiming.refl app v
  have hempty : claimedPaths settings d = [] → Finds settings app v d [] :=
    fun hnone => ⟨hnone.symm, fun f hf => absurd hf List.not_mem_nil⟩
  unfold claimsFor
  cases hstorage : settings.runtime.storage with
  | none => exact ⟨hrefl, hempty (by simp [claimedPaths, hstorage]), fun _ => rfl⟩
  | some storage =>
    have hpaths : claimedPaths settings d = d.declaredVolumes := by simp [claimedPaths, hstorage]
    dsimp only
    split
    · next hnone =>
      exact ⟨hrefl, hempty (hpaths.trans (List.isEmpty_iff.1 hnone)), fun _ => rfl⟩
    · next hsome =>
      have hservice : ',' ∉ d.name.toList := by
        rcases hd with hnone | hservice
        · rw [hpaths] at hnone
          exact absurd (List.isEmpty_iff.2 hnone) hsome
        · exact hservice
      apply Yields.bind
      refine yields_must ⟨trivial, by simp [Call.body?], nofun⟩ ?_
      intro listed v₁ hstep
      obtain ⟨hsame, horder, keys, hkeys, hanswer⟩ := SparingServer.listed_of_ordered hstep
      cases hanswer
      have hgrows : Grows app v v₁ := SameClaims.grows (fun key _ => congrFun hsame key) horder
      apply Yields.bind
      apply yields_ofExcept
      intro byType hread
      have hknows := knows_of_listed hservice hkeys hread
      have hknows₁ : Knows app v₁ d.name byType :=
        ⟨fun hlookup => (hknows.found hlookup).grows hgrows, hsame ▸ hknows.missing⟩
      apply (yields_assignClaims storage d.declaredVolumes hknows₁).mono
      rintro found v₂ ⟨hclaiming, hfound, hused, hidle⟩
      have hclaiming₁ : Claiming app v v₁ := ⟨hgrows, fun key _ => congrFun hsame key⟩
      refine ⟨hclaiming₁.trans hclaiming, ⟨hfound.trans hpaths.symm, hused⟩, ?_⟩
      rintro ⟨old, hold, hownUsed⟩
      refine (hidle ?_).trans hsame
      intro path hpath
      rw [← hpaths, ← hold] at hpath
      obtain ⟨f, hf, rfl⟩ := List.mem_map.1 hpath
      exact ⟨f.2, (hownUsed f hf).grows hgrows⟩

variable {settings : Settings} {d : DeployableService} {v' : OrderedStore}
  {found found' : List (String × Json)}

theorem Finds.grows (h : Finds settings app v d found) (hv : Grows app v v') :
    Finds settings app v' d found := ⟨h.paths, fun f hf => (h.used f hf).grows hv⟩

theorem Finds.unique (hasymm : ∀ {key key'}, v.before key key' → ¬v.before key' key)
    (h : Finds settings app v d found) (h' : Finds settings app v d found') : found' = found := by
  apply eq_of_map_eq _ h.used h'.used (h'.paths.trans h.paths.symm)
  intro f f' hf hf' hpath
  rw [hpath] at hf'
  exact Prod.ext hpath (hf.unique hasymm hf')

end Stages

end PreviewApps.Cluster
