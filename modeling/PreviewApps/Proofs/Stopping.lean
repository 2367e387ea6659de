import PreviewApps.Proofs.Agreement

/-!
Stopping an application. Its services are listed by the spelling of its name, but what goes is the
whole namespace, which other spellings share.
-/

namespace PreviewApps

open Cluster

variable {m m' : Store}

/-- Every deployment is that of a service and lies in a namespace that exists. -/
structure Orderly (m : Store) : Prop where
  shown : ∀ {key j}, key.kind = .deployments → m key = some j → ∃ s, Shows j s ∧ s.key = key
  namespaced : ∀ {key j}, key.kind = .deployments → m key = some j →
    ∃ j', m ⟨.namespaces, "", key.namespaceId⟩ = some j'

namespace Orderly

theorem of_no_deployments (h : ∀ ns name, m ⟨.deployments, ns, name⟩ = none) : Orderly m := by
  have hnone : ∀ {key j}, key.kind = .deployments → m key ≠ some j := by
    rintro ⟨kind, ns, name⟩ j hkind hj
    obtain rfl : kind = .deployments := hkind
    rw [h] at hj
    cases hj
  exact ⟨fun hkind hj => absurd hj (hnone hkind), fun hkind hj => absurd hj (hnone hkind)⟩

theorem untouched (h : Orderly m) (hm : Untouched m m') : Orderly m' := by
  constructor
  · intro key j hkind hj
    exact h.shown hkind ((hm key (.inl hkind)).symm.trans hj)
  · intro key j hkind hj
    exact hm.exists_namespace (h.namespaced hkind ((hm key (.inl hkind)).symm.trans hj))

theorem put_namespace (h : Orderly m) (ns : String) (j : Json) :
    Orderly (m.put ⟨.namespaces, "", ns⟩ j) := by
  have hother : ∀ {key : Key}, key.kind = .deployments → key ≠ ⟨.namespaces, "", ns⟩ := by
    rintro key hkind rfl
    cases hkind
  constructor
  · intro key j' hkind hj'
    rw [Store.put_of_ne (hother hkind)] at hj'
    exact h.shown hkind hj'
  · intro key j' hkind hj'
    rw [Store.put_of_ne (hother hkind)] at hj'
    by_cases hns : key.namespaceId = ns
    · exact ⟨j, by rw [hns, Store.put_self]⟩
    · rw [Store.put_of_ne fun hk => hns (congrArg Key.name hk)]
      exact h.namespaced hkind hj'

theorem put (h : Orderly m) {s : Service} {j : Json} (hj : Shows j s)
    (hns : ∃ j, m ⟨.namespaces, "", s.app.namespaceId⟩ = some j) : Orderly (m.put s.key j) := by
  constructor
  · intro key j' hkind hj'
    by_cases hkey : key = s.key
    · rw [hkey, Store.put_self] at hj'
      cases hj'
      exact ⟨s, hj, hkey.symm⟩
    · rw [Store.put_of_ne hkey] at hj'
      exact h.shown hkind hj'
  · intro key j' hkind hj'
    rw [Store.put_of_ne fun hk => by cases hk]
    by_cases hkey : key = s.key
    · rw [hkey]
      exact hns
    · rw [Store.put_of_ne hkey] at hj'
      exact h.namespaced hkind hj'

theorem delete_namespace (h : Orderly m) (app : AppName) :
    Orderly (m.delete ⟨.namespaces, "", app.namespaceId⟩) := by
  have hleft : ∀ {key : Key} {j : Json}, key.kind = .deployments →
      m.delete ⟨.namespaces, "", app.namespaceId⟩ key = some j →
        m key = some j ∧ key.namespaceId ≠ app.namespaceId := by
    intro key j hkind hj
    unfold Store.delete at hj
    split at hj
    · cases hj
    · next hkept =>
      rw [not_or] at hkept
      exact ⟨hj, fun hns => hkept.2 ⟨rfl, hns⟩⟩
  constructor
  · exact fun hkind hj => h.shown hkind (hleft hkind hj).1
  · intro key j hkind hj
    obtain ⟨hj, hns⟩ := hleft hkind hj
    obtain ⟨j', hj'⟩ := h.namespaced hkind hj
    have hne : (⟨.namespaces, "", key.namespaceId⟩ : Key) ≠ ⟨.namespaces, "", app.namespaceId⟩ :=
      fun hk => hns (congrArg Key.name hk)
    exact ⟨j', (delete_namespace_of_ne hne app.namespaceId_ne_empty.symm m).trans hj'⟩

end Orderly

structure Prepared (m : Store) (app : AppName) : Prop where
  orderly : Orderly m
  namespaced : ∃ j, m ⟨.namespaces, "", app.namespaceId⟩ = some j

theorem Orderly.prepared (h : Orderly m) (app : AppName) (j : Json) :
    Prepared (m.put ⟨.namespaces, "", app.namespaceId⟩ j) app :=
  ⟨h.put_namespace app.namespaceId j, j, Store.put_self ..⟩

theorem Prepared.untouched {app : AppName} (h : Prepared m app) (hm : Untouched m m') :
    Prepared m' app :=
  ⟨h.orderly.untouched hm, hm.exists_namespace h.namespaced⟩

theorem Prepared.put {s : Service} (h : Prepared m s.app) {j : Json} (hj : Shows j s) :
    Prepared (m.put s.key j) s.app := by
  refine ⟨h.orderly.put hj h.namespaced, ?_⟩
  rw [Store.put_of_ne fun hk => by cases hk]
  exact h.namespaced

def serviceAt (m : Store) (key : Key) : Option Service :=
  if key.kind = .deployments then (m key).bind fun j => (serviceOf j).toOption.join else none

theorem serviceAt_of_ne {key : Key} (h : m' key = m key) : serviceAt m' key = serviceAt m key := by
  rw [serviceAt, serviceAt, h]

namespace Orderly

theorem exists_of_serviceAt (h : Orderly m) {key : Key} {t : Service}
    (ht : serviceAt m key = some t) : ∃ j s, key.kind = .deployments ∧ m key = some j ∧
      Shows j s ∧ s.key = key ∧ t.outline = s.outline := by
  unfold serviceAt at ht
  split at ht
  · next hkind =>
    obtain ⟨j, hj, hread⟩ := Option.bind_eq_some_iff.1 ht
    obtain ⟨s, hs, hkey⟩ := h.shown hkind hj
    obtain ⟨r, hr, houtline⟩ := hs.exists_serviceOf
    rw [hr] at hread
    exact ⟨j, s, hkind, hj, hs, hkey, houtline t hread⟩
  · cases ht

theorem key_of_serviceAt (h : Orderly m) {key : Key} {t : Service}
    (ht : serviceAt m key = some t) : t.key = key := by
  obtain ⟨j, s, -, -, -, hkey, houtline⟩ := h.exists_of_serviceAt ht
  rw [← hkey, Service.key, Service.key, name_of_outline houtline,
    show t.app = s.app from congrArg Outline.app houtline]

theorem name_ne_empty (h : Orderly m) {key : Key} {t : Service} (ht : serviceAt m key = some t) :
    t.name ≠ "" := by
  obtain ⟨j, s, hkind, hj, hshows, -, houtline⟩ := h.exists_of_serviceAt ht
  intro hname
  have hnone := serviceOf_of_shows_nameless hshows ((name_of_outline houtline).symm.trans hname)
  rw [serviceAt, if_pos hkind, hj, Option.bind_some, hnone] at ht
  cases ht

theorem readServices_eq (h : Orderly m) {keys : List Key}
    (hkeys : ∀ key ∈ keys, key.kind = .deployments) :
    readServices (keys.filterMap m) = .ok (keys.filterMap (serviceAt m)) := by
  have hread : ∀ j ∈ keys.filterMap m, serviceOf j = .ok (serviceOf j).toOption.join := by
    intro j hj
    obtain ⟨key, hkey, hstored⟩ := List.mem_filterMap.1 hj
    obtain ⟨s, hs, -⟩ := h.shown (hkeys key hkey) hstored
    obtain ⟨r, hr, -⟩ := hs.exists_serviceOf
    rw [hr]
    rfl
  rw [readServices, mapM_eq_ok hread]
  show Except.ok (((keys.filterMap m).map fun j => (serviceOf j).toOption.join).filterMap id) = _
  rw [List.filterMap_map, List.filterMap_filterMap]
  refine congrArg Except.ok (List.filterMap_congr fun key hkey => ?_)
  rw [serviceAt, if_pos (hkeys key hkey)]
  rfl

theorem nodup_filterMap (h : Orderly m) {keys : List Key} (hkeys : keys.Nodup) :
    (keys.filterMap (serviceAt m)).Nodup := by
  refine hkeys.filterMap ?_
  intro key key' t ht ht'
  rw [← h.key_of_serviceAt ht, ← h.key_of_serviceAt ht']

theorem mem_filterMap_iff (h : Orderly m) {keys : List Key} {p : Key → Prop} {selector : String}
    (hkeys : Lists m p selector keys) (t : Service) : t ∈ keys.filterMap (serviceAt m) ↔
      serviceAt m t.key = some t ∧ p t.key ∧ ∃ j, m t.key = some j ∧ Server.selects selector j := by
  rw [List.mem_filterMap]
  constructor
  · rintro ⟨key, hkey, ht⟩
    obtain rfl := h.key_of_serviceAt ht
    exact ⟨ht, (hkeys.mem_iff _).1 hkey⟩
  · rintro ⟨ht, hkey⟩
    exact ⟨t.key, (hkeys.mem_iff _).2 hkey, ht⟩

theorem meets_services (h : Orderly m) : services.Meets m fun gs m' => m' = m ∧
    (ungrouped gs).Nodup ∧ ∀ t, t ∈ ungrouped gs ↔ serviceAt m t.key = some t := by
  unfold services
  refine Program.Meets.bind (Program.meets_must trivial ?_)
  intro a m' hs
  cases hs with
  | missing hkey hnone => cases hkey
  | @listedEverywhere _ _ keys hkeys =>
    have hkind : ∀ key ∈ keys, key.kind = .deployments := fun key hkey =>
      ((hkeys.mem_iff key).1 hkey).1
    have hperm := (grouped_groupBy (keys.filterMap (serviceAt m))).2
    refine ⟨_, rfl, Program.Meets.bind (Program.meets_ofExcept (h.readServices_eq hkind) ?_)⟩
    refine ⟨rfl, hperm.nodup_iff.2 (h.nodup_filterMap hkeys.nodup), fun t => ?_⟩
    rw [hperm.mem_iff, h.mem_filterMap_iff hkeys]
    constructor
    · exact fun ht => ht.1
    · intro ht
      obtain ⟨j, s, hkind, hj, hshows, -⟩ := h.exists_of_serviceAt ht
      exact ⟨ht, hkind, j, hj, hshows.selects_label⟩

theorem meets_servicesOf (h : Orderly m) (app : AppName) :
    (servicesOf app).Meets m fun found m' => m' = m ∧ found.Nodup ∧
      ∀ t, t ∈ found ↔ serviceAt m t.key = some t ∧ t.app = app := by
  unfold servicesOf
  refine Program.Meets.bind (Program.meets_may trivial ?_ ?_)
  · intro j m' hs
    cases hs with
    | @listed _ _ _ keys hkeys =>
      have hkind : ∀ key ∈ keys, key.kind = .deployments := fun key hkey =>
        ((hkeys.mem_iff key).1 hkey).1.1
      refine Program.meets_ofExcept (h.readServices_eq hkind) ?_
      refine ⟨rfl, h.nodup_filterMap hkeys.nodup, fun t => ?_⟩
      rw [h.mem_filterMap_iff hkeys]
      constructor
      · rintro ⟨ht, -, j, hj, hselects⟩
        obtain ⟨j', s, -, hj', hshows, -, houtline⟩ := h.exists_of_serviceAt ht
        rw [hj] at hj'
        cases hj'
        have happ : t.app = s.app := congrArg Outline.app houtline
        exact ⟨ht, happ.trans ((hshows.selects_app_iff app).1 hselects)⟩
      · rintro ⟨ht, rfl⟩
        obtain ⟨j, s, hkind, hj, hshows, -, houtline⟩ := h.exists_of_serviceAt ht
        have happ : t.app = s.app := congrArg Outline.app houtline
        exact ⟨ht, ⟨hkind, rfl⟩, j, hj, (hshows.selects_app_iff t.app).2 happ.symm⟩
  · intro e m' hs
    cases hs with
    | missing hkey hnone => cases hkey

theorem meets_stop (h : Orderly m) (app : AppName) :
    (stop app).Meets m fun stopped m' => stopped.Nodup ∧
      (∀ t, t ∈ stopped ↔ serviceAt m t.key = some t ∧ t.app = app) ∧
      m' = if stopped = [] then m else m.delete ⟨.namespaces, "", app.namespaceId⟩ := by
  unfold stop
  refine Program.Meets.bind ((h.meets_servicesOf app).mono ?_)
  rintro stopped m₁ ⟨hm₁, hnodup, hmem⟩
  obtain rfl : m = m₁ := hm₁.symm
  split
  · next hempty =>
    obtain rfl : stopped = [] := List.isEmpty_iff.1 hempty
    exact ⟨hnodup, hmem, (if_pos rfl).symm⟩
  · next hne =>
    have hnonempty : stopped ≠ [] := fun hnil => hne (List.isEmpty_iff.2 hnil)
    refine Program.Meets.bind (Program.Meets.discard ?_)
    refine Program.meets_may_of_target trivial rfl ?_ ?_
    · intro reply m' hs
      cases hs with
      | deleted hold => exact ⟨hnodup, hmem, (if_neg hnonempty).symm⟩
    · -- the namespace of a listed service exists
      intro hnone
      obtain ⟨t, ht⟩ := List.exists_mem_of_ne_nil stopped hnonempty
      obtain ⟨hread, rfl⟩ := (hmem t).1 ht
      obtain ⟨j, s, hkind, hj, -⟩ := h.exists_of_serviceAt hread
      obtain ⟨j', hj'⟩ := h.namespaced hkind hj
      have hthere : m ⟨.namespaces, "", t.app.namespaceId⟩ = some j' := hj'
      rw [hnone] at hthere
      cases hthere

theorem meets_deployService {app : AppName} (h : Prepared m app) (settings : Settings)
    (container : ContainerConfig) (now : Timestamp) (usePullSecret : Bool)
    (base : Option IngressRoute) (d : DeployableService) :
    (deployService settings container now app usePullSecret base d).Meets m fun _ m' =>
      Prepared m' app := by
  let s : Service := ⟨"", app, d.config, .running, none⟩
  refine meets_deployService_of_written ?_
  intro claims m₁ j m₂ h₁ hj h₂
  have hm₁ := h.untouched h₁
  have hold : ∀ old ∈ m₁ s.key, ∃ t, Shows old t := by
    intro old hold
    obtain ⟨t, ht, -⟩ := hm₁.orderly.shown rfl hold
    exact ⟨t, ht⟩
  have hd : IsOf (Deployment.ofService app d container usePullSecret claims now) s.app s.config :=
    ⟨d, container, usePullSecret, claims, now, rfl, rfl⟩
  have hshows : Shows j s := shows_written hd rfl hold hj
  obtain ⟨r, hr, -⟩ := hshows.exists_serviceOf
  exact ⟨r, hr, (hm₁.put hshows).untouched h₂⟩

theorem meets_deploy (h : Orderly m) (settings : Settings) (container : ContainerConfig)
    (now : Timestamp) (u : DeploymentUnit) :
    (deploy settings container now u).Meets m fun _ m' => Orderly m' := by
  refine meets_deploy_of_services ?_
  intro j base m' hm'
  have hstart : Prepared m' u.app := (h.prepared u.app j).untouched hm'
  refine (Program.meets_mapM (I := (Prepared · u.app)) ?_ hstart).mono fun _ _ h => h.orderly
  intro d _ m₁ hm₁
  exact meets_deployService hm₁ settings container now u.needsPullSecret base d

theorem meets_setStatus (h : Orderly m) (app : AppName) (service : String)
    (status : ServiceStatus) :
    (setStatus app service status).Meets m fun r m' => Orderly m' ∧
      (r = none ↔ ∀ t, serviceAt m t.key = some t → t.name = service → t.app ≠ app) := by
  unfold setStatus
  refine Program.Meets.bind ((h.meets_servicesOf app).mono ?_)
  rintro found m₁ ⟨hm₁, -, hmem⟩
  obtain rfl : m = m₁ := hm₁.symm
  cases hfind : found.find? (·.name == service) with
  | none =>
    refine ⟨h, iff_of_true rfl ?_⟩
    intro t ht hname happ
    exact List.find?_eq_none.1 hfind t ((hmem t).2 ⟨ht, happ⟩) (beq_iff_eq.2 hname)
  | some t =>
    obtain ⟨ht, rfl⟩ := (hmem t).1 (List.mem_of_find?_eq_some hfind)
    have hfirst := List.find?_some hfind
    have hservice : t.name = service := eq_of_beq hfirst
    obtain ⟨old, s, hkind, hold, hshows, hkey, houtline⟩ := h.exists_of_serviceAt ht
    have happ : t.app = s.app := congrArg Outline.app houtline
    have hbody : Deployment.replicasPatch t.app t.config (replicasFor status) =
        Deployment.replicasPatch s.app s.config (replicasFor status) := by
      rw [happ]
      exact replicasPatch_congr s.app (name_of_outline houtline)
        (congrArg Outline.containerType houtline) _
    have hscaled := hshows.scaled status
    dsimp only
    rw [hbody]
    refine Program.Meets.bind (Program.meets_may_of_target trivial rfl ?_ ?_)
    · intro j m' hs
      cases hs with
      | patched hold' =>
        -- the patched deployment is the one that was read
        have hsame : m t.key = some _ := hold'
        rw [hold] at hsame
        cases hsame
        have hns : ∃ j, m ⟨.namespaces, "", s.app.namespaceId⟩ = some j := by
          obtain ⟨j, hj⟩ := h.namespaced hkind hold
          exact ⟨j, by rw [← happ]; exact hj⟩
        have hput := h.put hscaled hns
        have hnamed : ({ s with status } : Service).name ≠ "" :=
          name_of_outline houtline ▸ h.name_ne_empty ht
        obtain ⟨r, hr, -⟩ := serviceOf_of_shows hscaled hnamed
        refine Program.meets_ofExcept hr ⟨?_, iff_of_false (by simp) ?_⟩
        · show Orderly (m.put t.key _)
          rw [← hkey]
          exact hput
        · exact fun hnone => hnone t ht hservice rfl
    · intro hnone
      have hmissing : m t.key = none := hnone
      rw [hold] at hmissing
      cases hmissing

theorem meets_onCluster (h : Orderly m) (settings : Settings) (st : Step) :
    (st.onCluster settings).Meets m fun _ m' => Orderly m' := by
  cases st with
  | deploy u container now now' =>
    exact Program.Meets.bind ((h.meets_deploy settings container now u).mono fun _ _ hm' => hm')
  | setStatus app service status =>
    exact Program.Meets.bind ((h.meets_setStatus app service status).mono fun _ _ hm' => hm'.1)
  | stop app =>
    refine Program.Meets.bind ((h.meets_stop app).mono ?_)
    rintro stopped m' ⟨-, -, rfl⟩
    show Orderly (if stopped = [] then m else m.delete ⟨.namespaces, "", app.namespaceId⟩)
    split
    · exact h
    · exact h.delete_namespace app

end Orderly

def clusterAfter {σ : Type} (answer : Call → σ → Answer × σ) (settings : Settings) :
    List Step → σ → σ
  | [], s => s
  | st :: sts, s => clusterAfter answer settings sts ((st.onCluster settings).run answer s).2

theorem orderly_clusterAfter {σ : Type} (api : ApiServer σ) (settings : Settings)
    (steps : List Step) {s : σ} (hs : api.Valid s) (h : Orderly (api.stored s)) :
    api.Valid (clusterAfter api.answer settings steps s) ∧
      Orderly (api.stored (clusterAfter api.answer settings steps s)) := by
  induction steps generalizing s with
  | nil => exact ⟨hs, h⟩
  | cons st steps ih =>
    obtain ⟨-, -, horderly, hvalid⟩ := Program.run_of_meets hs (h.meets_onCluster settings st)
    exact ih hvalid horderly

/-- What the cluster reports before and after an application is stopped, and in between what
stopping it replies. -/
def observeStop (app : AppName) : Program (List Service × List Service × List Service) := do
  let before ← services
  let stopped ← stop app
  let left ← services
  pure (ungrouped before, stopped, ungrouped left)

/-- No other spelling of the application has services, or the application itself has none. -/
def SpelledAlike (app : AppName) (ss : List Service) : Prop :=
  (∃ t ∈ ss, t.app = app) → ∀ t ∈ ss, t.app.namespaceId = app.namespaceId → t.app = app

theorem Orderly.meets_observeStop (h : Orderly m) (app : AppName) :
    (observeStop app).Meets m fun shown _ =>
      shown.1.Nodup ∧ shown.2.1.Nodup ∧
      (∀ t, t ∈ shown.2.1 ↔ t ∈ shown.1 ∧ t.app = app) ∧
      ∀ t, t ∈ shown.2.2 ↔
        t ∈ shown.1 ∧ (shown.2.1 ≠ [] → t.app.namespaceId ≠ app.namespaceId) := by
  unfold observeStop
  refine Program.Meets.bind (h.meets_services.mono ?_)
  rintro before m₁ ⟨rfl, hbefore, hmem⟩
  refine Program.Meets.bind ((h.meets_stop app).mono ?_)
  rintro stopped m₂ ⟨hstopped, hmemStopped, hm₂⟩
  have horderly : Orderly m₂ := by
    rw [hm₂]
    split
    · exact h
    · exact h.delete_namespace app
  refine Program.Meets.bind (horderly.meets_services.mono ?_)
  rintro left m₃ ⟨rfl, -, hmemLeft⟩
  refine ⟨hbefore, hstopped, fun t => ?_, fun t => ?_⟩
  · rw [hmemStopped, hmem]
  · show t ∈ ungrouped left ↔ t ∈ ungrouped before ∧ (stopped ≠ [] → _)
    rw [hmemLeft, hmem, hm₂]
    by_cases hnone : stopped = []
    · rw [if_pos hnone]
      exact (and_iff_left fun hne => absurd hnone hne).symm
    · rw [if_neg hnone]
      by_cases hns : t.app.namespaceId = app.namespaceId
      · have hgone : m₁.delete ⟨.namespaces, "", app.namespaceId⟩ t.key = none :=
          if_pos (.inr ⟨rfl, hns⟩)
        simp [serviceAt, hgone, hns, hnone]
      · have hkept : m₁.delete ⟨.namespaces, "", app.namespaceId⟩ t.key = m₁ t.key :=
          delete_namespace_of_ne (fun hk => by cases hk) hns m₁
        rw [serviceAt_of_ne hkept]
        exact (and_iff_left fun _ => hns).symm

/-- The reply to a stop names the services that have gone, unless other spellings of the application
have services in the namespace as well. -/
theorem stop_replies_gone_iff {σ : Type} (api : ApiServer σ) (settings : Settings)
    (steps : List Step) {s : σ} (hs : api.Valid s)
    (hnew : ∀ ns name, api.stored s ⟨.deployments, ns, name⟩ = none) (app : AppName) :
    ∃ before stopped left,
      ((observeStop app).run api.answer (clusterAfter api.answer settings steps s)).1 =
        .ok (before, stopped, left) ∧
      stopped.Perm (before.filter (·.app = app)) ∧
      ((before.filter (· ∉ left)).Perm stopped ↔ SpelledAlike app before) := by
  obtain ⟨hvalid, horderly⟩ :=
    orderly_clusterAfter api settings steps hs (Orderly.of_no_deployments hnew)
  obtain ⟨⟨before, stopped, left⟩, hrun, ⟨hbefore, hstopped, hmem, hleft⟩, -⟩ :=
    Program.run_of_meets hvalid (horderly.meets_observeStop app)
  dsimp only at hbefore hstopped hmem hleft
  refine ⟨before, stopped, left, hrun, ?_, ?_⟩
  · refine (List.perm_ext_iff_of_nodup hstopped (hbefore.filter _)).2 fun t => ?_
    rw [hmem, List.mem_filter, decide_eq_true_eq]
  · -- gone are all services of the namespace, if any service is stopped
    have hgone : ∀ t, t ∈ before.filter (· ∉ left) ↔
        t ∈ before ∧ stopped ≠ [] ∧ t.app.namespaceId = app.namespaceId := by
      intro t
      rw [List.mem_filter, decide_eq_true_eq, hleft]
      tauto
    have hany : stopped ≠ [] ↔ ∃ t ∈ before, t.app = app := by
      constructor
      · intro hne
        obtain ⟨t, ht⟩ := List.exists_mem_of_ne_nil stopped hne
        exact ⟨t, (hmem t).1 ht⟩
      · rintro ⟨t, ht⟩
        exact List.ne_nil_of_mem ((hmem t).2 ht)
    rw [List.perm_ext_iff_of_nodup (hbefore.filter _) hstopped, SpelledAlike, ← hany]
    simp only [hgone, hmem]
    constructor
    · intro hsame hne t ht hns
      exact ((hsame t).1 ⟨ht, hne, hns⟩).2
    · intro halike t
      constructor
      · rintro ⟨ht, hne, hns⟩
        exact ⟨ht, halike hne t ht hns⟩
      · rintro ⟨ht, rfl⟩
        exact ⟨ht, hany.2 ⟨t, ht, rfl⟩, rfl⟩

def plainService (name image : String) : DeployableService where
  config := ⟨name, image, none, none, 80, .standalone⟩
  strategy := .never
  route := .empty
  declaredVolumes := []

def lowerShop : AppName := ⟨"shop", by decide +kernel⟩

def twoSpellings : List Step :=
  [.deploy ⟨shop, [plainService "web" "nginx"], []⟩ ⟨none⟩ noon noon,
    .deploy ⟨lowerShop, [plainService "db" "mariadb"], []⟩ ⟨none⟩ noon noon]

theorem stop_replies_after_twoSpellings :
    (Server.Valid .empty ∧ ∀ ns name, Server.empty.stored ⟨.deployments, ns, name⟩ = none) ∧
    ∃ before stopped left, ((observeStop shop).run Server.answer
        (clusterAfter Server.answer webSettings twoSpellings .empty)).1 =
          .ok (before, stopped, left) ∧
      stopped.Perm (before.filter (·.app = shop)) ∧
      ((before.filter (· ∉ left)).Perm stopped ↔ SpelledAlike shop before) := by
  have hnew : ∀ ns name, Server.empty.stored ⟨.deployments, ns, name⟩ = none := fun _ _ => rfl
  exact ⟨⟨Server.valid_empty, hnew⟩,
    stop_replies_gone_iff Server.api webSettings twoSpellings Server.valid_empty hnew shop⟩

/-- The service under the other spelling goes as well, but the reply does not name it. -/
theorem stop_forgets_other_spelling :
    ∃ before stopped left, ((observeStop shop).run Server.answer
        (clusterAfter Server.answer webSettings twoSpellings .empty)).1 =
          .ok (before, stopped, left) ∧
      ¬(before.filter (· ∉ left)).Perm stopped := by
  have hlengths : ((observeStop shop).run Server.answer
      (clusterAfter Server.answer webSettings twoSpellings .empty)).1.toOption.map (fun shown =>
        ((shown.1.filter (· ∉ shown.2.2)).length, shown.2.1.length)) = some (2, 1) := by
    decide +kernel
  cases hrun : ((observeStop shop).run Server.answer
      (clusterAfter Server.answer webSettings twoSpellings .empty)).1 with
  | error e =>
    rw [hrun] at hlengths
    cases hlengths
  | ok shown =>
    obtain ⟨before, stopped, left⟩ := shown
    rw [hrun] at hlengths
    obtain ⟨hgone, hstopped⟩ := Prod.mk.inj (Option.some.inj hlengths)
    refine ⟨before, stopped, left, rfl, fun hperm => ?_⟩
    have hlength := hperm.length_eq
    dsimp only at hgone hstopped
    omega

end PreviewApps
