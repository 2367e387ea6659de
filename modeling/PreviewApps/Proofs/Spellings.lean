import PreviewApps.Proofs.Stopping

/-!
Two spellings of one application on a cluster. They share the namespace and the names of all
objects, but services are found by the spelling on their label, so what was deployed under one name
is not found under the other.
-/

namespace PreviewApps

open Cluster

variable {σ : Type} {api : ApiServer σ} {c : σ} {a b : AppName}

def StopsAlike (api : ApiServer σ) (c : σ) (a b : AppName) : Prop :=
  ∃ ss ss', ((stop a).run api.answer c).1 = .ok ss ∧ ((stop b).run api.answer c).1 = .ok ss' ∧
    ss.Perm ss' ∧
    api.stored ((stop a).run api.answer c).2 = api.stored ((stop b).run api.answer c).2

def FindsAlike (api : ApiServer σ) (c : σ) (a b : AppName) (service : String)
    (status : ServiceStatus) : Prop :=
  ∃ r r', ((setStatus a service status).run api.answer c).1 = .ok r ∧
    ((setStatus b service status).run api.answer c).1 = .ok r' ∧ (r = none ↔ r' = none)

theorem stopsAlike_iff (hc : api.Valid c) (h : Orderly (api.stored c)) :
    StopsAlike api c a b ↔
      a = b ∨ ∀ t, serviceAt (api.stored c) t.key = some t → t.app ≠ a ∧ t.app ≠ b := by
  obtain ⟨ss, hss, ⟨-, hmem, hstored⟩, -⟩ := Program.run_of_meets hc (h.meets_stop a)
  obtain ⟨ss', hss', ⟨-, hmem', hstored'⟩, -⟩ := Program.run_of_meets hc (h.meets_stop b)
  constructor
  · rintro ⟨rs, rs', hrs, hrs', hperm, -⟩
    obtain rfl : ss = rs := Except.ok.inj (hss.symm.trans hrs)
    obtain rfl : ss' = rs' := Except.ok.inj (hss'.symm.trans hrs')
    -- a service in both replies is labelled with both spellings
    have hboth : ∀ t ∈ ss, a = b := by
      intro t ht
      exact ((hmem t).1 ht).2.symm.trans ((hmem' t).1 (hperm.mem_iff.1 ht)).2
    refine or_iff_not_imp_left.2 fun hne t ht => ⟨?_, ?_⟩
    · exact fun happ => hne (hboth t ((hmem t).2 ⟨ht, happ⟩))
    · exact fun happ => hne (hboth t (hperm.mem_iff.2 ((hmem' t).2 ⟨ht, happ⟩)))
  · rintro (rfl | hnone)
    · exact ⟨ss, ss, hss, hss, .refl ss, rfl⟩
    · have hnil : ss = [] := by
        refine List.eq_nil_iff_forall_not_mem.2 fun t ht => ?_
        obtain ⟨hread, happ⟩ := (hmem t).1 ht
        exact (hnone t hread).1 happ
      have hnil' : ss' = [] := by
        refine List.eq_nil_iff_forall_not_mem.2 fun t ht => ?_
        obtain ⟨hread, happ⟩ := (hmem' t).1 ht
        exact (hnone t hread).2 happ
      refine ⟨ss, ss', hss, hss', ?_, ?_⟩
      · rw [hnil, hnil']
      · rw [hstored, hstored', if_pos hnil, if_pos hnil']

theorem eq_of_serviceAt {m : Store} {s t : Service} (hs : serviceAt m s.key = some s)
    (ht : serviceAt m t.key = some t) (hns : s.app.namespaceId = t.app.namespaceId)
    (hname : s.name = t.name) : s = t := by
  have hkey : s.key = t.key := by
    rw [Service.key, Service.key, AppName.deploymentName, AppName.deploymentName, hns, hname]
  rw [hkey, ht] at hs
  exact (Option.some.inj hs).symm

theorem findsAlike_iff (hc : api.Valid c) (h : Orderly (api.stored c))
    (hns : a.namespaceId = b.namespaceId) (service : String) (status : ServiceStatus) :
    FindsAlike api c a b service status ↔ a = b ∨ ∀ t, serviceAt (api.stored c) t.key = some t →
      t.name = service → t.app ≠ a ∧ t.app ≠ b := by
  obtain ⟨r, hr, ⟨-, hnone⟩, -⟩ := Program.run_of_meets hc (h.meets_setStatus a service status)
  obtain ⟨r', hr', ⟨-, hnone'⟩, -⟩ := Program.run_of_meets hc (h.meets_setStatus b service status)
  constructor
  · rintro ⟨q, q', hq, hq', hsame⟩
    obtain rfl : r = q := Except.ok.inj (hr.symm.trans hq)
    obtain rfl : r' = q' := Except.ok.inj (hr'.symm.trans hq')
    rw [hnone, hnone'] at hsame
    have hsame : (∃ t, serviceAt (api.stored c) t.key = some t ∧ t.name = service ∧ t.app = a) ↔
        ∃ t, serviceAt (api.stored c) t.key = some t ∧ t.name = service ∧ t.app = b := by
      simpa using not_congr hsame
    refine or_iff_not_imp_left.2 fun hne t ht hname => ⟨?_, ?_⟩
    · rintro rfl
      obtain ⟨t', ht', hname', rfl⟩ := hsame.1 ⟨t, ht, hname, rfl⟩
      exact hne (congrArg Service.app (eq_of_serviceAt ht ht' hns (hname.trans hname'.symm)))
    · rintro rfl
      obtain ⟨t', ht', hname', rfl⟩ := hsame.2 ⟨t, ht, hname, rfl⟩
      exact hne (congrArg Service.app (eq_of_serviceAt ht' ht hns (hname'.trans hname.symm)))
  · rintro (rfl | hsilent)
    · exact ⟨r, r, hr, hr, Iff.rfl⟩
    · refine ⟨r, r', hr, hr', ?_⟩
      rw [hnone, hnone']
      exact iff_of_true (fun t ht hname => (hsilent t ht hname).1)
        fun t ht hname => (hsilent t ht hname).2

/-- Two spellings of an application act alike exactly as far as the cluster shows no services under
either of them. -/
theorem spellings_alike_iff (api : ApiServer σ) (settings : Settings) (steps : List Step) {s : σ}
    (hs : api.Valid s) (hnew : ∀ ns name, api.stored s ⟨.deployments, ns, name⟩ = none)
    {a b : AppName} (hns : a.namespaceId = b.namespaceId) :
    let c := clusterAfter api.answer settings steps s
    ∃ shown, (services.run api.answer c).1 = .ok shown ∧
      (StopsAlike api c a b ↔ a = b ∨ ∀ t ∈ ungrouped shown, t.app ≠ a ∧ t.app ≠ b) ∧
      ∀ service status, FindsAlike api c a b service status ↔
        a = b ∨ ∀ t ∈ ungrouped shown, t.name = service → t.app ≠ a ∧ t.app ≠ b := by
  intro c
  obtain ⟨hvalid, horderly⟩ :=
    orderly_clusterAfter api settings steps hs (Orderly.of_no_deployments hnew)
  obtain ⟨shown, hshown, ⟨-, -, hmem⟩, -⟩ := Program.run_of_meets hvalid horderly.meets_services
  refine ⟨shown, hshown, ?_, fun service status => ?_⟩
  · simpa only [hmem] using stopsAlike_iff hvalid horderly
  · simpa only [hmem] using findsAlike_iff hvalid horderly hns service status

def oneSpelling : List Step :=
  [.deploy ⟨shop, [plainService "web" "nginx"], []⟩ ⟨none⟩ noon noon]

theorem spellings_alike_after_oneSpelling :
    (Server.Valid .empty ∧ (∀ ns name, Server.empty.stored ⟨.deployments, ns, name⟩ = none) ∧
      shop.namespaceId = lowerShop.namespaceId) ∧
    let c := clusterAfter Server.answer webSettings oneSpelling .empty
    ∃ shown, (services.run Server.answer c).1 = .ok shown ∧
      (StopsAlike Server.api c shop lowerShop ↔
        shop = lowerShop ∨ ∀ t ∈ ungrouped shown, t.app ≠ shop ∧ t.app ≠ lowerShop) ∧
      ∀ service status, FindsAlike Server.api c shop lowerShop service status ↔
        shop = lowerShop ∨
          ∀ t ∈ ungrouped shown, t.name = service → t.app ≠ shop ∧ t.app ≠ lowerShop := by
  have hnew : ∀ ns name, Server.empty.stored ⟨.deployments, ns, name⟩ = none := fun _ _ => rfl
  have hns : shop.namespaceId = lowerShop.namespaceId := by decide +kernel
  exact ⟨⟨Server.valid_empty, hnew, hns⟩,
    spellings_alike_iff Server.api webSettings oneSpelling Server.valid_empty hnew hns⟩

/-- Under the other spelling nothing is stopped, and the service is not found. -/
theorem spellings_differ_after_oneSpelling :
    shop.namespaceId = lowerShop.namespaceId ∧
      ¬StopsAlike Server.api (clusterAfter Server.answer webSettings oneSpelling .empty)
        shop lowerShop ∧
      ¬FindsAlike Server.api (clusterAfter Server.answer webSettings oneSpelling .empty)
        shop lowerShop "web" .paused := by
  obtain ⟨hvalid, horderly⟩ := orderly_clusterAfter Server.api webSettings oneSpelling
    Server.valid_empty (Orderly.of_no_deployments fun _ _ => rfl)
  have hns : shop.namespaceId = lowerShop.namespaceId := by decide +kernel
  have hne : shop ≠ lowerShop := by decide +kernel
  -- the one deployment is found under its first spelling
  have hshown : ((serviceAt (Server.stored
      (clusterAfter Server.answer webSettings oneSpelling .empty))
        ⟨.deployments, shop.namespaceId, shop.deploymentName "web"⟩).map
          fun t => (t.app, t.name)) = some (shop, "web") := by decide +kernel
  obtain ⟨t, ht, hnames⟩ := Option.map_eq_some_iff.1 hshown
  obtain ⟨happ, hname⟩ := Prod.mk.inj hnames
  rw [← happ, ← hname] at ht
  refine ⟨hns, ?_, ?_⟩
  · intro halike
    rcases (stopsAlike_iff hvalid horderly).1 halike with heq | hnone
    · exact hne heq
    · exact (hnone t ht).1 happ
  · intro halike
    rcases (findsAlike_iff hvalid horderly hns "web" .paused).1 halike with heq | hnone
    · exact hne heq
    · exact (hnone t ht hname).1 happ

end PreviewApps
