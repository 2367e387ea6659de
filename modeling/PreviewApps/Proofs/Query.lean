import PreviewApps.Proofs.Mirror

/-!
What a cluster that mirrors a view answers: its services, up to order, and what stopping and scaling
leave of the view.
-/

namespace PreviewApps

open Cluster Memory

variable {A : AppName → Prop} {m m' : Store} {f : View}

theorem exists_readServices_of_forall₂ {js : List Json} {ss : List Service}
    (h : List.Forall₂ (fun j s => Shows j s ∧ s.name ≠ "") js ss) :
    ∃ found, readServices js = .ok found ∧ found.map (·.outline) = ss.map (·.outline) := by
  have hread : ∃ rs : List Service, js.mapM serviceOf = .ok (rs.map some) ∧
      rs.map (·.outline) = ss.map (·.outline) := by
    induction h with
    | nil => exact ⟨[], rfl, rfl⟩
    | cons hs _ ih =>
      obtain ⟨r, hr, houtline⟩ := serviceOf_of_shows hs.1 hs.2
      obtain ⟨rs, hrs, houtlines⟩ := ih
      refine ⟨r :: rs, ?_, ?_⟩
      · rw [List.mapM_cons, hr, hrs]
        rfl
      · rw [List.map_cons, List.map_cons, houtline, houtlines]
  obtain ⟨rs, hrs, houtlines⟩ := hread
  refine ⟨rs, ?_, houtlines⟩
  rw [readServices, hrs]
  change Except.ok ((rs.map some).filterMap id) = _
  rw [List.filterMap_map]
  exact congrArg Except.ok List.filterMap_some

theorem exists_readServices (hA : AppName.Separate A) (h : Mirrors A m f) {keys : List Key}
    {ss : List Service} (hkeys : keys.Nodup) (hss : ss.Nodup)
    (hview : ∀ s ∈ ss, f s.app.namespaceId s.name = some s)
    (hmem : ∀ key, key ∈ keys ↔ ∃ s ∈ ss, s.key = key) :
    ∃ found, readServices (keys.filterMap m) = .ok found ∧
      (found.map (·.outline)).Perm (ss.map (·.outline)) := by
  have hnodup : (ss.map (·.key)).Nodup := by
    refine hss.map_on ?_
    intro s hs t ht hkey
    have hs := hview s hs
    have ht := hview t ht
    obtain ⟨happ, hname⟩ := key_inj hA (h.own hs).1 (h.own ht).1 hkey
    rw [happ, hname, ht] at hs
    exact (Option.some.inj hs).symm
  have hperm : keys.Perm (ss.map (·.key)) := by
    refine (List.perm_ext_iff_of_nodup hkeys hnodup).2 ?_
    intro key
    rw [hmem, List.mem_map]
  have hshows : List.Forall₂ (fun j s => Shows j s ∧ s.name ≠ "")
      ((ss.map (·.key)).filterMap m) ss := by
    have hall : ∀ s ∈ ss, ∃ j, m s.key = some j ∧ Shows j s ∧ s.name ≠ "" := by
      intro s hs
      have hs := hview s hs
      obtain ⟨j, hj, hshows⟩ := h.shown hs
      exact ⟨j, hj, hshows, (h.own hs).2.2.2⟩
    clear hkeys hss hview hmem hnodup hperm
    induction ss with
    | nil => exact .nil
    | cons s ss ih =>
      obtain ⟨j, hj, hs⟩ := hall s (List.mem_cons_self ..)
      rw [List.map_cons, List.filterMap_cons_some hj]
      exact .cons hs (ih fun t ht => hall t (List.mem_cons_of_mem s ht))
  -- the services in the order in which their deployments were listed
  obtain ⟨ss', hshows', hss'⟩ := List.perm_comp_forall₂ (hperm.filterMap m) hshows
  obtain ⟨found, hfound, houtlines⟩ := exists_readServices_of_forall₂ hshows'
  refine ⟨found, hfound, ?_⟩
  rw [houtlines]
  exact hss'.map _

theorem mem_keys_of_app (hA : AppName.Separate A) (h : Mirrors A m f) {app : AppName}
    (happ : A app) {keys : List Key} {ss : List Service}
    (hkeys : Lists m (fun k => k.kind = .deployments ∧ k.namespaceId = app.namespaceId)
      (Labels.ofApp app).selector keys)
    (hview : ∀ s, s ∈ ss ↔ f app.namespaceId s.name = some s) (key : Key) :
    key ∈ keys ↔ ∃ s ∈ ss, s.key = key := by
  rw [hkeys.mem_iff]
  constructor
  · rintro ⟨⟨hkind, hns⟩, j, hj, -⟩
    obtain ⟨s, hs, rfl⟩ := h.known hkind hj
    have hns : s.app.namespaceId = app.namespaceId := hns
    rw [hns] at hs
    exact ⟨s, (hview s).2 hs, rfl⟩
  · rintro ⟨s, hs, rfl⟩
    have hs := (hview s).1 hs
    obtain ⟨j, hj, hshows⟩ := h.shown hs
    obtain ⟨hAs, hns, -⟩ := h.own hs
    rw [hA app s.app happ hAs hns]
    exact ⟨⟨rfl, rfl⟩, j, hj, hshows.selects_app⟩

theorem mem_keys_of_all (h : Mirrors A m f) {keys : List Key} {ss : List Service}
    (hkeys : Lists m (fun k => k.kind = .deployments) Label.appName keys)
    (hview : ∀ s, s ∈ ss ↔ f s.app.namespaceId s.name = some s) (key : Key) :
    key ∈ keys ↔ ∃ s ∈ ss, s.key = key := by
  rw [hkeys.mem_iff]
  constructor
  · rintro ⟨hkind, j, hj, -⟩
    obtain ⟨s, hs, rfl⟩ := h.known hkind hj
    exact ⟨s, (hview s).2 hs, rfl⟩
  · rintro ⟨s, hs, rfl⟩
    obtain ⟨j, hj, hshows⟩ := h.shown ((hview s).1 hs)
    exact ⟨rfl, j, hj, hshows.selects_label⟩

theorem meets_servicesOf (hA : AppName.Separate A) (h : Mirrors A m f) {app : AppName}
    (happ : A app) {ss : List Service} (hss : ss.Nodup)
    (hview : ∀ s, s ∈ ss ↔ f app.namespaceId s.name = some s) :
    (servicesOf app).Meets m fun found m' =>
      m' = m ∧ (found.map (·.outline)).Perm (ss.map (·.outline)) := by
  have hown : ∀ s ∈ ss, f s.app.namespaceId s.name = some s := by
    intro s hs
    have hs := (hview s).1 hs
    rwa [(h.own hs).2.1] at hs
  unfold servicesOf
  refine Program.Meets.bind (Program.meets_may trivial ?_ ?_)
  · intro j m' hs
    cases hs with
    | listed hkeys =>
      have hmem := mem_keys_of_app hA h happ hkeys hview
      obtain ⟨found, hfound, hperm⟩ := exists_readServices hA h hkeys.nodup hss hown hmem
      exact Program.meets_ofExcept hfound ⟨rfl, hperm⟩
  · intro e m' hs
    cases hs with
    | missing hkey hnone => cases hkey

theorem meets_services (hA : AppName.Separate A) (h : Mirrors A m f) {gs : Groups}
    (hgs : Grouped gs) (hnodup : (ungrouped gs).Nodup)
    (hview : ∀ s, s ∈ ungrouped gs ↔ f s.app.namespaceId s.name = some s) :
    services.Meets m fun found m' => m' = m ∧ SameGroups found gs := by
  unfold services
  refine Program.Meets.bind (Program.meets_must trivial ?_)
  intro a m' hs
  cases hs with
  | missing hkey hnone => cases hkey
  | listedEverywhere hkeys =>
    refine ⟨_, rfl, ?_⟩
    have hmem := mem_keys_of_all h hkeys hview
    obtain ⟨found, hfound, hperm⟩ :=
      exists_readServices hA h hkeys.nodup hnodup (fun s => (hview s).1) hmem
    obtain ⟨hgrouped, hungrouped⟩ := grouped_groupBy found
    refine Program.Meets.bind (Program.meets_ofExcept hfound ⟨rfl, ?_⟩)
    exact sameGroups_of_perm hgrouped hgs ((hungrouped.map _).trans hperm)

theorem clear_eq_self (h : Mirrors A m f) {ns : String}
    (hview : ∀ s, f ns s.name ≠ some s) : f.clear ns = f := by
  funext ns' name
  unfold View.clear
  split
  · next hns =>
    cases hf : f ns' name with
    | none => rfl
    | some s =>
      obtain ⟨-, -, hname, -⟩ := h.own hf
      rw [hns, hname] at hf
      exact absurd hf (hview s)
  · rfl

theorem meets_deleteNamespace (h : Mirrors A m f) (app : AppName) :
    (Program.may [404] (.deleteNamespace app.namespaceId)
      (.delete .namespaces "" app.namespaceId)).Meets m fun _ m' =>
        Mirrors A m' (f.clear app.namespaceId) := by
  refine Program.meets_may_of_target trivial rfl ?_ ?_
  · intro j m' hs
    cases hs with
    | deleted hold => exact h.clear app
  · -- without its namespace an application has no services in view
    intro hnone
    have hclear : f.clear app.namespaceId = f := by
      refine clear_eq_self h fun s hs => ?_
      obtain ⟨j, hj⟩ := h.namespaced hs
      rw [hnone] at hj
      cases hj
    rw [hclear]
    exact h

theorem meets_stop (hA : AppName.Separate A) (h : Mirrors A m f) {app : AppName} (happ : A app)
    {ss : List Service} (hss : ss.Nodup)
    (hview : ∀ s, s ∈ ss ↔ f app.namespaceId s.name = some s) :
    (stop app).Meets m fun stopped m' =>
      (stopped.map (·.outline)).Perm (ss.map (·.outline)) ∧
        Mirrors A m' (f.clear app.namespaceId) := by
  unfold stop
  refine Program.Meets.bind ((meets_servicesOf hA h happ hss hview).mono ?_)
  rintro stopped m₁ ⟨hm₁, hperm⟩
  obtain rfl : m = m₁ := hm₁.symm
  split
  · next hempty =>
    rw [List.isEmpty_iff.1 hempty] at hperm
    refine ⟨hperm, ?_⟩
    have hnone : ss = [] := List.map_eq_nil_iff.1 hperm.nil_eq.symm
    have hclear : f.clear app.namespaceId = f := by
      refine clear_eq_self h fun s hs => ?_
      have hmem := (hview s).2 hs
      rw [hnone] at hmem
      exact absurd hmem List.not_mem_nil
    rw [hclear]
    exact h
  · refine Program.Meets.bind (Program.Meets.discard ((meets_deleteNamespace h app).mono ?_))
    intro _ m' hm'
    exact ⟨hperm, hm'⟩

theorem exists_mem_of_perm {ss ts : List Service}
    (h : (ss.map (·.outline)).Perm (ts.map (·.outline))) {s : Service} (hs : s ∈ ss) :
    ∃ t ∈ ts, t.outline = s.outline :=
  List.mem_map.1 (h.mem_iff.1 (List.mem_map_of_mem hs))

theorem name_of_outline {s t : Service} (h : s.outline = t.outline) : s.name = t.name :=
  congrArg Outline.serviceName h

theorem find?_of_perm (h : Mirrors A m f) {ns : String} (service : String)
    {found ss : List Service}
    (hperm : (found.map (·.outline)).Perm (ss.map (·.outline)))
    (hview : ∀ s, s ∈ ss ↔ f ns s.name = some s) :
    (found.find? (·.name == service)).map (·.outline) = (f ns service).map (·.outline) := by
  cases hfound : found.find? (·.name == service) with
  | none =>
    cases hf : f ns service with
    | none => rfl
    | some s =>
      obtain ⟨-, -, hname, -⟩ := h.own hf
      rw [hname] at hf
      obtain ⟨r, hr, houtline⟩ := exists_mem_of_perm hperm.symm ((hview s).2 hf)
      have hne := List.find?_eq_none.1 hfound r hr
      rw [name_of_outline houtline, hname, BEq.rfl] at hne
      exact absurd rfl hne
  | some r =>
    have hfirst := List.find?_some hfound
    have hname : r.name = service := eq_of_beq hfirst
    obtain ⟨t, ht, houtline⟩ := exists_mem_of_perm hperm (List.mem_of_find?_eq_some hfound)
    have hf := (hview t).1 ht
    rw [name_of_outline houtline, hname] at hf
    rw [hf, Option.map_some, Option.map_some, houtline]

theorem meets_scale (hA : AppName.Separate A) (h : Mirrors A m f) {service : String} {r s : Service}
    (hs : f s.app.namespaceId s.name = some s) (hr : r.outline = s.outline)
    (status : ServiceStatus) :
    (Program.may [404] (.scale service) (.patch .deployments s.app.namespaceId
      (s.app.deploymentName r.name)
      (Deployment.replicasPatch s.app r.config (replicasFor status)))).Meets m fun j m' =>
        (∃ stored, j = some stored ∧ Shows stored { s with status }) ∧
          Mirrors A m' (f.set s.app.namespaceId s.name { s with status }) := by
  obtain ⟨happ, -, -, hname⟩ := h.own hs
  obtain ⟨old, hold, hshows⟩ := h.shown hs
  have hkey : (⟨.deployments, s.app.namespaceId, s.app.deploymentName r.name⟩ : Key) = s.key := by
    rw [name_of_outline hr]
    rfl
  have hpatch := replicasPatch_congr s.app (name_of_outline hr)
    (congrArg Outline.containerType hr) (replicasFor status)
  have hpatched := hshows.scaled status
  have hset := h.set hA (s := { s with status }) happ hname hpatched (h.namespaced hs)
  rw [hpatch]
  refine Program.meets_may_of_target trivial rfl ?_ ?_
  · intro j m' hserves
    cases hserves with
    | patched hold' =>
      rw [hkey, hold] at hold'
      cases hold'
      rw [hkey]
      exact ⟨⟨_, rfl, hpatched⟩, hset⟩
  · intro hnone
    rw [hkey, hold] at hnone
    cases hnone

theorem meets_setStatus (hA : AppName.Separate A) (h : Mirrors A m f) {app : AppName}
    (happ : A app) {ss : List Service} (hss : ss.Nodup)
    (hview : ∀ s, s ∈ ss ↔ f app.namespaceId s.name = some s) (service : String)
    (status : ServiceStatus) :
    (setStatus app service status).Meets m fun r m' =>
      r.map (·.outline) =
          (f app.namespaceId service).map (fun s => { s with status : Service }.outline) ∧
        Mirrors A m' (((f app.namespaceId service).map fun s =>
          f.set app.namespaceId service { s with status }).getD f) := by
  unfold setStatus
  refine Program.Meets.bind ((meets_servicesOf hA h happ hss hview).mono ?_)
  rintro found m₁ ⟨hm₁, hperm⟩
  obtain rfl : m = m₁ := hm₁.symm
  have hfind := find?_of_perm h service hperm hview
  cases hf : f app.namespaceId service with
  | none =>
    rw [hf, Option.map_none, Option.map_eq_none_iff] at hfind
    rw [hfind]
    exact ⟨rfl, h⟩
  | some s =>
    rw [hf, Option.map_some, Option.map_eq_some_iff] at hfind
    obtain ⟨r, hr, houtline⟩ := hfind
    rw [hr]
    obtain ⟨hAs, hns, hname, hne⟩ := h.own hf
    obtain rfl : s.app = app := (hA app s.app happ hAs hns).symm
    rw [hname] at hf ⊢
    refine Program.Meets.bind ((meets_scale hA h hf houtline status).mono ?_)
    rintro _ m₂ ⟨⟨stored, rfl, hshows⟩, hm₂⟩
    obtain ⟨read, hread, hout⟩ := serviceOf_of_shows hshows (hname ▸ hne)
    exact Program.meets_ofExcept hread ⟨congrArg some hout, hm₂⟩

end PreviewApps
