import Mathlib.Data.List.Perm.Basic
import PreviewApps.Proofs.Cluster.Deployed
import PreviewApps.Proofs.Cluster.Support
import PreviewApps.Proofs.Memory

/-!
The simulation of the backend in memory by a cluster. The deployments of the cluster are exactly
those of the services in view, each under the name made from its application and service, and every
service in view has the namespace of its application.
-/

namespace PreviewApps

open Cluster Memory

def Service.key (s : Service) : Key :=
  ⟨.deployments, s.app.namespaceId, s.app.deploymentName s.name⟩

structure Mirrors (A : AppName → Prop) (m : Store) (f : View) : Prop where
  own : ∀ {ns name s}, f ns name = some s →
    A s.app ∧ ns = s.app.namespaceId ∧ name = s.name ∧ name ≠ ""
  shown : ∀ {ns name s}, f ns name = some s → ∃ j, m s.key = some j ∧ Shows j s
  known : ∀ {key j}, key.kind = .deployments → m key = some j →
    ∃ s, f s.app.namespaceId s.name = some s ∧ s.key = key
  namespaced : ∀ {ns name s}, f ns name = some s → ∃ j, m ⟨.namespaces, "", ns⟩ = some j

variable {A : AppName → Prop} {m m' : Store} {f : View}

theorem mirrors_nothing (h : ∀ key, key.kind = .deployments → m key = none) :
    Mirrors A m fun _ _ => none where
  own hs := by cases hs
  shown hs := by cases hs
  known hkind hj := by
    rw [h _ hkind] at hj
    cases hj
  namespaced hs := by cases hs

theorem Mirrors.untouched (h : Mirrors A m f) (hm : Untouched m m') : Mirrors A m' f where
  own := h.own
  shown hs := by
    obtain ⟨j, hj, hshows⟩ := h.shown hs
    exact ⟨j, (hm _ (.inl rfl)).trans hj, hshows⟩
  known hkind hj := h.known hkind ((hm _ (.inl hkind)).symm.trans hj)
  namespaced hs := by
    obtain ⟨j, hj⟩ := h.namespaced hs
    exact ⟨j, (hm _ (.inr rfl)).trans hj⟩

theorem Mirrors.put_namespace (h : Mirrors A m f) (ns : String) (j : Json) :
    Mirrors A (m.put ⟨.namespaces, "", ns⟩ j) f where
  own := h.own
  shown hs := by
    obtain ⟨j', hj', hshows⟩ := h.shown hs
    refine ⟨j', ?_, hshows⟩
    rw [Store.put_of_ne fun hk => by cases hk]
    exact hj'
  known hkind hj := by
    rw [Store.put_of_ne fun hk => by rw [hk] at hkind; cases hkind] at hj
    exact h.known hkind hj
  namespaced {ns' name s} hs := by
    by_cases hns : ns' = ns
    · exact ⟨j, by rw [hns, Store.put_self]⟩
    · obtain ⟨j', hj'⟩ := h.namespaced hs
      refine ⟨j', ?_⟩
      rw [Store.put_of_ne fun hk => hns (congrArg Key.name hk)]
      exact hj'

theorem key_inj (hA : AppName.Separate A) {s t : Service} (hs : A s.app) (ht : A t.app)
    (h : s.key = t.key) : s.app = t.app ∧ s.name = t.name := by
  have happ := hA s.app t.app hs ht (congrArg Key.namespaceId h)
  refine ⟨happ, ?_⟩
  have hname : s.app.deploymentName s.name = t.app.deploymentName t.name := congrArg Key.name h
  rw [happ] at hname
  exact AppName.deploymentName_inj hname

theorem Mirrors.set (hA : AppName.Separate A) (h : Mirrors A m f) {s : Service} {j : Json}
    (happ : A s.app) (hname : s.name ≠ "") (hshows : Shows j s)
    (hns : ∃ j, m ⟨.namespaces, "", s.app.namespaceId⟩ = some j) :
    Mirrors A (m.put s.key j) (f.set s.app.namespaceId s.name s) := by
  constructor
  · intro ns name t ht
    rcases View.set_eq_some ht with ⟨hat, hname', rfl⟩ | ⟨-, ht⟩
    · exact ⟨happ, hat, hname', hname' ▸ hname⟩
    · exact h.own ht
  · intro ns name t ht
    rcases View.set_eq_some ht with ⟨-, -, rfl⟩ | ⟨hat, ht⟩
    · exact ⟨j, Store.put_self .., hshows⟩
    · obtain ⟨j', hj', hshows'⟩ := h.shown ht
      obtain ⟨hAt, hnst, hnamet, -⟩ := h.own ht
      -- services of separate applications have separate deployments
      have hne : t.key ≠ s.key := by
        intro hk
        obtain ⟨happ', hname'⟩ := key_inj hA hAt happ hk
        exact hat ⟨hnst.trans (congrArg _ happ'), hnamet.trans hname'⟩
      exact ⟨j', (Store.put_of_ne hne j m).trans hj', hshows'⟩
  · intro key j' hkind hj'
    by_cases hk : key = s.key
    · exact ⟨s, View.set_self .., hk.symm⟩
    · rw [Store.put_of_ne hk] at hj'
      obtain ⟨t, ht, hkey⟩ := h.known hkind hj'
      have hother : ¬(t.app.namespaceId = s.app.namespaceId ∧ t.name = s.name) := by
        rintro ⟨hns', hname'⟩
        have happ' := hA t.app s.app (h.own ht).1 happ hns'
        refine hk (hkey.symm.trans ?_)
        rw [Service.key, Service.key, happ', hname']
      exact ⟨t, (View.set_of_not hother s f).trans ht, hkey⟩
  · intro ns name t ht
    rw [Store.put_of_ne fun hk => by cases hk]
    rcases View.set_eq_some ht with ⟨hat, -, -⟩ | ⟨-, ht⟩
    · exact hat ▸ hns
    · exact h.namespaced ht

theorem delete_namespace_of_ne {ns : String} {key : Key} (hkey : key ≠ ⟨.namespaces, "", ns⟩)
    (hns : key.namespaceId ≠ ns) (m : Store) : m.delete ⟨.namespaces, "", ns⟩ key = m key := by
  refine if_neg ?_
  rintro (hk | ⟨-, hin⟩)
  · exact hkey hk
  · exact hns hin

theorem Mirrors.clear (h : Mirrors A m f) (app : AppName) :
    Mirrors A (m.delete ⟨.namespaces, "", app.namespaceId⟩) (f.clear app.namespaceId) := by
  constructor
  · exact fun hs => h.own (View.clear_eq_some hs).2
  · intro ns name s hs
    obtain ⟨hns, hs⟩ := View.clear_eq_some hs
    obtain ⟨j, hj, hshows⟩ := h.shown hs
    have hout : s.key.namespaceId ≠ app.namespaceId := by
      rw [(h.own hs).2.1] at hns
      exact hns
    exact ⟨j, (delete_namespace_of_ne (fun hk => by cases hk) hout m).trans hj, hshows⟩
  · intro key j hkind hj
    have hne : key ≠ ⟨.namespaces, "", app.namespaceId⟩ := by
      rintro rfl
      cases hkind
    by_cases hns : key.namespaceId = app.namespaceId
    · rw [Store.delete, if_pos (.inr ⟨rfl, hns⟩)] at hj
      cases hj
    · rw [delete_namespace_of_ne hne hns] at hj
      obtain ⟨s, hs, rfl⟩ := h.known hkind hj
      exact ⟨s, (if_neg hns).trans hs, rfl⟩
  · intro ns name s hs
    obtain ⟨hns, hs⟩ := View.clear_eq_some hs
    obtain ⟨j, hj⟩ := h.namespaced hs
    have hne : (⟨.namespaces, "", ns⟩ : Key) ≠ ⟨.namespaces, "", app.namespaceId⟩ :=
      fun hk => hns (congrArg Key.name hk)
    -- namespaces themselves stand outside of every namespace
    exact ⟨j, (delete_namespace_of_ne hne app.namespaceId_ne_empty.symm m).trans hj⟩

theorem Mirrors.written (hA : AppName.Separate A) (h : Mirrors A m f) {container : ContainerConfig}
    {usePullSecret : Bool} {claims : List (String × Claim)} {now : Timestamp}
    {d : DeployableService} {s : Service} {j : Json} (happ : A s.app)
    (hconfig : s.config = d.config) (hstatus : s.status = .running) (hname : s.name ≠ "")
    (hns : ∃ j, m ⟨.namespaces, "", s.app.namespaceId⟩ = some j)
    (hj : Written (Deployment.ofService s.app d container usePullSecret claims now).toJson .replace
      (m s.key) j) :
    Shows j s ∧ Mirrors A (m.put s.key j) (f.set s.app.namespaceId s.name s) := by
  have hold : ∀ old ∈ m s.key, ∃ t, Shows old t := by
    intro old hold
    obtain ⟨t, ht, hkey⟩ := h.known rfl hold
    obtain ⟨j, hj, hshows⟩ := h.shown ht
    rw [hkey, hold] at hj
    cases hj
    exact ⟨t, hshows⟩
  have hd : IsOf (Deployment.ofService s.app d container usePullSecret claims now) s.app s.config :=
    ⟨d, container, usePullSecret, claims, now, hconfig.symm, rfl⟩
  have hshows := shows_written hd hstatus hold hj
  exact ⟨hshows, h.set hA happ hname hshows hns⟩

theorem meets_deployService (hA : AppName.Separate A) (h : Mirrors A m f) (settings : Settings)
    (container : ContainerConfig) (now : Timestamp) (usePullSecret : Bool)
    (base : Option IngressRoute) {d : DeployableService} {s : Service} (happ : A s.app)
    (hconfig : s.config = d.config) (hstatus : s.status = .running) (hname : s.name ≠ "")
    (hns : ∃ j, m ⟨.namespaces, "", s.app.namespaceId⟩ = some j) :
    (deployService settings container now s.app usePullSecret base d).Meets m fun r m' =>
      r.map (·.outline) = some s.outline ∧
        Mirrors A m' (f.set s.app.namespaceId s.name s) ∧
        ∃ j, m' ⟨.namespaces, "", s.app.namespaceId⟩ = some j := by
  have hkey : (⟨.deployments, s.app.namespaceId, s.app.deploymentName d.name⟩ : Key) = s.key := by
    rw [Service.key, Service.name, hconfig]
    rfl
  refine meets_deployService_of_written ?_
  intro claims m₁ j m₂ h₁ hj h₂
  rw [hkey] at hj h₂
  have hns₁ := h₁.exists_namespace hns
  obtain ⟨hshows, hmirrors⟩ := (h.untouched h₁).written hA happ hconfig hstatus hname hns₁ hj
  obtain ⟨r, hr, houtline⟩ := serviceOf_of_shows hshows hname
  refine ⟨some r, hr, congrArg some houtline, hmirrors.untouched h₂, h₂.exists_namespace ?_⟩
  rw [Store.put_of_ne fun hk => by cases hk]
  exact hns₁

theorem meets_deployServices (hA : AppName.Separate A) (h : Mirrors A m f) (settings : Settings)
    (container : ContainerConfig) (now now' : Timestamp) (usePullSecret : Bool)
    (base : Option IngressRoute) {app : AppName} (happ : A app) {ds : List DeployableService}
    (hds : ∀ d ∈ ds, d.name ≠ "") (hns : ∃ j, m ⟨.namespaces, "", app.namespaceId⟩ = some j)
    (n : Nat) :
    (ds.mapM (deployService settings container now app usePullSecret base)).Meets m fun rs m' =>
      rs.map (·.map (·.outline)) = (Backend.start app now' n ds).map (some ·.outline) ∧
        Mirrors A m' (f.setAll app.namespaceId (Backend.start app now' n ds)) := by
  induction ds generalizing m f n with
  | nil => exact ⟨rfl, h⟩
  | cons d ds ih =>
    let s : Service := ⟨"#" ++ toString (n + 1), app, d.config, .running, some now'⟩
    have hd := hds d (List.mem_cons_self ..)
    have hs := meets_deployService hA h settings container now usePullSecret base (s := s) happ
      rfl rfl hd hns
    rw [List.mapM_cons]
    refine Program.Meets.bind (hs.mono ?_)
    rintro r m₁ ⟨hr, hm₁, hns₁⟩
    -- the services behind the first one are started with the next numbers
    have hrest := ih hm₁ (fun d' hd' => hds d' (List.mem_cons_of_mem d hd')) hns₁ (n + 1)
    refine Program.Meets.bind (hrest.mono ?_)
    rintro rs m₂ ⟨hrs, hm₂⟩
    refine ⟨?_, hm₂⟩
    rw [List.map_cons, hr, hrs]
    rfl

theorem meets_deploy (hA : AppName.Separate A) (h : Mirrors A m f) (settings : Settings)
    (container : ContainerConfig) (now now' : Timestamp) {u : DeploymentUnit} (happ : A u.app)
    (hu : ∀ d ∈ u.services, d.name ≠ "") (n : Nat) :
    (deploy settings container now u).Meets m fun rs m' =>
      rs.map (·.map (·.outline)) =
          (Backend.start u.app now' n u.services).map (some ·.outline) ∧
        Mirrors A m' (f.setAll u.app.namespaceId (Backend.start u.app now' n u.services)) := by
  refine meets_deploy_of_services ?_
  intro j base m' hm'
  have hmirrors := (h.put_namespace u.app.namespaceId j).untouched hm'
  have hns := hm'.exists_namespace ⟨j, Store.put_self ..⟩
  exact meets_deployServices hA hmirrors settings container now now' _ base happ hu hns n

end PreviewApps
