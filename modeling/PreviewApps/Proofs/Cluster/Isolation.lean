import PreviewApps.Proofs.Agreement
import PreviewApps.Proofs.Cluster.History
import PreviewApps.Proofs.Cluster.Stages
import PreviewApps.Proofs.Cluster.Writes

/-!
Applications keep to their namespaces. Whatever the server answers, and however the calls of several
operations come between each other, a call that changes something is about the namespace of the
application it is made for.
-/

namespace PreviewApps.Cluster

open Program

def Key.Within (ns : String) (key : Key) : Prop :=
  if key.kind = .namespaces then key.namespaceId = "" ∧ key.name = ns else key.namespaceId = ns

def Sited (body : Json) (ns : String) : Prop :=
  ∀ j, (body.get "metadata").member? "namespace" = some j → j = .str ns

/-- A call that changes something changes it in the namespace, and its manifest says the same. Of new
objects only claims leave their name to the server. -/
def Call.Confined (ns : String) : Call → Prop
  | .create kind ns' body => Key.Within ns ⟨kind, ns', givenName body⟩ ∧ Sited body ns' ∧
    (kind ≠ .claims → stem? body = none)
  | .patch kind ns' name body => Key.Within ns ⟨kind, ns', name⟩ ∧ Sited body ns' ∧
    body.path ["metadata", "name"] = .str name
  | .replace kind ns' name body => Key.Within ns ⟨kind, ns', name⟩ ∧ Sited body ns' ∧
    body.path ["metadata", "name"] = .str name
  | .delete kind ns' name => Key.Within ns ⟨kind, ns', name⟩
  | _ => True

theorem within_of_kind {kind : Kind} (h : kind ≠ .namespaces) (ns name : String) :
    Key.Within ns ⟨kind, ns, name⟩ := by
  simp [Key.Within, h]

theorem within_namespace (ns : String) : Key.Within ns ⟨.namespaces, "", ns⟩ := by
  simp [Key.Within]

theorem not_within {app other : AppName} {key : Key} (h : Key.Within app.namespaceId key)
    (hne : other.namespaceId ≠ app.namespaceId) : ¬Key.Within other.namespaceId key := by
  intro hother
  unfold Key.Within at h hother
  by_cases hkind : key.kind = .namespaces
  · rw [if_pos hkind] at h hother
    exact hne (hother.2.symm.trans h.2)
  · rw [if_neg hkind] at h hother
    exact hne (hother.symm.trans h)

theorem delete_of_within {app other : AppName} {key k : Key} (m : Store)
    (h : Key.Within app.namespaceId key) (hk : Key.Within other.namespaceId k)
    (hne : other.namespaceId ≠ app.namespaceId) : m.delete key k = m k := by
  have hkey : k ≠ key := by
    rintro rfl
    exact not_within h hne hk
  apply if_neg
  rintro (heq | ⟨hkind, hns⟩)
  · exact hkey heq
  · -- a namespace takes along what is in it, but that is nothing of the other application
    have hname : key.name = app.namespaceId := by
      unfold Key.Within at h
      rw [if_pos hkind] at h
      exact h.2
    unfold Key.Within at hk
    rw [hns, hname] at hk
    split at hk
    · exact app.namespaceId_ne_empty hk.1
    · exact hne hk.symm

theorem Call.Confined.frame {app other : AppName} {c : Call} {a : Answer} {m m' : Store}
    (hc : c.Confined app.namespaceId) (hs : Serves m c a m')
    (hne : other.namespaceId ≠ app.namespaceId) {k : Key}
    (hk : Key.Within other.namespaceId k) : m' k = m k := by
  have hput : ∀ {key : Key} (j : Json), Key.Within app.namespaceId key → m.put key j k = m k := by
    intro key j hkey
    apply Store.put_of_ne
    rintro rfl
    exact not_within hkey hne hk
  cases hs with
  | @created kind ns name body entries hname hnew hentries =>
    apply hput
    by_cases hclaims : kind = .claims
    · have hwithin := hc.1
      simp only [Key.Within, hclaims] at hwithin ⊢
      exact hwithin
    · rw [hname (hc.2.2 hclaims)]
      exact hc.1
  | patched hold => exact hput _ hc.1
  | replaced hold hentries => exact hput _ hc.1
  | deleted hold => exact delete_of_within m hc hk hne
  | _ => rfl

def confinement (ns : String) : Contract where
  expects _ := True
  before _ c := c.Confined ns
  faulty _ _ := True

def Confines (ns : String) {α : Type} (p : Program α) : Prop :=
  ∀ h, p.Honours (confinement ns) h fun _ _ => True

section Rules

variable {α β : Type} {ns : String}

theorem confines_ofExcept (r : Except Fault α) : Confines ns (ofExcept r) :=
  fun _ => honours_ofExcept (fun _ _ => trivial) fun _ _ => trivial

theorem Confines.bind {p : Program α} {f : α → Program β} (hp : Confines ns p)
    (hf : ∀ a, Confines ns (f a)) : Confines ns (p >>= f) :=
  fun h => Honours.bind ((hp h).mono fun h' a _ => hf a h')

theorem confines_closed (ns : String) : Closed (Confines ns) := ⟨confines_ofExcept, Confines.bind⟩

theorem confines_pure (a : α) : Confines ns (pure a) := (confines_closed ns).pure a

theorem Confines.discard {p : Program α} (hp : Confines ns p) : Confines ns (Functor.discard p) :=
  (confines_closed ns).discard hp

theorem Confines.map {p : Program α} (hp : Confines ns p) (f : α → β) : Confines ns (f <$> p) :=
  hp.bind fun a => confines_pure (f a)

theorem confines_must {action : Action} {c : Call} (hc : c.Confined ns) :
    Confines ns (must action c) :=
  fun _ => honours_must hc (fun _ _ => trivial) fun _ => trivial

theorem confines_may {absorbed : List Int} {action : Action} {c : Call} (hc : c.Confined ns) :
    Confines ns (may absorbed action c) :=
  fun _ => honours_may hc (fun _ _ => trivial) (fun _ _ => trivial) fun _ _ => trivial

theorem confines_upsert {mode : UpdateMode} {kind : Kind} {ns' name : String} {body : Json}
    {creating updating : Action} (hkey : Key.Within ns ⟨kind, ns', name⟩) (hsited : Sited body ns')
    (hstem : stem? body = none) (hname : body.path ["metadata", "name"] = .str name) :
    Confines ns (upsert mode kind ns' name body creating updating) := by
  have hgiven : givenName body = name := by
    rw [givenName, hname]
    rfl
  have hupdate : (updateCall mode kind ns' name body).Confined ns := by
    cases mode with
    | patch => exact ⟨hkey, hsited, hname⟩
    | replace => exact ⟨hkey, hsited, hname⟩
  intro h
  apply honours_createOrUpdate
  · exact ⟨hgiven.symm ▸ hkey, hsited, fun _ => hstem⟩
  · exact fun _ _ => trivial
  · exact fun _ _ => confines_must hupdate _
  · exact fun _ _ => trivial

theorem confines_upsertObject {mode : UpdateMode} {kind : Kind} {name : String} {body : Json}
    (hkind : kind ≠ .namespaces) (hsited : (body.get "metadata").member? "namespace" = some (.str ns))
    (hstem : stem? body = none) (hname : body.path ["metadata", "name"] = .str name) :
    Confines ns (upsertObject mode kind ns name body) := by
  apply confines_upsert (within_of_kind hkind ns name) _ hstem hname
  intro j hj
  exact Option.some.inj (hj.symm.trans hsited)

end Rules

section Deployments

variable (app : AppName)

theorem confines_upsertNamespace (settings : Settings) :
    Confines app.namespaceId (upsertNamespace settings app) := by
  let manifest := NamespaceManifest.ofApp app settings
  have hsited : Sited manifest.toJson "" := by
    intro j hj
    rw [member?_namespace] at hj
    cases hj
  have hname : manifest.toJson.path ["metadata", "name"] = .str manifest.name := by
    change ((manifest.toJson.get "metadata").member? "name").getD .null = _
    rw [member?_namespace]
    rfl
  apply Confines.discard
  exact confines_upsert (within_namespace _) hsited (named_namespace manifest).stem hname

theorem confines_providePullSecret (u : DeploymentUnit) :
    Confines u.app.namespaceId (providePullSecret u) := by
  have hkind : Kind.secrets ≠ .namespaces := by decide
  apply (confines_closed _).providePullSecret
  · apply confines_may
    exact within_of_kind hkind _ _
  · apply confines_must
    refine ⟨within_of_kind hkind _ _, ?_, fun _ => rfl⟩
    intro j hj
    cases hj
    rfl

theorem confines_claimsFor (settings : Settings) (s : DeployableService) :
    Confines app.namespaceId (claimsFor settings app s) := by
  apply (confines_closed _).claimsFor
  · exact fun _ _ => confines_must trivial
  · intro storage path
    apply confines_must
    refine ⟨within_of_kind (by decide) _ _, ?_, fun h => absurd rfl h⟩
    intro j hj
    cases hj
    rfl

theorem confines_upsertRoutes (s : DeployableService) (base : Option IngressRoute) :
    Confines app.namespaceId (upsertRoutes app s base) := by
  apply (confines_closed _).upsertRoutes
  · intro r hr
    obtain ⟨own, -, rfl⟩ := List.mem_map.1 hr
    exact (confines_upsertObject (by decide) rfl rfl rfl).discard
  · intro r hr
    unfold Traefik.ingressRoute? at hr
    split at hr
    · cases hr
    · cases hr
      exact confines_upsertObject (by decide) rfl rfl rfl

theorem confines_deployService (settings : Settings) (container : ContainerConfig)
    (now : Timestamp) (usePullSecret : Bool) (base : Option IngressRoute) (s : DeployableService) :
    Confines app.namespaceId (deployService settings container now app usePullSecret base s) := by
  unfold deployService
  have hfiles : Confines app.namespaceId (upsertFiles app s) :=
    (confines_closed _).upsertFiles app s (confines_upsertObject (by decide) rfl rfl rfl)
  apply hfiles.bind
  intro _
  apply (confines_claimsFor app settings s).bind
  intro found
  apply (confines_ofExcept (readClaims found)).bind
  intro claims
  apply Confines.bind (confines_upsertObject (by decide) rfl rfl rfl)
  intro stored
  apply Confines.bind (confines_upsertObject (by decide) rfl rfl rfl).discard
  intro _
  apply (confines_upsertRoutes app s base).bind
  intro _
  exact confines_ofExcept _

theorem confines_deploy (settings : Settings) (container : ContainerConfig) (now : Timestamp)
    (u : DeploymentUnit) : Confines u.app.namespaceId (deploy settings container now u) := by
  rw [deploy_eq]
  apply (confines_upsertNamespace u.app settings).bind
  intro _
  apply (confines_providePullSecret u).bind
  intro _
  apply Confines.bind ((confines_closed _).baseRoute settings fun _ _ => confines_may trivial)
  intro base
  apply (confines_closed _).mapM
  exact fun s _ => confines_deployService u.app settings container now _ base s

theorem confines_servicesOf : Confines app.namespaceId (servicesOf app) := by
  unfold servicesOf
  apply Confines.bind
  · apply confines_may
    trivial
  · intro found
    split
    · exact confines_pure []
    · exact confines_ofExcept _

theorem confines_stop : Confines app.namespaceId (stop app) := by
  unfold stop
  apply (confines_servicesOf app).bind
  intro stopped
  split
  · exact confines_pure []
  · apply Confines.bind
    · apply Confines.discard
      apply confines_may
      exact within_namespace _
    · exact fun _ => confines_pure stopped

theorem confines_setStatus (service : String) (status : ServiceStatus) :
    Confines app.namespaceId (setStatus app service status) := by
  -- whatever service the server tells of, the patch is made for the application itself
  unfold setStatus
  apply (confines_servicesOf app).bind
  intro all
  split
  · exact confines_pure none
  · next s _ =>
    have hbody : Sited (Deployment.replicasPatch app s.config (replicasFor status))
        app.namespaceId := by
      intro j hj
      cases hj
      rfl
    apply Confines.bind
    · apply confines_may
      exact ⟨within_of_kind (by decide) _ _, hbody, rfl⟩
    · intro stored
      split
      · exact confines_pure none
      · exact confines_ofExcept _

end Deployments

theorem confines_onCluster (settings : Settings) (st : Step) :
    Confines st.app.namespaceId (st.onCluster settings) := by
  cases st with
  | deploy u container now now' => exact (confines_deploy settings container now u).map _
  | setStatus app service status => exact (confines_setStatus app service status).map _
  | stop app => exact (confines_stop app).map _

abbrev Trace := List (AppName × Exchange)

/-- The calls of operations that run at the same time. The schedule names, call by call, the
operation whose turn it is. -/
def interleave {σ α : Type} (answer : Call → σ → Answer × σ) :
    List Nat → List (AppName × Program α) → σ → Trace
  | [], _, _ => []
  | i :: schedule, running, s =>
    match running[i]? with
    | some (app, .call c next) =>
      (app, c, (answer c s).1) ::
        interleave answer schedule (running.set i (app, next (answer c s).1)) (answer c s).2
    | _ => interleave answer schedule running s

/-- Every call is confined to the namespace of its application, and serving it changes nothing in the
namespace of another one. -/
def Isolated (t : Trace) : Prop :=
  ∀ x ∈ t, x.2.1.Confined x.1.namespaceId ∧
    ∀ other : AppName, other.namespaceId ≠ x.1.namespaceId → ∀ m a m', Serves m x.2.1 a m' →
      ∀ key, Key.Within other.namespaceId key → m' key = m key

theorem isolated_of_confined {t : Trace} (h : ∀ x ∈ t, x.2.1.Confined x.1.namespaceId) :
    Isolated t := by
  intro x hx
  refine ⟨h x hx, ?_⟩
  intro other hne m a m' hs key hkey
  exact (h x hx).frame hs hne hkey

theorem confined_of_mem_interleave {σ α : Type} {answer : Call → σ → Answer × σ}
    {schedule : List Nat} {running : List (AppName × Program α)} {s : σ}
    (hrunning : ∀ r ∈ running, ∃ h, r.2.Honours (confinement r.1.namespaceId) h fun _ _ => True) :
    ∀ x ∈ interleave answer schedule running s, x.2.1.Confined x.1.namespaceId := by
  induction schedule generalizing running s with
  | nil => simp [interleave]
  | cons i schedule ih =>
    rw [interleave]
    split
    · next app c next hi =>
      obtain ⟨h, hc, hnext⟩ := hrunning _ (List.mem_of_getElem? hi)
      have hrest : ∀ r ∈ running.set i (app, next (answer c s).1),
          ∃ h, r.2.Honours (confinement r.1.namespaceId) h fun _ _ => True := by
        intro r hr
        rcases List.mem_or_eq_of_mem_set hr with hr | rfl
        · exact hrunning r hr
        · exact ⟨_, hnext _ trivial⟩
      intro x hx
      rcases List.mem_cons.1 hx with rfl | hx
      · exact hc
      · exact ih hrest x hx
    · exact ih hrunning

/-- Deploying, stopping and scaling keep to the namespace of their application, each by itself and
in every interleaving. -/
theorem operations_isolated {σ : Type} (answer : Call → σ → Answer × σ) (settings : Settings)
    (steps : List Step) (schedule : List Nat) (s : σ) :
    Isolated (steps.flatMap fun st =>
        ((st.onCluster settings).history answer s).map fun x => (st.app, x)) ∧
      Isolated (interleave answer schedule
        (steps.map fun st => (st.app, st.onCluster settings)) s) := by
  constructor
  · apply isolated_of_confined
    intro x hx
    obtain ⟨st, -, hx⟩ := List.mem_flatMap.1 hx
    obtain ⟨e, he, rfl⟩ := List.mem_map.1 hx
    obtain ⟨past, rest, hsplit⟩ := List.append_of_mem he
    exact before_of_honours (confines_onCluster settings st []) (fun _ _ => trivial) hsplit
  · apply isolated_of_confined
    apply confined_of_mem_interleave
    intro r hr
    obtain ⟨st, -, rfl⟩ := List.mem_map.1 hr
    exact ⟨[], confines_onCluster settings st []⟩

end PreviewApps.Cluster
