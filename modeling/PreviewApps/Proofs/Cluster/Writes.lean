import PreviewApps.Cluster.Deploy
import PreviewApps.Proofs.Cluster.Triple
import PreviewApps.Proofs.Json.Members
import PreviewApps.Proofs.Route

/-!
What the parts of a deployment write. Everything except the namespace and the deployment itself is
support: it is written without a fault and leaves deployments and namespaces as they are.
-/

namespace PreviewApps.Cluster

open Program

structure Named (body : Json) (name : String) : Prop where
  stem : stem? body = none
  given : givenName body = name

theorem named_of_lookup {body metadata : Json} {name : String}
    (hmetadata : body.member? "metadata" = some metadata)
    (hname : metadata.member? "name" = some (.str name))
    (hstem : metadata.member? "generateName" = none) : Named body name := by
  have hpath : ∀ k, body.path ["metadata", k] = (metadata.member? k).getD .null := by
    intro k
    change ((body.get "metadata").member? k).getD .null = _
    rw [Json.get, hmetadata, Option.getD_some]
  constructor
  · rw [stem?, hpath, hstem]
    rfl
  · rw [givenName, hpath, hname]
    rfl

theorem named_deployment (d : Deployment) : Named d.toJson d.name := ⟨rfl, rfl⟩

theorem named_service (s : ServiceManifest) : Named s.toJson s.name := ⟨rfl, rfl⟩

theorem named_secret (s : Secret) : Named s.toJson s.name := ⟨rfl, rfl⟩

theorem member?_namespace (n : NamespaceManifest) (k : String) :
    (n.toJson.get "metadata").member? k =
      (List.lookup k [("name", some (Json.str n.name)), ("labels", some (.ofMap n.labels)),
        ("annotations", Json.nonempty .ofMap n.annotations)]).join :=
  Json.lookup_record (by simp) k

theorem named_namespace (n : NamespaceManifest) : Named n.toJson n.name := by
  apply named_of_lookup rfl
  · exact member?_namespace n "name"
  · exact member?_namespace n "generateName"

theorem isEmpty_placedBehind (base : Option IngressRoute) (s : DeployableService) :
    (placedBehind base s).route.isEmpty = s.route.isEmpty := by
  cases base with
  | none => rfl
  | some b => exact IngressRoute.isEmpty_behind s.route b

theorem named_ingressRoute {app : AppName} {s : DeployableService} {r : Traefik.IngressRouteResource}
    (h : Traefik.ingressRoute? app s = some r) : Named r.toJson (app.ingressRouteName s.name) := by
  unfold Traefik.ingressRoute? at h
  split at h
  · cases h
  · cases h
    exact ⟨rfl, rfl⟩

theorem exists_ingressRoute (app : AppName) {s : DeployableService} (base : Option IngressRoute)
    (h : s.route.isEmpty = false) :
    ∃ r, Traefik.ingressRoute? app (placedBehind base s) = some r ∧
      Named r.toJson (app.ingressRouteName s.name) := by
  have hplaced := (isEmpty_placedBehind base s).trans h
  unfold Traefik.ingressRoute?
  rw [if_neg (by rw [hplaced]; exact Bool.false_ne_true)]
  exact ⟨_, rfl, rfl, rfl⟩

theorem named_middleware {app : AppName} {s : DeployableService} {m : Traefik.MiddlewareResource}
    (h : m ∈ Traefik.middlewares app s) : Named m.toJson (m.metadata.name.getD "") := by
  obtain ⟨own, -, rfl⟩ := List.mem_map.1 h
  exact ⟨rfl, rfl⟩

inductive Written (body : Json) : UpdateMode → Option Json → Json → Prop
  | created {mode entries} (hentries : Assigned entries) :
      Written body mode none (Server.withMetadata (("name", .str (givenName body)) :: entries) body)
  | patched {old} : Written body .patch (some old) (old.mergePatch body)
  | replaced {old entries} (hentries : Kept old entries) :
      Written body .replace (some old) (Server.withMetadata entries body)

theorem meets_updateCall {mode : UpdateMode} {kind : Kind} {ns name : String} {body old : Json}
    {action : Action} {m : Store} {Q : Json → Store → Prop} (hold : m ⟨kind, ns, name⟩ = some old)
    (hQ : ∀ j, Written body mode (some old) j → Q j (m.put ⟨kind, ns, name⟩ j)) :
    (must action (updateCall mode kind ns name body)).Meets m Q := by
  cases mode with
  | patch =>
    refine meets_must_of_stored trivial rfl hold ?_
    intro j m' hs
    cases hs with
    | patched h =>
      rw [hold] at h
      cases h
      exact hQ _ .patched
  | replace =>
    refine meets_must_of_stored trivial rfl hold ?_
    intro j m' hs
    cases hs with
    | replaced h hentries =>
      rw [hold] at h
      cases h
      exact hQ _ (.replaced hentries)

theorem meets_upsert {mode : UpdateMode} {kind : Kind} {ns name : String} {body : Json}
    {creating updating : Action} {m : Store} {Q : Json → Store → Prop} (hkind : kind ≠ .claims)
    (hbody : Named body name)
    (hQ : ∀ j, Written body mode (m ⟨kind, ns, name⟩) j → Q j (m.put ⟨kind, ns, name⟩ j)) :
    (upsert mode kind ns name body creating updating).Meets m Q := by
  obtain ⟨hstem, rfl⟩ := hbody
  refine ⟨.inl ⟨hstem, hkind⟩, ?_⟩
  intro a m' hs
  cases hs with
  | created hname hnew hentries =>
    rw [hname hstem] at hnew ⊢
    rw [hnew] at hQ
    exact hQ _ (.created hentries)
  | conflict hname hold =>
    rw [hold] at hQ
    exact meets_updateCall hold hQ
  | missing hkey hnone => cases hkey

def Untouched (m m' : Store) : Prop :=
  ∀ key, key.kind = .deployments ∨ key.kind = .namespaces → m' key = m key

def Kind.IsSupport (k : Kind) : Prop := k ≠ .deployments ∧ k ≠ .namespaces

instance (k : Kind) : Decidable k.IsSupport := inferInstanceAs (Decidable (_ ∧ _))

theorem Untouched.refl (m : Store) : Untouched m m := fun _ _ => rfl

theorem Untouched.trans {m m' m'' : Store} (h : Untouched m m') (h' : Untouched m' m'') :
    Untouched m m'' := fun key hkey => (h' key hkey).trans (h key hkey)

theorem Untouched.exists_namespace {m m' : Store} {ns : String} (hm : Untouched m m')
    (h : ∃ j, m ⟨.namespaces, "", ns⟩ = some j) : ∃ j, m' ⟨.namespaces, "", ns⟩ = some j := by
  obtain ⟨j, hj⟩ := h
  exact ⟨j, (hm _ (.inr rfl)).trans hj⟩

theorem untouched_put {key : Key} (hkey : key.kind.IsSupport) (j : Json) (m : Store) :
    Untouched m (m.put key j) := by
  intro k hk
  refine Store.put_of_ne ?_ j m
  rintro rfl
  rcases hk with hk | hk
  · exact hkey.1 hk
  · exact hkey.2 hk

theorem untouched_delete {key : Key} (hkey : key.kind.IsSupport) (m : Store) :
    Untouched m (m.delete key) := by
  intro k hk
  refine if_neg ?_
  rintro (rfl | ⟨hns, -⟩)
  · rcases hk with hk | hk
    · exact hkey.1 hk
    · exact hkey.2 hk
  · exact hkey.2 hns

theorem meets_upsertObject {mode : UpdateMode} {kind : Kind} {ns name : String} {body : Json}
    (m : Store) (hkind : kind.IsSupport) (hclaims : kind ≠ .claims) (hbody : Named body name) :
    (upsertObject mode kind ns name body).Meets m fun _ m' => Untouched m m' :=
  meets_upsert hclaims hbody fun j _ => untouched_put hkind j m

end PreviewApps.Cluster
