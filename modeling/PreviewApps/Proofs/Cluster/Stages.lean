import PreviewApps.Cluster.Deploy
import PreviewApps.Proofs.Cluster.Triple
import PreviewApps.Proofs.Cluster.Writes
import PreviewApps.Proofs.Traefik.Conversion

/-!
Deployments cut into stages, each of which is a program of its own. What is true of results and of
programs one after the other is true of a stage if it is of its calls.
-/

namespace PreviewApps.Cluster

def providePullSecret (u : DeploymentUnit) : Program Unit :=
  if u.needsPullSecret then replacePullSecret u else pure ()

theorem deploy_eq (settings : Settings) (container : ContainerConfig) (now : Timestamp)
    (u : DeploymentUnit) : deploy settings container now u = (do
      upsertNamespace settings u.app
      providePullSecret u
      let base ← baseRoute settings
      u.services.mapM (deployService settings container now u.app u.needsPullSecret base)) := by
  unfold deploy providePullSecret
  split
  · rfl
  · rfl

def claimedPaths (settings : Settings) (d : DeployableService) : List String :=
  if settings.runtime.storage.isSome then d.declaredVolumes else []

def claimFor (app : AppName) (service : String) (storage : StorageConfig) (path : String)
    (byType : List (String × Json)) : Program Json :=
  match byType.lookup (ClaimManifest.storageTypeOf path) with
  | some claim => pure claim
  | none => do
    let manifest := ClaimManifest.ofVolume app service storage.size storage.className path
    let created ← .must (.createClaim path) (.create .claims app.namespaceId manifest.toJson)
    .ofExcept (checkCreated created)

theorem assignClaims_cons (app : AppName) (service : String) (storage : StorageConfig)
    (path : String) (paths : List String) (byType : List (String × Json)) :
    assignClaims app service storage (path :: paths) byType = (do
      let claim ← claimFor app service storage path byType
      let rest ← assignClaims app service storage paths
        (Assoc.insertNew (ClaimManifest.storageTypeOf path) claim byType)
      pure ((path, claim) :: rest)) := by
  rw [assignClaims]
  unfold claimFor
  dsimp only
  cases byType.lookup (ClaimManifest.storageTypeOf path) with
  | some claim => rfl
  | none =>
    refine congrArg (Program.call _) (funext fun answer => ?_)
    cases answer with
    | ok created => rfl
    | error e => rfl

namespace Program

/-- A property of programs that results have, and programs that follow one another. -/
structure Closed (P : ∀ {α : Type}, Program α → Prop) : Prop where
  ofExcept {α : Type} (r : Except Fault α) : P (ofExcept r)
  bind {α β : Type} {p : Program α} {f : α → Program β} :
    P p → (∀ a, P (f a)) → P (p >>= f)

namespace Closed

variable {P : ∀ {α : Type}, Program α → Prop} {α β : Type}

theorem pure (hP : Closed P) (a : α) : P (pure a) := hP.ofExcept (.ok a)

theorem throw (hP : Closed P) (e : Fault) : P (throw e : Program α) := hP.ofExcept (.error e)

theorem discard (hP : Closed P) {p : Program α} (hp : P p) : P (Functor.discard p) :=
  hP.bind (f := fun _ => Pure.pure ()) hp fun _ => hP.pure ()

theorem forM (hP : Closed P) {f : α → Program Unit} {xs : List α} (hf : ∀ x ∈ xs, P (f x)) :
    P (xs.forM f) := by
  induction xs with
  | nil => exact hP.pure ()
  | cons x xs ih =>
    have hrest := ih fun y hy => hf y (List.mem_cons_of_mem x hy)
    exact hP.bind (hf x (List.mem_cons_self ..)) fun _ => hrest

theorem mapM (hP : Closed P) {f : α → Program β} {xs : List α} (hf : ∀ x ∈ xs, P (f x)) :
    P (xs.mapM f) := by
  induction xs with
  | nil => exact hP.pure []
  | cons x xs ih =>
    have hrest := ih fun y hy => hf y (List.mem_cons_of_mem x hy)
    rw [List.mapM_cons]
    exact hP.bind (hf x (List.mem_cons_self ..)) fun y => hP.bind hrest fun ys => hP.pure (y :: ys)

theorem providePullSecret (hP : Closed P) (u : DeploymentUnit)
    (hdelete : P (may [404] (.deleteSecret u.app.namespaceId u.app.pullSecretName)
      (.delete .secrets u.app.namespaceId u.app.pullSecretName)))
    (hcreate : P (must (.create .secrets u.app.namespaceId u.app.pullSecretName)
      (.create .secrets u.app.namespaceId (Secret.forImagePull u.app u.credentials).toJson))) :
    P (providePullSecret u) := by
  unfold Cluster.providePullSecret
  split
  · exact hP.bind (hP.discard hdelete) fun _ => hP.discard hcreate
  · exact hP.pure ()

theorem baseRoute (hP : Closed P) (settings : Settings)
    (hget : ∀ ns name, P (may [404] .readBaseRoute (.get .ingressRoutes ns name))) :
    P (baseRoute settings) := by
  unfold Cluster.baseRoute
  split
  · exact hP.pure none
  · refine hP.bind (hget _ _) ?_
    intro found
    split
    · exact hP.pure none
    · exact hP.pure _

theorem upsertFiles (hP : Closed P) (app : AppName) (s : DeployableService)
    (hfiles : P (upsertObject .patch .secrets app.namespaceId (app.secretName s.name)
      (Secret.ofFiles app s.config).toJson)) : P (upsertFiles app s) := by
  unfold Cluster.upsertFiles
  split
  · exact hP.pure ()
  · exact hP.discard hfiles

theorem assignClaims (hP : Closed P) (app : AppName) (service : String) (storage : StorageConfig)
    (hcreate : ∀ path, P (must (.createClaim path) (.create .claims app.namespaceId
      (ClaimManifest.ofVolume app service storage.size storage.className path).toJson)))
    (paths : List String) (byType : List (String × Json)) :
    P (assignClaims app service storage paths byType) := by
  have hclaim : ∀ path byType, P (claimFor app service storage path byType) := by
    intro path byType
    unfold claimFor
    split
    · exact hP.pure _
    · exact hP.bind (hcreate path) fun created => hP.ofExcept _
  induction paths generalizing byType with
  | nil => exact hP.pure []
  | cons path paths ih =>
    rw [assignClaims_cons]
    exact hP.bind (hclaim path byType) fun claim => hP.bind (ih _) fun rest => hP.pure _

theorem claimsFor (hP : Closed P) (settings : Settings) (app : AppName) (s : DeployableService)
    (hlist : ∀ ns selector, P (must (.listClaims ns) (.list .claims ns selector)))
    (hcreate : ∀ (storage : StorageConfig) path, P (must (.createClaim path)
      (.create .claims app.namespaceId
        (ClaimManifest.ofVolume app s.name storage.size storage.className path).toJson))) :
    P (claimsFor settings app s) := by
  unfold Cluster.claimsFor
  split
  · exact hP.pure []
  · next storage _ =>
    split
    · exact hP.pure []
    · refine hP.bind (hlist _ _) ?_
      intro found
      refine hP.bind (hP.ofExcept _) ?_
      intro byType
      exact hP.assignClaims app s.name storage (hcreate storage) s.declaredVolumes byType

theorem upsertRoutes (hP : Closed P) (app : AppName) (s : DeployableService)
    (base : Option IngressRoute)
    (hmiddlewares : ∀ m ∈ Traefik.middlewares app (placedBehind base s), P (upsertMiddleware app m))
    (hroute : ∀ r, Traefik.ingressRoute? app (placedBehind base s) = some r →
      P (upsertObject .patch .ingressRoutes app.namespaceId (app.ingressRouteName s.name)
        r.toJson)) : P (upsertRoutes app s base) := by
  unfold Cluster.upsertRoutes
  split
  · exact hP.pure ()
  · refine hP.bind (hP.forM hmiddlewares) ?_
    intro _
    unfold upsertIngressRoute
    split
    · exact hP.throw _
    · next r hr => exact hP.discard (hroute r hr)

end Closed

/-- A property of programs that tells what they do one after the other. -/
structure Graded {γ : Type} (P : List γ → ∀ {α : Type}, Program α → Prop) : Prop where
  ofExcept {α : Type} (r : Except Fault α) : P [] (ofExcept r)
  bind {α β : Type} {xs ys : List γ} {p : Program α} {f : α → Program β} :
    P xs p → (∀ a, P ys (f a)) → P (xs ++ ys) (p >>= f)

namespace Graded

variable {γ : Type} {P : List γ → ∀ {α : Type}, Program α → Prop} {α β : Type} {xs : List γ}
  {p : Program α}

theorem closed (hP : Graded P) : Closed (P []) := ⟨hP.ofExcept, hP.bind⟩

theorem bind_none (hP : Graded P) {f : α → Program β} (hp : P xs p) (hf : ∀ a, P [] (f a)) :
    P xs (p >>= f) := by
  have hall := hP.bind hp hf
  rwa [List.append_nil] at hall

theorem discard (hP : Graded P) (hp : P xs p) : P xs (Functor.discard p) :=
  hP.bind_none (f := fun _ => pure ()) hp fun _ => hP.closed.pure ()

theorem forM (hP : Graded P) {f : α → Program Unit} {g : α → List γ} {as : List α}
    (hf : ∀ a ∈ as, P (g a) (f a)) : P (as.flatMap g) (as.forM f) := by
  induction as with
  | nil => exact hP.closed.pure ()
  | cons a as ih =>
    have hrest := ih fun b hb => hf b (List.mem_cons_of_mem a hb)
    exact hP.bind (hf a (List.mem_cons_self ..)) fun _ => hrest

theorem mapM (hP : Graded P) {f : α → Program β} {g : α → List γ} {as : List α}
    (hf : ∀ a ∈ as, P (g a) (f a)) : P (as.flatMap g) (as.mapM f) := by
  induction as with
  | nil => exact hP.closed.pure []
  | cons a as ih =>
    have hrest := ih fun b hb => hf b (List.mem_cons_of_mem a hb)
    rw [List.mapM_cons]
    refine hP.bind (hf a (List.mem_cons_self ..)) ?_
    intro b
    exact hP.bind_none hrest fun bs => hP.closed.pure (b :: bs)

theorem upsertRoutes (hP : Graded P) {app : AppName} {s : DeployableService}
    {base : Option IngressRoute} {g : Traefik.MiddlewareResource → List γ}
    (hroute : s.route.isEmpty = false)
    (hmiddlewares : ∀ m ∈ Traefik.middlewares app (placedBehind base s),
      P (g m) (upsertMiddleware app m))
    (hingress : ∀ r, Traefik.ingressRoute? app (placedBehind base s) = some r →
      P xs (upsertObject .patch .ingressRoutes app.namespaceId (app.ingressRouteName s.name)
        r.toJson)) :
    P ((Traefik.middlewares app (placedBehind base s)).flatMap g ++ xs)
      (upsertRoutes app s base) := by
  obtain ⟨r, hr, -⟩ := exists_ingressRoute app base hroute
  unfold Cluster.upsertRoutes
  rw [if_neg (Bool.eq_false_iff.1 hroute)]
  refine hP.bind (hP.forM hmiddlewares) ?_
  intro _
  unfold upsertIngressRoute
  rw [hr]
  exact hP.discard (hingress r hr)

end Graded

section Results

variable {α β : Type}

def Results (R : α → Prop) : Program α → Prop
  | done (.ok a) => R a
  | done (.error _) => True
  | call _ next => ∀ a, (next a).Results R

theorem Results.bind {p : Program α} {f : α → Program β} {R : β → Prop}
    (hp : p.Results fun a => (f a).Results R) :
    (p >>= f).Results R := by
  induction p with
  | done r =>
    cases r with
    | ok a => exact hp
    | error e => trivial
  | call c next ih => exact fun a => ih a (hp a)

theorem results_may {absorbed : List Int} {action : Action} {c : Call} {R : Option Json → Prop}
    (hsome : ∀ j, R (some j)) (hnone : R none) : (may absorbed action c).Results R := by
  intro a
  cases a with
  | ok j => exact hsome j
  | error e =>
    show (if absorbed.contains e.status then pure none else throw (.api action e)).Results R
    split
    · exact hnone
    · trivial

theorem results_baseRoute (settings : Settings) :
    (baseRoute settings).Results fun base => ∀ b ∈ base, ∀ m ∈ b.middlewares, m.isRef := by
  unfold baseRoute
  split
  · exact fun b hb => absurd hb (Option.not_mem_none b)
  · apply Results.bind
    apply results_may
    · intro j b hb
      cases hread : Traefik.convertJson j with
      | ok b' =>
        rw [hread] at hb
        cases hb
        exact Traefik.isRef_of_convertJson hread
      | error e =>
        rw [hread] at hb
        cases hb
    · exact fun b hb => absurd hb (Option.not_mem_none b)

end Results

end Program

end PreviewApps.Cluster
