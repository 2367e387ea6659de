import PreviewApps.Proofs.Cluster.Failures

/-!
Scaling a deployment. The patch repeats the names and labels of the deployment, made anew from the
service that is read back from it, and so changes the replica count and nothing else.
-/

namespace PreviewApps

namespace Assoc

variable {κ ν : Type} [BEq κ] [LawfulBEq κ]

theorem insert_of_lookup {k : κ} {v : ν} {m : List (κ × ν)} (h : m.lookup k = some v) :
    insert k v m = m := by
  induction m with
  | nil => cases h
  | cons e m ih =>
    rw [List.lookup_cons] at h
    rw [insert]
    by_cases hk : k = e.1
    · rw [hk, BEq.rfl] at h ⊢
      cases h
      rfl
    · rw [beq_false_of_ne hk] at h ⊢
      exact congrArg (e :: ·) (ih h)

theorem insert_insert (k : κ) (v w : ν) (m : List (κ × ν)) :
    insert k w (insert k v m) = insert k w m := by
  induction m with
  | nil => simp [insert]
  | cons e m ih =>
    by_cases hk : k = e.1
    · simp [insert, hk]
    · simp [insert, hk, ih]

end Assoc

namespace Json

def replaceAt : Json → List String → Json → Json
  | _, [], new => new
  | j, k :: ks, new => obj (Assoc.insert k ((j.get k).replaceAt ks new) j.members)

theorem get_replaceAt (j : Json) (k : String) (ks : List String) (new : Json) :
    (j.replaceAt (k :: ks) new).get k = (j.get k).replaceAt ks new := by
  change ((Assoc.insert k _ j.members).lookup k).getD null = _
  rw [Assoc.lookup_insert_self, Option.getD_some]

theorem member?_replaceAt_of_ne {k k' : String} (h : k' ≠ k) (j : Json) (ks : List String)
    (new : Json) : (j.replaceAt (k :: ks) new).member? k' = j.member? k' :=
  Assoc.lookup_insert_of_ne h _ j.members

theorem replaceAt_replaceAt (j : Json) (ks : List String) (new new' : Json) :
    (j.replaceAt ks new).replaceAt ks new' = j.replaceAt ks new' := by
  induction ks generalizing j with
  | nil => rfl
  | cons k ks ih =>
    rw [replaceAt, get_replaceAt, ih]
    exact congrArg obj (Assoc.insert_insert k _ _ j.members)

variable {k : String} {v old : Json} {ms target : List (String × Json)}

theorem mergeMembers_cons_of_same (hv : v.isNull = false) (hk : target.lookup k = some old)
    (h : old.mergePatch v = old) : mergeMembers target ((k, v) :: ms) = mergeMembers target ms := by
  rw [mergeMembers, hv, hk, Option.getD_some, h]
  exact congrArg (mergeMembers · ms) (Assoc.insert_of_lookup hk)

theorem mergeMembers_cons_str {s : String} (hk : target.lookup k = some (.str s)) :
    mergeMembers target ((k, .str s) :: ms) = mergeMembers target ms :=
  mergeMembers_cons_of_same rfl hk rfl

end Json

namespace Cluster

def scaledTo (d : Deployment) (n : Int) : Json :=
  d.toJson.replaceAt ["spec", "replicas"] (.int n)

theorem scaledTo_one (d : Deployment) : scaledTo d 1 = d.toJson := rfl

theorem member?_spec_scaledTo (d : Deployment) (n : Int) :
    (scaledTo d n).member? "spec" = some (.obj (d.storedSpec n)) := rfl

structure Scales (app : AppName) (r : Service) (j : Json) (n : Int) : Prop where
  patched : j.mergePatch (Deployment.replicasPatch app r.config n) =
    j.replaceAt ["spec", "replicas"] (.int n)
  name : (Deployment.replicasPatch app r.config n).path ["metadata", "name"] =
    j.path ["metadata", "name"]
  namespaceId : (Deployment.replicasPatch app r.config n).path ["metadata", "namespace"] =
    j.path ["metadata", "namespace"]
  read : serviceOf (j.mergePatch (Deployment.replicasPatch app r.config n)) =
    .ok (some { r with status := if n = 0 then .paused else .running })

section Kept

variable {app : AppName} {s : DeployableService} {container : ContainerConfig}
  {usePullSecret : Bool} {claims : List (String × Claim)} {now : Timestamp} {j : Json} {m : Int}

theorem Echoes.scaled {d : Deployment} (h : Echoes (scaledTo d m) j) (n : Int) :
    Echoes (scaledTo d n) (j.replaceAt ["spec", "replicas"] (.int n)) := by
  obtain ⟨own, hown, hkept, hstart⟩ := h.metadata
  constructor
  · intro k v hk hv
    by_cases hspec : k = "spec"
    · subst hspec
      rw [member?_spec_scaledTo] at hv
      cases hv
      have hold : j.get "spec" = .obj (d.storedSpec m) := by
        rw [Json.get, h.members "spec" _ hk (member?_spec_scaledTo d m), Option.getD_some]
      change List.lookup "spec" (Assoc.insert "spec" _ j.members) = _
      rw [Assoc.lookup_insert_self, hold]
      rfl
    · rw [Json.member?_replaceAt_of_ne hspec]
      rw [scaledTo, Json.member?_replaceAt_of_ne hspec] at hv
      refine h.members k v hk ?_
      rw [scaledTo, Json.member?_replaceAt_of_ne hspec, hv]
  · exact ⟨own, (Json.member?_replaceAt_of_ne (by decide) ..).trans hown, hkept, hstart⟩

theorem mergePatch_replicasPatch
    (h : Echoes (scaledTo (Deployment.ofService app s container usePullSecret claims now) m) j)
    (n : Int) : j.mergePatch (Deployment.replicasPatch app s.config n) =
      j.replaceAt ["spec", "replicas"] (.int n) := by
  -- the patch says what the deployment says already, but for the count
  let d := Deployment.ofService app s container usePullSecret claims now
  obtain ⟨own, hown, hkept, -⟩ := h.metadata
  obtain ⟨ms, rfl⟩ := eq_obj_of_member? hown
  have hown : ms.lookup "metadata" = some (.obj own) := hown
  have hname : own.lookup "name" = some (.str (app.deploymentName s.config.serviceName)) :=
    hkept "name" (by decide) _ rfl
  have hns : own.lookup "namespace" = some (.str app.namespaceId) :=
    hkept "namespace" (by decide) _ rfl
  have hlabels : own.lookup "labels" =
      some (.ofMap (Labels.ofService app s.config.serviceName s.config.containerType)) :=
    hkept "labels" (by decide) _ rfl
  have hmetadata : (Json.obj own).mergePatch (.obj
      [("name", .str (app.deploymentName s.config.serviceName)), ("namespace", .str app.namespaceId),
        ("labels", .ofMap (Labels.ofService app s.config.serviceName s.config.containerType))]) =
      .obj own := by
    refine congrArg Json.obj ?_
    change Json.mergeMembers own _ = own
    rw [Json.mergeMembers_cons_str hname, Json.mergeMembers_cons_str hns]
    exact Json.mergeMembers_cons_of_same rfl hlabels (mergePatch_labels app s)
  have hversion : ms.lookup "apiVersion" = some (.str "apps/v1") :=
    h.members "apiVersion" _ (by decide) rfl
  have hkind : ms.lookup "kind" = some (.str "Deployment") := h.members "kind" _ (by decide) rfl
  have hspec : ms.lookup "spec" = some (.obj (d.storedSpec m)) :=
    h.members "spec" _ (by decide) (member?_spec_scaledTo d m)
  change Json.obj (Json.mergeMembers ms _) = Json.obj (Assoc.insert "spec"
    (Json.replaceAt ((ms.lookup "spec").getD .null) ["replicas"] (.int n)) ms)
  rw [Json.mergeMembers_cons_str hversion, Json.mergeMembers_cons_str hkind,
    Json.mergeMembers_cons_of_same rfl hown hmetadata, Json.mergeMembers, hspec]
  rfl

theorem exists_serviceOf_scaledTo (hname : s.name ≠ "")
    (h : Echoes (scaledTo (Deployment.ofService app s container usePullSecret claims now) m) j) :
    ∃ r : Service, r.config.serviceName = s.config.serviceName ∧
      r.config.containerType = s.config.containerType ∧
      serviceOf j = .ok (some { r with status := if m = 0 then .paused else .running }) ∧
      ∀ n, serviceOf (j.replaceAt ["spec", "replicas"] (.int n)) =
        .ok (some { r with status := if n = 0 then .paused else .running }) := by
  let d := Deployment.ofService app s container usePullSecret claims now
  obtain ⟨own, hown, hkept, started, hstarted⟩ := h.metadata
  let r : Service :=
    { id := identityOf own
      app
      config := { s.config with env := s.config.env.map (·.readBack), files := none }
      status := .running
      startedAt := started }
  have hread : ∀ {ms : List (String × Json)} {n}, ms.lookup "metadata" = some (.obj own) →
      ms.lookup "spec" = some (.obj (d.storedSpec n)) →
      serviceOf (.obj ms) =
        .ok (some { r with status := if n = 0 then .paused else .running }) := by
    intro ms n hmetadata hspec
    have hstored := serviceOf_stored app s container usePullSecret claims now n
      (hkept "labels" (by decide) _ rfl) (hkept "annotations" (by decide) _ rfl) hstarted
    rw [if_neg hname] at hstored
    rw [← hstored]
    exact serviceOf_congr hmetadata hspec
  refine ⟨r, rfl, rfl, ?_, fun n => ?_⟩
  · obtain ⟨ms, rfl⟩ := eq_obj_of_member? hown
    exact hread hown (h.members "spec" _ (by decide) (member?_spec_scaledTo d m))
  · have hscaled := h.scaled n
    exact hread ((Json.member?_replaceAt_of_ne (by decide) ..).trans hown)
      (hscaled.members "spec" _ (by decide) (member?_spec_scaledTo d n))

theorem foldl_mergePatch_replicasPatch
    (h : Echoes (scaledTo (Deployment.ofService app s container usePullSecret claims now) m) j)
    (counts : List Int) (n : Int) :
    (counts ++ [n]).foldl (fun j n => j.mergePatch (Deployment.replicasPatch app s.config n)) j =
      j.replaceAt ["spec", "replicas"] (.int n) := by
  induction counts generalizing j m with
  | nil => exact mergePatch_replicasPatch h n
  | cons k counts ih =>
    rw [List.cons_append, List.foldl_cons, mergePatch_replicasPatch h k, ih (h.scaled k),
      Json.replaceAt_replaceAt]

/-- A deployment that is kept as it was written is scaled by the patch that is made of the service
read back from it: the count is replaced, all else stays, and the service is read back as before but
for its status. -/
theorem written_deployment_scales (hname : s.name ≠ "")
    (hj : Echoes (Deployment.ofService app s container usePullSecret claims now).toJson j) :
    ∃ r, serviceOf j = .ok (some r) ∧ ∀ n, Scales app r j n := by
  rw [← scaledTo_one] at hj
  obtain ⟨r, hservice, htype, hr, hscaled⟩ := exists_serviceOf_scaledTo hname hj
  refine ⟨_, hr, fun n => ?_⟩
  have hpatch : Deployment.replicasPatch app r.config n = Deployment.replicasPatch app s.config n :=
    replicasPatch_congr app hservice htype n
  have hmerge := mergePatch_replicasPatch hj n
  rw [← hpatch] at hmerge
  obtain ⟨own, hown, hkept, -⟩ := hj.metadata
  have hpath : ∀ k, j.path ["metadata", k] = (own.lookup k).getD .null := by
    intro k
    change (((j.member? "metadata").getD .null).get k) = _
    rw [hown]
    rfl
  constructor
  · exact hmerge
  · rw [hpath, hkept "name" (by decide) _ rfl, hpatch]
    rfl
  · rw [hpath, hkept "namespace" (by decide) _ rfl, hpatch]
    rfl
  · exact (congrArg serviceOf hmerge).trans (hscaled n)

end Kept

def frontService : DeployableService where
  config :=
    { serviceName := "front"
      image := "registry.example.com/front:2"
      env := some [.replicatedOf "MODE" "demo", ⟨"MODE", "live", true, false⟩]
      files := some [(.ofString "/etc/front.d/a.conf", "one")]
      port := 8080
      containerType := .replica }
  strategy := .never
  route := .ofService shop "front"
  declaredVolumes := ["/var/lib/data"]

def frontClaims : List (String × Claim) :=
  [("/var/lib/data", ⟨"data", .str "shop-front-pvc-00001"⟩)]

theorem written_deployment_scales_of_front :
    let d := Deployment.ofService shop frontService ⟨some 1024⟩ true frontClaims noon
    frontService.name ≠ "" ∧ Echoes d.toJson (stamped d.toJson) ∧
      ∃ r, serviceOf (stamped d.toJson) = .ok (some r) ∧
        ∀ n, Scales shop r (stamped d.toJson) n := by
  have hname : frontService.name ≠ "" := by decide
  have hkept := echoes_stamped
    (Deployment.ofService shop frontService ⟨some 1024⟩ true frontClaims noon).toJson
  exact ⟨hname, hkept, written_deployment_scales hname hkept⟩

end Cluster

end PreviewApps
