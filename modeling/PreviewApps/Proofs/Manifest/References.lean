import PreviewApps.Manifest.Deployment
import PreviewApps.Manifest.Routing
import PreviewApps.Manifest.Secret
import PreviewApps.Manifest.Support
import PreviewApps.Proofs.Assoc
import PreviewApps.Proofs.Json.Members

/-!
References between objects, as they stand in the objects themselves, and what the manifests of a
service write there.
-/

namespace PreviewApps

namespace Json

def podVolumes (deployment : Json) : List Json :=
  (deployment.path ["spec", "template", "spec", "volumes"]).items

def podPullSecrets (deployment : Json) : List Json :=
  (deployment.path ["spec", "template", "spec", "imagePullSecrets"]).items

def podLabels (deployment : Json) : Json :=
  deployment.path ["spec", "template", "metadata", "labels"]

def selector (service : Json) : Json := service.path ["spec", "selector"]

def ports (service : Json) : List Json := (service.path ["spec", "ports"]).items

def rules (ingressRoute : Json) : List Json := (ingressRoute.path ["spec", "routes"]).items

end Json

namespace Deployment

theorem podVolumes_toJson (d : Deployment) :
    d.toJson.podVolumes = d.volumes.map (·.toJson) := by
  show (d.podSpec.get "volumes").items = _
  rw [Json.get, Json.member?, podSpec, Json.lookup_record (by simp)]
  cases hvs : d.volumes <;> simp [List.lookup_cons, Json.items, Json.nonempty]

theorem podPullSecrets_toJson (d : Deployment) :
    d.toJson.podPullSecrets = d.pullSecret.toList.map fun n => .obj [("name", .str n)] := by
  show (d.podSpec.get "imagePullSecrets").items = _
  rw [Json.get, Json.member?, podSpec, Json.lookup_record (by simp)]
  cases hn : d.pullSecret <;> simp [List.lookup_cons, Json.items]

theorem exists_foldl_addTo (vs ws : List Volume) :
    ∃ rest, ws.foldl Volume.addTo vs = vs ++ rest ∧ ∀ v ∈ rest, v ∈ ws := by
  induction ws generalizing vs with
  | nil => exact ⟨[], (List.append_nil vs).symm, fun v hv => absurd hv List.not_mem_nil⟩
  | cons w ws ih =>
    obtain ⟨rest, hrest, hmem⟩ := ih (Volume.addTo vs w)
    have hlater := fun v hv => List.mem_cons_of_mem w (hmem v hv)
    rw [List.foldl_cons, hrest, Volume.addTo]
    split
    · exact ⟨rest, rfl, hlater⟩
    · refine ⟨w :: rest, by rw [List.append_assoc, List.singleton_append], ?_⟩
      exact List.forall_mem_cons.2 ⟨List.mem_cons_self .., hlater⟩

theorem mem_volumesOf {app : AppName} {s : DeployableService} {claims : List (String × Claim)}
    {v : Volume} (h : v ∈ volumesOf app s claims) :
    v ∈ s.files.volumes (app.secretName s.name) ∨ ∃ e ∈ claims, v = e.2.volume := by
  obtain ⟨rest, hrest, hclaims⟩ := exists_foldl_addTo (s.files.volumes (app.secretName s.name))
    ((claimsOf s claims).map (·.2.volume))
  rw [volumesOf, hrest] at h
  rcases List.mem_append.1 h with hfiles | hclaim
  · exact .inl hfiles
  · right
    obtain ⟨e, he, rfl⟩ := List.mem_map.1 (hclaims v hclaim)
    obtain ⟨path, -, hpath⟩ := List.mem_filterMap.1 he
    obtain ⟨c, hc, rfl⟩ := Option.map_eq_some_iff.1 hpath
    exact ⟨(path, c), Assoc.mem_of_lookup hc, rfl⟩

section

variable {app : AppName} {s : DeployableService} {container : ContainerConfig}
  {usePullSecret : Bool} {claims : List (String × Claim)} {now : Timestamp} {v source : Json}

theorem exists_volume
    (hv : v ∈ (ofService app s container usePullSecret claims now).toJson.podVolumes) :
    ∃ w ∈ volumesOf app s claims, v = w.toJson := by
  rw [podVolumes_toJson] at hv
  obtain ⟨w, hw, rfl⟩ := List.mem_map.1 hv
  exact ⟨w, hw, rfl⟩

theorem exists_directory_of_secret
    (hv : v ∈ (ofService app s container usePullSecret claims now).toJson.podVolumes)
    (hsource : v.member? "secret" = some source) : ∃ g ∈ s.files.byParent,
      source = .obj [("secretName", .str (app.secretName s.name)),
        ("items", .arr ((g.2.map VolumeItem.ofPath).map (·.toJson)))] := by
  obtain ⟨w, hw, rfl⟩ := exists_volume hv
  rcases mem_volumesOf hw with hfiles | ⟨e, -, rfl⟩
  · obtain ⟨g, hg, rfl⟩ := List.mem_map.1 hfiles
    cases hsource
    exact ⟨g, hg, rfl⟩
  · cases hsource

theorem exists_claim_of_source
    (hv : v ∈ (ofService app s container usePullSecret claims now).toJson.podVolumes)
    (hsource : v.member? "persistentVolumeClaim" = some source) :
    ∃ e ∈ claims, source = .obj [("claimName", e.2.name)] := by
  obtain ⟨w, hw, rfl⟩ := exists_volume hv
  rcases mem_volumesOf hw with hfiles | ⟨e, he, rfl⟩
  · obtain ⟨g, -, rfl⟩ := List.mem_map.1 hfiles
    cases hsource
  · cases hsource
    exact ⟨e, he, rfl⟩

end

end Deployment

namespace Files

theorem mem_sorted {files : Files} {e : Path × String} : e ∈ files.sorted ↔ e ∈ files := by
  rw [sorted, Text.sortBy, List.mem_mergeSort]

theorem mem_of_mem_byParent {files : Files} {g : Path × List Path} (hg : g ∈ files.byParent)
    {p : Path} (hp : p ∈ g.2) : ∃ content, (p, content) ∈ files := by
  rw [byParent, Text.sortBy, List.mem_mergeSort] at hg
  rw [Assoc.eq_filter_of_mem_groupBy hg] at hp
  obtain ⟨e, he, rfl⟩ := List.mem_map.1 (List.mem_filter.1 hp).1
  exact ⟨e.2, mem_sorted.1 he⟩

end Files

namespace Secret

theorem isSome_lookup_fileData {files : Files} {p : Path} {content : String}
    (h : (p, content) ∈ files) : ((fileData files).lookup p.secretKey).isSome := by
  have hmem : (p.secretKey, Base64.ofText content) ∈
      files.sorted.map fun e => (e.1.secretKey, Base64.ofText e.2) :=
    List.mem_map.2 ⟨(p, content), Files.mem_sorted.2 h, rfl⟩
  exact Assoc.isSome_lookup_ofList hmem

theorem data_toJson (s : Secret) : s.toJson.get "data" = .ofMap s.data := by
  rw [Json.get, Json.member?, toJson, Json.lookup_record (by simp)]
  rfl

end Secret

namespace Traefik

theorem rules_toJson (r : IngressRouteResource) :
    r.toJson.rules = (r.spec.routes.getD []).map (·.toJson) := by
  show (r.spec.toJson.get "routes").items = _
  rw [Json.get, Json.member?, IngressRouteSpec.toJson, Json.lookup_record (by simp)]
  cases hroutes : r.spec.routes <;> simp [List.lookup_cons, Json.items]

theorem services_toJson (r : RuleSpec) :
    (r.toJson.get "services").items = r.services.map (·.toJson) := by
  rw [Json.get, Json.member?, RuleSpec.toJson, Json.lookup_record (by simp)]
  rfl

theorem middlewares_toJson (r : RuleSpec) : (r.toJson.get "middlewares").items =
    (r.middlewares.getD []).map fun m => .obj [("name", .str m)] := by
  rw [Json.get, Json.member?, RuleSpec.toJson, Json.lookup_record (by simp)]
  cases hms : r.middlewares <;> simp [List.lookup_cons, Json.items]

end Traefik

end PreviewApps
