import PreviewApps.Proofs.Manifest.VolumeNames

/-!
The claims behind the declared paths of a deployment. A pod has one volume for a storage type, and
the mount of a path leads to it unless a directory with files has taken the volume's name.
-/

namespace PreviewApps

/-- A mount of the path has this claim behind it, and nothing else. -/
def Json.LeadsTo (deployment : Json) (path : String) (claim : Json) : Prop :=
  ∃ m ∈ deployment.podMounts, m.get "mountPath" = .str path ∧
    ∃ v, deployment.podVolumes.filter (fun v => (v.get "name").strD == (m.get "name").strD) = [v] ∧
      v.path ["persistentVolumeClaim", "claimName"] = claim

/-- A mount of the path is of one volume, and that is one of the claim. -/
def Json.BackedBy (deployment : Json) (path : String) (claim : Json) : Prop :=
  ∃ m ∈ deployment.podMounts, m.get "mountPath" = .str path ∧
    ∃ v, deployment.volumesBehind m = [v] ∧
      v.member? "persistentVolumeClaim" = some (.obj [("claimName", claim)])

theorem Json.BackedBy.leadsTo {deployment claim : Json} {path : String}
    (h : deployment.BackedBy path claim) : deployment.LeadsTo path claim := by
  obtain ⟨m, hm, hmount, v, hv, hsource⟩ := h
  refine ⟨m, hm, hmount, v, hv, ?_⟩
  have hget : v.get "persistentVolumeClaim" = .obj [("claimName", claim)] := by
    rw [get, hsource]
    rfl
  show (v.get "persistentVolumeClaim").get "claimName" = claim
  rw [hget]
  rfl

namespace Deployment

variable {app : AppName} {s : DeployableService} {container : ContainerConfig}
  {usePullSecret : Bool} {claims : List (String × Claim)} {now : Timestamp}

theorem filter_volumesOf (name : String) : (volumesOf app s claims).filter (·.name == name) =
    if ∀ e ∈ s.files, e.1.parent.volumeName ≠ name then
      (((claimsOf s claims).map (·.2.volume)).find? (·.name == name)).toList
    else (s.files.volumes (app.secretName s.name)).filter (·.name == name) := by
  rw [volumesOf, Volume.filter_foldl_addTo]
  simp only [Files.filter_volumes_eq_nil_iff]

theorem free_of_backedBy {path : String} {c : Claim} {name : Json}
    (hc : claims.lookup path = some c)
    (h : (ofService app s container usePullSecret claims now).toJson.BackedBy path name) :
    ∀ e ∈ s.files, e.1.parent.volumeName ≠ c.volumeName := by
  obtain ⟨j, hj, hmount, v, hbehind, hsource⟩ := h
  rw [podMounts_toJson] at hj
  obtain ⟨m, hm, rfl⟩ := List.mem_map.1 hj
  rw [volumesBehind_toJson] at hbehind
  obtain ⟨w, hw, rfl⟩ := List.map_eq_singleton_iff.1 hbehind
  have hfree : ∀ e ∈ s.files, e.1.parent.volumeName ≠ m.name := by
    by_contra htaken
    rw [filter_volumesOf, if_neg htaken] at hw
    have hmem := (List.mem_filter.1 (hw ▸ List.mem_singleton_self w)).1
    obtain ⟨g, -, rfl⟩ := List.mem_map.1 hmem
    cases hsource
  rcases List.mem_append.1 hm with hfile | hclaim
  · obtain ⟨g, hg, rfl⟩ := List.mem_map.1 hfile
    obtain ⟨e, he, hparent⟩ := Files.mem_keys_byParent.1 (List.mem_map_of_mem hg)
    exact absurd (congrArg Path.volumeName hparent) (hfree e he)
  · obtain ⟨e, he, rfl⟩ := List.mem_map.1 hclaim
    obtain ⟨path', -, hlookup⟩ := List.mem_filterMap.1 he
    obtain ⟨c', hc', rfl⟩ := Option.map_eq_some_iff.1 hlookup
    obtain rfl : path' = path := Json.str.inj hmount
    rw [hc] at hc'
    cases hc'
    exact hfree

theorem backedBy_ofService_iff {path : String} {c : Claim} (hpath : path ∈ s.declaredVolumes)
    (hc : claims.lookup path = some c)
    (hsame : ∀ e ∈ claimsOf s claims, e.2.volumeName = c.volumeName → e.2.name = c.name) :
    (ofService app s container usePullSecret claims now).toJson.BackedBy path c.name ↔
      ∀ e ∈ s.files, e.1.parent.volumeName ≠ c.volumeName := by
  refine ⟨free_of_backedBy hc, fun hfree => ?_⟩
  have hown : (path, c) ∈ claimsOf s claims := List.mem_filterMap.2 ⟨path, hpath, by rw [hc]; rfl⟩
  have hvolume : ∃ e ∈ claimsOf s claims, e.2.volumeName = c.volumeName ∧
      (volumesOf app s claims).filter (·.name == c.volumeName) = [e.2.volume] := by
    rw [filter_volumesOf, if_pos hfree]
    cases hfound : ((claimsOf s claims).map (·.2.volume)).find? (·.name == c.volumeName) with
    | none =>
      have hnone := List.find?_eq_none.1 hfound _ (List.mem_map_of_mem hown)
      exact absurd (beq_self_eq_true c.volumeName) hnone
    | some v =>
      have hname := List.find?_some hfound
      obtain ⟨e, he, rfl⟩ := List.mem_map.1 (List.mem_of_find?_eq_some hfound)
      exact ⟨e, he, eq_of_beq hname, rfl⟩
  obtain ⟨e, he, hname, hfilter⟩ := hvolume
  refine ⟨(c.mount path).toJson, ?_, rfl, e.2.volume.toJson, ?_, ?_⟩
  · rw [podMounts_toJson]
    apply List.mem_map_of_mem
    exact List.mem_append_right _ (List.mem_map.2 ⟨(path, c), hown, rfl⟩)
  · rw [volumesBehind_toJson]
    exact congrArg (List.map _) hfilter
  · rw [← hsame e he hname]
    rfl

/-- The directory of a file has the name of the claim's volume: no volume has a claim behind it. -/
example :
    let data : DeployableService :=
      { config := ⟨"web", "nginx", none, some [(.ofString "/data-volume/a", "x")], 80, .standalone⟩
        strategy := .never
        route := .empty
        declaredVolumes := ["/data"] }
    (ofService .master data ⟨none⟩ false [("/data", ⟨"data", .str "claim"⟩)]
      ⟨⟨2024, 1, 1, by decide⟩, ⟨12, 0, 0, 0, by decide⟩, some .utc⟩).toJson.podVolumes.map (fun v =>
        (v.path ["persistentVolumeClaim", "claimName"]).str?) = [none] := by
  decide +kernel

end Deployment

end PreviewApps
