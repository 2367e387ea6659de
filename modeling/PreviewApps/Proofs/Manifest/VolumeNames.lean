import PreviewApps.Proofs.Manifest.MountedFiles

/-!
Names of the volumes of a pod. A claim never takes a name that is there, so the names are distinct
exactly where the directories with files have names of their own, and then every mount is of one
volume.
-/

namespace PreviewApps

def Json.volumesBehind (deployment mount : Json) : List Json :=
  deployment.podVolumes.filter fun v => (v.get "name").strD == (mount.get "name").strD

namespace Volume

theorem filter_addTo (name : String) (vs : List Volume) (w : Volume) :
    (addTo vs w).filter (·.name == name) =
      if w.name = name ∧ vs.filter (·.name == name) = [] then [w]
      else vs.filter (·.name == name) := by
  unfold addTo
  by_cases hw : w.name = name
  · subst hw
    by_cases hvs : vs.filter (·.name == w.name) = []
    · have hnew : vs.any (·.name == w.name) = false := by
        simpa [List.filter_eq_nil_iff] using hvs
      simp [hnew, hvs]
    · have hold : vs.any (·.name == w.name) = true := by
        simpa [List.filter_eq_nil_iff] using hvs
      simp [hold, hvs]
  · split
    · simp [hw]
    · simp [List.filter_append, hw]

theorem filter_foldl_addTo (name : String) (ws vs : List Volume) :
    (ws.foldl addTo vs).filter (·.name == name) =
      if vs.filter (·.name == name) = [] then (ws.find? (·.name == name)).toList
      else vs.filter (·.name == name) := by
  induction ws generalizing vs with
  | nil => simp +contextual
  | cons w ws ih =>
    rw [List.foldl_cons, ih, filter_addTo]
    by_cases hw : w.name = name
    · by_cases hvs : vs.filter (·.name == name) = [] <;> simp [hw, hvs]
    · simp [hw]

theorem nodup_names_iff (vs : List Volume) : (vs.map (·.name)).Nodup ↔
    ∀ name, (vs.filter (·.name == name)).length ≤ 1 := by
  rw [List.nodup_iff_count_le_one]
  simp only [List.count, List.countP_eq_length_filter, List.filter_map, List.length_map]
  rfl

theorem nodup_names_foldl_addTo (vs ws : List Volume) :
    ((ws.foldl addTo vs).map (·.name)).Nodup ↔ (vs.map (·.name)).Nodup := by
  rw [nodup_names_iff, nodup_names_iff]
  apply forall_congr'
  intro name
  rw [filter_foldl_addTo]
  split
  · next hnew =>
    have hadded : ((ws.find? (·.name == name)).toList).length ≤ 1 := by
      cases ws.find? (·.name == name) <;> simp
    rw [hnew]
    exact iff_of_true hadded (Nat.zero_le 1)
  · rfl

theorem mem_names_foldl_addTo (vs ws : List Volume) (name : String) :
    name ∈ (ws.foldl addTo vs).map (·.name) ↔
      name ∈ vs.map (·.name) ∨ name ∈ ws.map (·.name) := by
  have hmem : ∀ us : List Volume, name ∈ us.map (·.name) ↔ us.filter (·.name == name) ≠ [] := by
    intro us
    simp [List.filter_eq_nil_iff]
  rw [hmem, hmem, filter_foldl_addTo]
  by_cases hnew : vs.filter (·.name == name) = []
  · simp [hnew]
  · simp [hnew]

end Volume

namespace Deployment

variable {app : AppName} {s : DeployableService} {container : ContainerConfig}
  {usePullSecret : Bool} {claims : List (String × Claim)} {now : Timestamp}

theorem nodup_names_volumesOf_iff :
    ((volumesOf app s claims).map (·.name)).Nodup ↔ s.files.Apart := by
  have hfiles : ((s.files.volumes (app.secretName s.name)).map (·.name)).Nodup ↔ s.files.Apart := by
    rw [Files.volumes_eq, List.map_map]
    exact s.files.nodup_volumeNames_iff
  rw [← hfiles]
  exact Volume.nodup_names_foldl_addTo _ _

theorem mem_names_volumesOf {name : String} :
    name ∈ (volumesOf app s claims).map (·.name) ↔ ∃ m ∈ mountsOf s claims, m.name = name := by
  have hclaims : ((claimsOf s claims).map (·.2.volume)).map (·.name) =
      ((claimsOf s claims).map fun e => e.2.mount e.1).map (·.name) := by
    rw [List.map_map, List.map_map]
    rfl
  rw [volumesOf, Volume.mem_names_foldl_addTo, Files.names_volumes, hclaims, ← List.mem_append,
    ← List.map_append, ← List.mem_map]
  rfl

theorem names_podVolumes :
    ((ofService app s container usePullSecret claims now).toJson.podVolumes.map fun v =>
      (v.get "name").strD) = (volumesOf app s claims).map (·.name) := by
  rw [podVolumes_toJson, List.map_map]
  rfl

theorem volumesBehind_toJson (m : VolumeMount) :
    (ofService app s container usePullSecret claims now).toJson.volumesBehind m.toJson =
      ((volumesOf app s claims).filter (·.name == m.name)).map (·.toJson) := by
  rw [Json.volumesBehind, podVolumes_toJson, List.filter_map]
  rfl

theorem nodup_names_iff_volumesBehind : ((volumesOf app s claims).map (·.name)).Nodup ↔
    ∀ m ∈ mountsOf s claims, ∃ v, (volumesOf app s claims).filter (·.name == m.name) = [v] := by
  constructor
  · intro h m hm
    obtain ⟨v, hv, hname⟩ := List.mem_map.1 (mem_names_volumesOf.2 ⟨m, hm, rfl⟩)
    rw [← hname]
    exact ⟨v, Assoc.filter_eq_singleton h hv⟩
  · intro h
    rw [Volume.nodup_names_iff]
    intro name
    by_cases hname : name ∈ (volumesOf app s claims).map (·.name)
    · obtain ⟨m, hm, rfl⟩ := mem_names_volumesOf.1 hname
      obtain ⟨v, hv⟩ := h m hm
      rw [hv]
      exact Nat.le_refl 1
    · have hnone : (volumesOf app s claims).filter (·.name == name) = [] := by
        simpa [List.filter_eq_nil_iff] using hname
      rw [hnone]
      exact Nat.zero_le 1

/-- The volumes of a pod have names of their own, and every mount is of exactly one volume, exactly
where the directories with files have volume names of their own. -/
theorem names_podVolumes_nodup_iff :
    (((ofService app s container usePullSecret claims now).toJson.podVolumes.map fun v =>
      (v.get "name").strD).Nodup ↔ s.files.Apart) ∧
    ((∀ m ∈ (ofService app s container usePullSecret claims now).toJson.podMounts, ∃ v,
      (ofService app s container usePullSecret claims now).toJson.volumesBehind m = [v]) ↔
        s.files.Apart) := by
  have hnames : ((volumesOf app s claims).map (·.name)).Nodup ↔ s.files.Apart :=
    nodup_names_volumesOf_iff
  have hmounts : (ofService app s container usePullSecret claims now).toJson.podMounts =
      (mountsOf s claims).map (·.toJson) := podMounts_toJson _
  constructor
  · rw [names_podVolumes]
    exact hnames
  · rw [← hnames, nodup_names_iff_volumesBehind, hmounts, List.forall_mem_map]
    simp only [volumesBehind_toJson, ← List.length_eq_one_iff, List.length_map]

def dottedTwin : Files :=
  [(Path.ofString "/etc/a.b/x", "one"), (Path.ofString "/etc/a-b/y", "two")]

theorem names_dottedTwin_not_nodup :
    ¬((ofService .master (servedFrom dottedTwin) ⟨none⟩ false [] midnight).toJson.podVolumes.map
      fun v => (v.get "name").strD).Nodup := by
  rw [names_podVolumes, nodup_names_volumesOf_iff]
  intro hapart
  have hsame := hapart (Path.ofString "/etc/a.b/x", "one") (List.mem_cons_self ..)
    (Path.ofString "/etc/a-b/y", "two") (List.mem_cons_of_mem _ (List.mem_singleton_self _))
    (by decide +kernel)
  exact absurd hsame (by decide +kernel)

end Deployment

end PreviewApps
