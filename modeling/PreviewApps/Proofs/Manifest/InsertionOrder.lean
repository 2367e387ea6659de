import PreviewApps.Proofs.Manifest.MountedFiles

/-!
Manifests do not show in which order maps were filled. Files and registries are written in the order
of texts that tell them apart, so maps that hold the same give the same manifests, and of the files
under one key the last path prevails.
-/

namespace PreviewApps

namespace Assoc

variable {κ ν : Type} [BEq κ] [LawfulBEq κ] {m m' : List (κ × ν)}

structure Reordered (m m' : List (κ × ν)) : Prop where
  nodup : (m.map (·.1)).Nodup
  nodup' : (m'.map (·.1)).Nodup
  lookup : ∀ k, m.lookup k = m'.lookup k

theorem lookup_eq_some_iff (hm : (m.map (·.1)).Nodup) {k : κ} {v : ν} :
    m.lookup k = some v ↔ (k, v) ∈ m := ⟨mem_of_lookup, fun he => lookup_of_mem hm he⟩

theorem reordered_iff_perm : Reordered m m' ↔ (m.map (·.1)).Nodup ∧ m.Perm m' := by
  constructor
  · intro h
    refine ⟨h.nodup, (List.perm_ext_iff_of_nodup h.nodup.of_map h.nodup'.of_map).2 ?_⟩
    intro e
    rw [← lookup_eq_some_iff h.nodup, ← lookup_eq_some_iff h.nodup', h.lookup]
  · rintro ⟨hm, hperm⟩
    have hm' : (m'.map (·.1)).Nodup := (hperm.map (·.1)).nodup_iff.1 hm
    refine ⟨hm, hm', fun k => Option.ext fun v => ?_⟩
    rw [lookup_eq_some_iff hm, lookup_eq_some_iff hm', hperm.mem_iff]

theorem Reordered.sortBy_eq (h : Reordered m m') {f : κ → String} (hf : Function.Injective f) :
    Text.sortBy (fun e => f e.1) m = Text.sortBy (fun e => f e.1) m' := by
  obtain ⟨hm, hperm⟩ := reordered_iff_perm.1 h
  have htexts := hm.map hf
  rw [List.map_map] at htexts
  exact Text.sortBy_eq_of_perm _ hperm htexts

end Assoc

namespace Files

variable {files files' : Files}

theorem byParent_eq_of_reordered (h : Assoc.Reordered files files') :
    files.byParent = files'.byParent := by
  have hsorted : files.sorted = files'.sorted := h.sortBy_eq Path.toString_injective
  rw [byParent, byParent, hsorted]

def Prevails (files : Files) (e : Path × String) : Prop :=
  e ∈ files ∧ ∀ e' ∈ files, e'.1.secretKey = e.1.secretKey → e'.1.toString ≤ e.1.toString

end Files

namespace Secret

variable {files files' : Files}

theorem fileData_eq_of_reordered (h : Assoc.Reordered files files') :
    fileData files = fileData files' := by
  have hsorted : files.sorted = files'.sorted := h.sortBy_eq Path.toString_injective
  rw [fileData, fileData, hsorted]

theorem exists_prevails {e : Path × String} (he : e ∈ files) :
    ∃ w, files.Prevails w ∧ w.1.secretKey = e.1.secretKey ∧
      (fileData files).lookup e.1.secretKey = some (Base64.ofText w.2) := by
  -- the entries under the key in the order in which they overwrite each other
  let sharing := files.sorted.filter (·.1.secretKey == e.1.secretKey)
  have hmem {e' : Path × String} : e' ∈ sharing ↔ e' ∈ files ∧ e'.1.secretKey = e.1.secretKey := by
    rw [List.mem_filter, Files.mem_sorted, beq_iff_eq]
  have hsorted : sharing.Pairwise fun a b => a.1.toString ≤ b.1.toString :=
    (Text.pairwise_sortBy (·.1.toString) files).filter _
  have hne : sharing ≠ [] := List.ne_nil_of_mem (hmem.2 ⟨he, rfl⟩)
  obtain ⟨earlier, w, hlast⟩ := (List.eq_nil_or_concat' sharing).resolve_left hne
  rw [hlast] at hsorted
  obtain ⟨hw, hkey⟩ := hmem.1 (show w ∈ sharing by simp [hlast])
  refine ⟨w, ⟨hw, ?_⟩, hkey, ?_⟩
  · intro e' he' hkey'
    have hshares : e' ∈ sharing := hmem.2 ⟨he', hkey'.trans hkey⟩
    rw [hlast] at hshares
    rcases List.mem_append.1 hshares with hearlier | hself
    · exact (List.pairwise_append.1 hsorted).2.2 e' hearlier w (List.mem_singleton_self w)
    · obtain rfl := List.mem_singleton.1 hself
      exact String.le_refl _
  · rw [fileData, Assoc.lookup_ofList, List.filter_map, List.getLast?_map]
    change ((sharing.getLast?).map _).map _ = _
    rw [hlast, List.getLast?_concat]
    rfl

theorem dockerConfig_eq_of_reordered {credentials credentials' : RegistryCredentials}
    (h : Assoc.Reordered credentials credentials') :
    dockerConfig credentials = dockerConfig credentials' := by
  have hsorted : Text.sortBy (·.1) credentials = Text.sortBy (·.1) credentials' :=
    h.sortBy_eq Function.injective_id
  rw [dockerConfig, dockerConfig, hsorted]

end Secret

def DeployableService.withFiles (s : DeployableService) (files : Files) : DeployableService :=
  { s with config := { s.config with files := some files } }

namespace Deployment

variable {files files' : Files}

theorem ofService_eq_of_reordered (h : Assoc.Reordered files files') (app : AppName)
    (s : DeployableService) (container : ContainerConfig) (usePullSecret : Bool)
    (claims : List (String × Claim)) (now : Timestamp) :
    ofService app (s.withFiles files) container usePullSecret claims now =
      ofService app (s.withFiles files') container usePullSecret claims now := by
  have hbyParent := Files.byParent_eq_of_reordered h
  have hvolumes : volumesOf app (s.withFiles files) claims =
      volumesOf app (s.withFiles files') claims := by
    change ((claimsOf s claims).map (·.2.volume)).foldl Volume.addTo (files.volumes _) =
      ((claimsOf s claims).map (·.2.volume)).foldl Volume.addTo (files'.volumes _)
    rw [Files.volumes, hbyParent]
    rfl
  have hmounts : mountsOf (s.withFiles files) claims = mountsOf (s.withFiles files') claims := by
    change files.mounts ++ (claimsOf s claims).map _ = files'.mounts ++ (claimsOf s claims).map _
    rw [Files.mounts, hbyParent]
    rfl
  rw [ofService, ofService, hvolumes, hmounts]
  rfl

end Deployment

/-- Files and credentials that were given in another order make the same manifests, and under one
key the file with the last path prevails. -/
theorem manifests_of_reordered {files files' : Files} {credentials credentials' : RegistryCredentials}
    (hfiles : Assoc.Reordered files files')
    (hcredentials : Assoc.Reordered credentials credentials') (app : AppName)
    (s : DeployableService) (container : ContainerConfig) (usePullSecret : Bool)
    (claims : List (String × Claim)) (now : Timestamp) :
    (Deployment.ofService app (s.withFiles files) container usePullSecret claims now).toJson =
      (Deployment.ofService app (s.withFiles files') container usePullSecret claims now).toJson ∧
    (Secret.ofFiles app (s.withFiles files).config).toJson =
      (Secret.ofFiles app (s.withFiles files').config).toJson ∧
    (∀ e ∈ files, ∃ w, files.Prevails w ∧ w.1.secretKey = e.1.secretKey ∧
      (Secret.ofFiles app (s.withFiles files).config).toJson.secretText? e.1.secretKey =
        some w.2) ∧
    (Secret.forImagePull app credentials).toJson =
      (Secret.forImagePull app credentials').toJson := by
  refine ⟨?_, ?_, ?_, ?_⟩
  · rw [Deployment.ofService_eq_of_reordered hfiles]
  · have hdata : (Secret.ofFiles app (s.withFiles files).config).data =
        (Secret.ofFiles app (s.withFiles files').config).data :=
      Secret.fileData_eq_of_reordered hfiles
    unfold Secret.toJson
    rw [hdata]
    rfl
  · intro e he
    obtain ⟨w, hw, hkey, hvalue⟩ := Secret.exists_prevails he
    refine ⟨w, hw, hkey, ?_⟩
    rw [Secret.secretText?_toJson]
    change ((Secret.fileData files).lookup _).bind _ = _
    rw [hvalue, Option.bind_some, Base64.toText?_ofText]
  · rw [Secret.forImagePull, Secret.forImagePull,
      Secret.dockerConfig_eq_of_reordered hcredentials]

def twoRegistries : RegistryCredentials :=
  [("r.example", ⟨"reader", "one"⟩), ("ghcr.io", ⟨"bot", "two"⟩)]

open Deployment in
theorem manifests_reverse :
    Assoc.Reordered twoDirectories twoDirectories.reverse ∧
    Assoc.Reordered twoRegistries twoRegistries.reverse ∧
    (ofService .master ((servedFrom []).withFiles twoDirectories) ⟨none⟩ false [] midnight).toJson =
      (ofService .master ((servedFrom []).withFiles twoDirectories.reverse) ⟨none⟩ false []
        midnight).toJson ∧
    (Secret.ofFiles .master ((servedFrom []).withFiles twoDirectories).config).toJson =
      (Secret.ofFiles .master ((servedFrom []).withFiles twoDirectories.reverse).config).toJson ∧
    (∀ e ∈ twoDirectories, ∃ w, twoDirectories.Prevails w ∧ w.1.secretKey = e.1.secretKey ∧
      (Secret.ofFiles .master ((servedFrom []).withFiles twoDirectories).config).toJson.secretText?
        e.1.secretKey = some w.2) ∧
    (Secret.forImagePull .master twoRegistries).toJson =
      (Secret.forImagePull .master twoRegistries.reverse).toJson := by
  have hfiles : Assoc.Reordered twoDirectories twoDirectories.reverse :=
    Assoc.reordered_iff_perm.2 ⟨by decide +kernel, (List.reverse_perm _).symm⟩
  have hregistries : Assoc.Reordered twoRegistries twoRegistries.reverse :=
    Assoc.reordered_iff_perm.2 ⟨by decide +kernel, (List.reverse_perm _).symm⟩
  exact ⟨hfiles, hregistries,
    manifests_of_reordered hfiles hregistries .master (servedFrom []) ⟨none⟩ false [] midnight⟩

end PreviewApps
