import Mathlib.Algebra.GroupWithZero.Nat
import Mathlib.Algebra.Order.BigOperators.Group.List
import Mathlib.Algebra.Order.Group.Nat
import Mathlib.Data.List.Nodup
import Mathlib.Data.List.Perm.Basic
import PreviewApps.Proofs.Manifest.FileVolumes
import PreviewApps.Proofs.Text.Base64

/-!
The files that a pod finds under its mounts. Names of volumes and keys of the secret come from paths
in a lossy way, so the pod finds the configured files exactly where these names stay apart.
-/

namespace PreviewApps

namespace Json

def podMounts (deployment : Json) : List Json :=
  (deployment.path ["spec", "template", "spec", "containers"]).items.flatMap fun c =>
    (c.get "volumeMounts").items

def strD (j : Json) : String := j.str?.getD ""

def secretText? (secret : Json) (key : String) : Option String :=
  (((secret.get "data").member? key).bind (·.str?)).bind Base64.toText?

/-- Every item of a volume of the secret, below every mount of that volume, with its text. -/
def mountedFiles (deployment secret : Json) : List (Path × Option String) :=
  let volumes := deployment.podVolumes.filter fun v =>
    (v.path ["secret", "secretName"]).str? == (secret.path ["metadata", "name"]).str?
  volumes.flatMap fun v =>
    let mounts := deployment.podMounts.filter fun m => (m.get "name").strD == (v.get "name").strD
    mounts.flatMap fun m => (v.path ["secret", "items"]).items.map fun i =>
      ((Path.ofString (m.get "mountPath").strD).join (Path.ofString (i.get "path").strD),
        secret.secretText? (i.get "key").strD)

end Json

structure DeployableService.Unambiguous (s : DeployableService) (claims : List (String × Claim)) :
    Prop where
  contents : ∀ e ∈ s.files, ∀ e' ∈ s.files, e.1.secretKey = e'.1.secretKey → e.2 = e'.2
  directories : ∀ e ∈ s.files, ∀ e' ∈ s.files,
    e.1.parent.volumeName = e'.1.parent.volumeName → e.1.parent = e'.1.parent
  claims : ∀ e ∈ s.files, ∀ c ∈ Deployment.claimsOf s claims,
    c.2.volumeName ≠ e.1.parent.volumeName

namespace Secret

theorem name_toJson (s : Secret) : (s.toJson.path ["metadata", "name"]).str? = some s.name := by
  have hmetadata : s.toJson.get "metadata" = .obj
      [("name", .str s.name), ("namespace", .str s.namespaceId), ("labels", .ofMap s.labels)] := by
    rw [Json.get, Json.member?, toJson, Json.lookup_record (by simp)]
    rfl
  show ((s.toJson.get "metadata").get "name").str? = _
  rw [hmetadata]
  rfl

theorem secretText?_toJson (s : Secret) (key : String) :
    s.toJson.secretText? key = (s.data.lookup key).bind Base64.toText? := by
  rw [Json.secretText?, data_toJson, Json.member?, Json.lookup_ofMap]
  cases s.data.lookup key <;> rfl

theorem exists_content_of_lookup {files : Files} {key value : String}
    (h : (fileData files).lookup key = some value) :
    ∃ e ∈ files, e.1.secretKey = key ∧ Base64.toText? value = some e.2 := by
  rw [fileData, Assoc.lookup_ofList] at h
  obtain ⟨entry, hlast, rfl⟩ := Option.map_eq_some_iff.1 h
  obtain ⟨hmem, hkey⟩ := List.mem_filter.1 (List.mem_of_getLast? hlast)
  obtain ⟨e, he, rfl⟩ := List.mem_map.1 hmem
  exact ⟨e, Files.mem_sorted.1 he, eq_of_beq hkey, Base64.toText?_ofText e.2⟩

end Secret

namespace Files

def content (files : Files) (key : String) : Option String :=
  ((Secret.fileData files).lookup key).bind Base64.toText?

end Files

namespace Deployment

theorem podMounts_toJson (d : Deployment) :
    d.toJson.podMounts = d.container.mounts.map (·.toJson) := by
  have hcontainers : (d.toJson.path ["spec", "template", "spec", "containers"]).items =
      [d.container.toJson] := by
    show (d.podSpec.get "containers").items = _
    rw [Json.get, Json.member?, podSpec, Json.lookup_record (by simp)]
    rfl
  rw [Json.podMounts, hcontainers, List.flatMap_singleton, Json.get, Json.member?, Container.toJson,
    Json.lookup_record (by simp)]
  cases hms : d.container.mounts <;> simp [List.lookup_cons, Json.items, Json.nonempty]

section

variable {app : AppName} {s : DeployableService} {container : ContainerConfig}
  {usePullSecret : Bool} {claims : List (String × Claim)} {now : Timestamp}

theorem filter_podVolumes :
    ((ofService app s container usePullSecret claims now).toJson.podVolumes.filter fun v =>
        (v.path ["secret", "secretName"]).str? ==
          ((Secret.ofFiles app s.config).toJson.path ["metadata", "name"]).str?) =
      (s.files.volumes (app.secretName s.name)).map (·.toJson) := by
  obtain ⟨rest, hrest, hclaims⟩ := exists_foldl_addTo (s.files.volumes (app.secretName s.name))
    ((claimsOf s claims).map (·.2.volume))
  have hvolumes : (ofService app s container usePullSecret claims now).volumes =
      s.files.volumes (app.secretName s.name) ++ rest := hrest
  rw [podVolumes_toJson, hvolumes, Secret.name_toJson, List.map_append, List.filter_append]
  have hfiles : ∀ v ∈ (s.files.volumes (app.secretName s.name)).map (·.toJson),
      ((v.path ["secret", "secretName"]).str? ==
        some (Secret.ofFiles app s.config).name) = true := by
    intro v hv
    obtain ⟨w, hw, rfl⟩ := List.mem_map.1 hv
    obtain ⟨g, -, rfl⟩ := List.mem_map.1 hw
    exact beq_self_eq_true _
  have hothers : ∀ v ∈ rest.map (·.toJson),
      ¬((v.path ["secret", "secretName"]).str? ==
        some (Secret.ofFiles app s.config).name) = true := by
    intro v hv
    obtain ⟨w, hw, rfl⟩ := List.mem_map.1 hv
    obtain ⟨c, -, rfl⟩ := List.mem_map.1 (hclaims w hw)
    exact Bool.false_ne_true
  rw [List.filter_eq_self.2 hfiles, List.filter_eq_nil_iff.2 hothers, List.append_nil]

def mountsOn (s : DeployableService) (claims : List (String × Claim)) (directory : Path) :
    List VolumeMount := (mountsOf s claims).filter (·.name == directory.volumeName)

theorem mountedFiles_eq :
    Json.mountedFiles (ofService app s container usePullSecret claims now).toJson
        (Secret.ofFiles app s.config).toJson =
      s.files.byParent.flatMap fun g => (mountsOn s claims g.1).flatMap fun m => g.2.map fun p =>
        ((Path.ofString m.path).join (Path.ofString p.name), s.files.content p.secretKey) := by
  have hmounts : (ofService app s container usePullSecret claims now).toJson.podMounts =
      (mountsOf s claims).map (·.toJson) := podMounts_toJson _
  unfold Json.mountedFiles
  rw [filter_podVolumes, hmounts, Files.volumes, List.map_map, List.flatMap_map]
  refine congrArg (List.flatMap · s.files.byParent) (funext fun g => ?_)
  show List.flatMap _ (List.filter _ ((mountsOf s claims).map (·.toJson))) = _
  rw [List.filter_map, List.flatMap_map]
  refine congrArg (List.flatMap · (mountsOn s claims g.1)) (funext fun m => ?_)
  show ((g.2.map VolumeItem.ofPath).map (·.toJson)).map _ = _
  rw [List.map_map, List.map_map]
  refine List.map_congr_left fun p _ => Prod.ext rfl ?_
  exact Secret.secretText?_toJson _ _

theorem mountsOn_eq (s : DeployableService) (claims : List (String × Claim)) (directory : Path) :
    mountsOn s claims directory =
      (s.files.byParent.filter (·.1.volumeName == directory.volumeName)).map
          (fun g => ⟨g.1.volumeName, g.1.toString⟩) ++
        ((claimsOf s claims).filter (·.2.volumeName == directory.volumeName)).map
          (fun e => e.2.mount e.1) := by
  rw [mountsOn, mountsOf, List.filter_append, Files.mounts, List.filter_map, List.filter_map]
  rfl

theorem self_mem_mountsOn {g : Path × List Path} (hg : g ∈ s.files.byParent) :
    ⟨g.1.volumeName, g.1.toString⟩ ∈ mountsOn s claims g.1 := by
  rw [mountsOn_eq]
  have hself : g ∈ s.files.byParent.filter (·.1.volumeName == g.1.volumeName) :=
    List.mem_filter.2 ⟨hg, beq_self_eq_true _⟩
  exact List.mem_append_left _ (List.mem_map_of_mem hself)

theorem mem_mountedFiles {e : Path × String} (he : e ∈ s.files) :
    (e.1, s.files.content e.1.secretKey) ∈
      Json.mountedFiles (ofService app s container usePullSecret claims now).toJson
        (Secret.ofFiles app s.config).toJson := by
  obtain ⟨g, hg, hp, -⟩ := Files.exists_byParent he
  rw [mountedFiles_eq]
  refine List.mem_flatMap.2 ⟨g, hg, List.mem_flatMap.2 ⟨_, self_mem_mountsOn hg, ?_⟩⟩
  refine List.mem_map.2 ⟨e.1, hp, ?_⟩
  rw [Files.join_of_mem_byParent hg hp]

theorem content_of_mountedFiles_perm (hfiles : (s.files.map (·.1)).Nodup)
    (h : (Json.mountedFiles (ofService app s container usePullSecret claims now).toJson
      (Secret.ofFiles app s.config).toJson).Perm (s.files.map fun e => (e.1, some e.2)))
    {e : Path × String} (he : e ∈ s.files) : s.files.content e.1.secretKey = some e.2 := by
  obtain ⟨e', he', heq⟩ := List.mem_map.1 (h.mem_iff.1 (mem_mountedFiles he))
  obtain ⟨hpath, hcontent⟩ := Prod.mk.inj heq
  have hsame : e' = e := List.inj_on_of_nodup_map hfiles he' he hpath
  rw [← hcontent, hsame]

theorem eq_of_sum_map_eq {ι : Type} {f g : ι → Nat} {xs : List ι} (hle : ∀ x ∈ xs, f x ≤ g x)
    (hsum : (xs.map g).sum = (xs.map f).sum) : ∀ x ∈ xs, g x = f x := by
  induction xs with
  | nil => exact fun x hx => absurd hx List.not_mem_nil
  | cons x xs ih =>
    have hfirst := hle x (List.mem_cons_self ..)
    have hlater := fun y hy => hle y (List.mem_cons_of_mem x hy)
    have hrest := List.sum_le_sum hlater
    rw [List.map_cons, List.map_cons, List.sum_cons, List.sum_cons] at hsum
    exact List.forall_mem_cons.2 ⟨by omega, ih hlater (by omega)⟩

theorem length_mountsOn_eq_one
    (h : (Json.mountedFiles (ofService app s container usePullSecret claims now).toJson
      (Secret.ofFiles app s.config).toJson).Perm (s.files.map fun e => (e.1, some e.2)))
    {g : Path × List Path} (hg : g ∈ s.files.byParent) : (mountsOn s claims g.1).length = 1 := by
  have hfound : (s.files.byParent.map fun g => (mountsOn s claims g.1).length * g.2.length).sum =
      s.files.length := by
    have hlength := h.length_eq
    rw [mountedFiles_eq, List.length_flatMap, List.length_map] at hlength
    rw [← hlength]
    refine congrArg List.sum (List.map_congr_left fun g _ => ?_)
    rw [List.length_flatMap]
    simp
  have hall : (s.files.byParent.map fun g => g.2.length).sum = s.files.length := by
    rw [← List.length_flatMap, s.files.flatMap_byParent_perm.length_eq, List.length_map]
  have honce : ∀ g ∈ s.files.byParent, 1 ≤ (mountsOn s claims g.1).length :=
    fun g hg => List.length_pos_of_mem (self_mem_mountsOn hg)
  have hle : ∀ g ∈ s.files.byParent, g.2.length ≤ (mountsOn s claims g.1).length * g.2.length :=
    fun g hg => Nat.le_mul_of_pos_left _ (honce g hg)
  have heach := eq_of_sum_map_eq hle (hfound.trans hall.symm) g hg
  have hpos := List.length_pos_iff.2 (Files.ne_nil_of_mem_byParent hg)
  exact Nat.eq_of_mul_eq_mul_right hpos (heach.trans (Nat.one_mul _).symm)

theorem unambiguous_of_perm (hfiles : (s.files.map (·.1)).Nodup)
    (h : (Json.mountedFiles (ofService app s container usePullSecret claims now).toJson
      (Secret.ofFiles app s.config).toJson).Perm (s.files.map fun e => (e.1, some e.2))) :
    s.Unambiguous claims := by
  constructor
  · intro e he e' he' hkey
    have hcontent := content_of_mountedFiles_perm hfiles h he
    rw [hkey, content_of_mountedFiles_perm hfiles h he'] at hcontent
    exact (Option.some.inj hcontent).symm
  · intro e he e' he' hname
    obtain ⟨g, hg, -, hparent⟩ := Files.exists_byParent he
    obtain ⟨g', hg', -, hparent'⟩ := Files.exists_byParent he'
    have hone := length_mountsOn_eq_one h hg
    -- both directories are mounted under the name of the first one
    have hmem {d : Path × List Path} (hd : d ∈ s.files.byParent)
        (hvolume : d.1.volumeName = g.1.volumeName) :
        d ∈ s.files.byParent.filter (·.1.volumeName == g.1.volumeName) :=
      List.mem_filter.2 ⟨hd, beq_iff_eq.2 hvolume⟩
    rw [mountsOn_eq, List.length_append, List.length_map] at hone
    have hpos := List.length_pos_of_mem (hmem hg rfl)
    obtain ⟨d, hd⟩ := List.length_eq_one_iff.1 (show (s.files.byParent.filter
      (·.1.volumeName == g.1.volumeName)).length = 1 by omega)
    have hfirst := hmem hg rfl
    have hsecond := hmem hg' (by rw [← hparent, ← hparent', hname])
    rw [hd, List.mem_singleton] at hfirst hsecond
    rw [hparent, hparent', hfirst, hsecond]
  · intro e he c hc hname
    obtain ⟨g, hg, -, hparent⟩ := Files.exists_byParent he
    have hone := length_mountsOn_eq_one h hg
    rw [mountsOn_eq, List.length_append, List.length_map, List.length_map] at hone
    have hself : g ∈ s.files.byParent.filter (·.1.volumeName == g.1.volumeName) :=
      List.mem_filter.2 ⟨hg, beq_self_eq_true _⟩
    have hclaim : c ∈ (claimsOf s claims).filter (·.2.volumeName == g.1.volumeName) :=
      List.mem_filter.2 ⟨hc, beq_iff_eq.2 (by rw [hname, hparent])⟩
    have hpos := List.length_pos_of_mem hself
    have hpos' := List.length_pos_of_mem hclaim
    omega

theorem content_of_unambiguous (h : s.Unambiguous claims) {e : Path × String} (he : e ∈ s.files) :
    s.files.content e.1.secretKey = some e.2 := by
  obtain ⟨value, hvalue⟩ := Option.isSome_iff_exists.1 (Secret.isSome_lookup_fileData he)
  obtain ⟨e', he', hkey, htext⟩ := Secret.exists_content_of_lookup hvalue
  rw [Files.content, hvalue, Option.bind_some, htext, h.contents e' he' e he hkey]

theorem mountsOn_of_unambiguous (h : s.Unambiguous claims) {g : Path × List Path}
    (hg : g ∈ s.files.byParent) :
    mountsOn s claims g.1 = [⟨g.1.volumeName, g.1.toString⟩] := by
  have hown : s.files.byParent.filter (·.1.volumeName == g.1.volumeName) = [g] :=
    Assoc.filter_eq_singleton (f := fun d => d.1.volumeName)
      (s.files.nodup_volumeNames_iff.2 h.directories) hg
  have hothers : (claimsOf s claims).filter (·.2.volumeName == g.1.volumeName) = [] := by
    obtain ⟨e, he, hparent⟩ := Files.mem_keys_byParent.1 (List.mem_map_of_mem hg)
    rw [List.filter_eq_nil_iff]
    intro c hc hname
    rw [← hparent] at hname
    exact h.claims e he c hc (beq_iff_eq.1 hname)
  rw [mountsOn_eq, hown, hothers]
  rfl

theorem perm_of_unambiguous (h : s.Unambiguous claims) :
    (Json.mountedFiles (ofService app s container usePullSecret claims now).toJson
      (Secret.ofFiles app s.config).toJson).Perm (s.files.map fun e => (e.1, some e.2)) := by
  have hpaths : Json.mountedFiles (ofService app s container usePullSecret claims now).toJson
      (Secret.ofFiles app s.config).toJson =
      (s.files.byParent.flatMap (·.2)).map fun p => (p, s.files.content p.secretKey) := by
    rw [mountedFiles_eq, List.map_flatMap]
    refine List.flatMap_congr fun g hg => ?_
    rw [mountsOn_of_unambiguous h hg, List.flatMap_singleton]
    refine List.map_congr_left fun p hp => ?_
    rw [Files.join_of_mem_byParent hg hp]
  have hcontents : s.files.map (fun e => (e.1, some e.2)) =
      (s.files.map (·.1)).map fun p => (p, s.files.content p.secretKey) := by
    rw [List.map_map]
    exact List.map_congr_left fun e he => Prod.ext rfl (content_of_unambiguous h he).symm
  rw [hpaths, hcontents]
  exact s.files.flatMap_byParent_perm.map _

/-- Pods find the configured files, each once and with its own content, exactly where the names are
unambiguous. -/
theorem mountedFiles_perm_iff (hfiles : (s.files.map (·.1)).Nodup) :
    (Json.mountedFiles (ofService app s container usePullSecret claims now).toJson
      (Secret.ofFiles app s.config).toJson).Perm (s.files.map fun e => (e.1, some e.2)) ↔
      s.Unambiguous claims :=
  ⟨unambiguous_of_perm hfiles, perm_of_unambiguous⟩

end

def servedFrom (files : Files) : DeployableService where
  config :=
    { serviceName := "web"
      image := "nginx"
      env := none
      files := some files
      port := 80
      containerType := .standalone }
  strategy := .never
  route := .empty
  declaredVolumes := []

def midnight : Timestamp := ⟨⟨2024, 1, 1, by decide⟩, ⟨0, 0, 0, 0, by decide⟩, some .utc⟩

def twoNames : Files :=
  [(Path.ofString "/etc/app.conf", "one"), (Path.ofString "/etc/db.conf", "two")]

theorem unambiguous_twoNames : (servedFrom twoNames).Unambiguous [] := by
  constructor
  · show ∀ e ∈ twoNames, ∀ e' ∈ twoNames, e.1.secretKey = e'.1.secretKey → e.2 = e'.2
    decide +kernel
  · show ∀ e ∈ twoNames, ∀ e' ∈ twoNames,
      e.1.parent.volumeName = e'.1.parent.volumeName → e.1.parent = e'.1.parent
    decide +kernel
  · exact fun e _ c hc => absurd hc List.not_mem_nil

theorem mountedFiles_twoNames_perm :
    ((servedFrom twoNames).files.map (·.1)).Nodup ∧
    (Json.mountedFiles
      (ofService .master (servedFrom twoNames) ⟨none⟩ false [] midnight).toJson
      (Secret.ofFiles .master (servedFrom twoNames).config).toJson).Perm
        ((servedFrom twoNames).files.map fun e => (e.1, some e.2)) := by
  have hfiles : ((servedFrom twoNames).files.map (·.1)).Nodup := by
    show (twoNames.map (·.1)).Nodup
    decide +kernel
  exact ⟨hfiles, (mountedFiles_perm_iff hfiles).2 unambiguous_twoNames⟩

def twoDirectories : Files :=
  [(Path.ofString "/etc/a/app.conf", "one"), (Path.ofString "/etc/b/app.conf", "two")]

theorem mountedFiles_twoDirectories_not_perm :
    ((servedFrom twoDirectories).files.map (·.1)).Nodup ∧
    ¬(Json.mountedFiles
      (ofService .master (servedFrom twoDirectories) ⟨none⟩ false [] midnight).toJson
      (Secret.ofFiles .master (servedFrom twoDirectories).config).toJson).Perm
        ((servedFrom twoDirectories).files.map fun e => (e.1, some e.2)) := by
  have hfiles : ((servedFrom twoDirectories).files.map (·.1)).Nodup := by
    show (twoDirectories.map (·.1)).Nodup
    decide +kernel
  refine ⟨hfiles, fun hperm => ?_⟩
  have hsame := (unambiguous_of_perm hfiles hperm).contents
    (Path.ofString "/etc/a/app.conf", "one") (List.mem_cons_self ..)
    (Path.ofString "/etc/b/app.conf", "two") (List.mem_cons_of_mem _ (List.mem_singleton_self _))
    (by decide +kernel)
  exact absurd hsame (by decide)

end Deployment

end PreviewApps
