import PreviewApps.Proofs.Manifest.References
import PreviewApps.Proofs.Path
import PreviewApps.Proofs.Text.Order

/-!
The volumes of files partition them by directory. Every directory with files has one volume and one
mount, and under its mount a volume shows the files of the directory at their own paths.
-/

namespace PreviewApps

namespace Volume

def items (v : Volume) : List VolumeItem :=
  match v.source with
  | .secret _ items => items
  | .claim _ => []

def pathsUnder (v : Volume) (m : VolumeMount) : List Path :=
  v.items.map fun i => (Path.ofString m.path).join (Path.ofString i.path)

/-- The volume shows files of the mounted directory from the secret, in the order of their paths. -/
structure ShowsDirectory (secretName : String) (v : Volume) (m : VolumeMount) : Prop where
  secret : v.source = .secret secretName ((v.pathsUnder m).map .ofPath)
  own : ∀ p ∈ v.pathsUnder m, p.parent.toString = m.path
  sorted : (v.pathsUnder m).Pairwise fun p q => p.toString ≤ q.toString

end Volume

namespace Files

section Groups

variable (files : Files)

theorem byParent_perm : files.byParent.Perm (Assoc.groupBy Path.parent (files.sorted.map (·.1))) :=
  Text.sortBy_perm ..

theorem nodup_byParent : (files.byParent.map (·.1)).Nodup :=
  ((files.byParent_perm.map _).nodup_iff).2 (Assoc.nodup_keys_groupBy ..)

theorem flatMap_byParent_perm : (files.byParent.flatMap (·.2)).Perm (files.map (·.1)) := by
  have hgroups := (files.byParent_perm.flatMap_right (·.2)).trans (Assoc.groupBy_perm ..)
  exact hgroups.trans ((Text.sortBy_perm ..).map _)

variable {files}

theorem parent_of_mem_byParent {g : Path × List Path} (hg : g ∈ files.byParent) {p : Path}
    (hp : p ∈ g.2) : p.parent = g.1 := by
  rw [Assoc.eq_filter_of_mem_groupBy (files.byParent_perm.mem_iff.1 hg)] at hp
  exact eq_of_beq (List.mem_filter.1 hp).2

theorem join_of_mem_byParent {g : Path × List Path} (hg : g ∈ files.byParent) {p : Path}
    (hp : p ∈ g.2) : (Path.ofString g.1.toString).join (Path.ofString p.name) = p := by
  rw [Path.ofString_toString, ← parent_of_mem_byParent hg hp, Path.join_parent_name]

theorem ne_nil_of_mem_byParent {g : Path × List Path} (hg : g ∈ files.byParent) : g.2 ≠ [] :=
  Assoc.ne_nil_of_mem_groupBy (files.byParent_perm.mem_iff.1 hg)

theorem exists_byParent {e : Path × String} (he : e ∈ files) :
    ∃ g ∈ files.byParent, e.1 ∈ g.2 ∧ e.1.parent = g.1 := by
  have hpath : e.1 ∈ files.byParent.flatMap (·.2) :=
    files.flatMap_byParent_perm.mem_iff.2 (List.mem_map_of_mem he)
  obtain ⟨g, hg, hp⟩ := List.mem_flatMap.1 hpath
  exact ⟨g, hg, hp, parent_of_mem_byParent hg hp⟩

theorem mem_keys_byParent {directory : Path} :
    directory ∈ files.byParent.map (·.1) ↔ ∃ e ∈ files, e.1.parent = directory := by
  constructor
  · intro h
    obtain ⟨g, hg, rfl⟩ := List.mem_map.1 h
    obtain ⟨p, hp⟩ := List.exists_mem_of_ne_nil g.2 (ne_nil_of_mem_byParent hg)
    obtain ⟨content, he⟩ := mem_of_mem_byParent hg hp
    exact ⟨(p, content), he, parent_of_mem_byParent hg hp⟩
  · rintro ⟨e, he, rfl⟩
    obtain ⟨g, hg, -, hparent⟩ := exists_byParent he
    rw [hparent]
    exact List.mem_map_of_mem hg

end Groups

variable (secretName : String) (files : Files)

def directoryVolume (g : Path × List Path) : Volume :=
  ⟨g.1.volumeName, .secret secretName (g.2.map .ofPath)⟩

def directoryMount (g : Path × List Path) : VolumeMount := ⟨g.1.volumeName, g.1.toString⟩

theorem volumes_eq : files.volumes secretName = files.byParent.map (directoryVolume secretName) :=
  rfl

theorem mounts_eq : files.mounts = files.byParent.map directoryMount := rfl

theorem names_volumes : (files.volumes secretName).map (·.name) = files.mounts.map (·.name) := by
  rw [volumes_eq, mounts_eq, List.map_map, List.map_map]
  rfl

theorem filter_volumes_eq_nil_iff {name : String} :
    (files.volumes secretName).filter (·.name == name) = [] ↔
      ∀ e ∈ files, e.1.parent.volumeName ≠ name := by
  rw [List.filter_eq_nil_iff, volumes_eq, List.forall_mem_map]
  constructor
  · intro h e he hname
    obtain ⟨g, hg, -, hparent⟩ := exists_byParent he
    rw [hparent] at hname
    exact h g hg (beq_iff_eq.2 hname)
  · intro h g hg hname
    obtain ⟨e, he, hparent⟩ := mem_keys_byParent.1 (List.mem_map_of_mem hg)
    apply h e he
    rw [hparent]
    exact beq_iff_eq.1 hname

theorem zip_volumes_mounts : (files.volumes secretName).zip files.mounts =
    files.byParent.map fun g => (directoryVolume secretName g, directoryMount g) := by
  rw [volumes_eq, mounts_eq, List.zip_map']

theorem pairwise_byParent : files.byParent.Pairwise fun g h => g.1.toString < h.1.toString := by
  -- distinct directories have distinct texts, so the order of their texts is strict
  have hkeys := Assoc.nodup_keys_groupBy Path.parent (files.sorted.map (·.1))
  apply Text.pairwise_sortBy_of_nodup
  have htexts := hkeys.map Path.toString_injective
  rwa [List.map_map] at htexts

def Apart (files : Files) : Prop := ∀ e ∈ files, ∀ e' ∈ files,
  e.1.parent.volumeName = e'.1.parent.volumeName → e.1.parent = e'.1.parent

theorem nodup_volumeNames_iff : (files.byParent.map (·.1.volumeName)).Nodup ↔ files.Apart := by
  have hnames : files.byParent.map (·.1.volumeName) =
      (files.byParent.map (·.1)).map Path.volumeName := by
    rw [List.map_map]
    rfl
  rw [hnames, List.nodup_map_iff_inj_on files.nodup_byParent]
  simp only [mem_keys_byParent]
  constructor
  · intro h e he e' he'
    exact h _ ⟨e, he, rfl⟩ _ ⟨e', he', rfl⟩
  · rintro h _ ⟨e, he, rfl⟩ _ ⟨e', he', rfl⟩
    exact h e he e' he'

section Directories

variable {files} {g : Path × List Path} (hg : g ∈ files.byParent)

include hg

theorem pathsUnder_directoryMount :
    (directoryVolume secretName g).pathsUnder (directoryMount g) = g.2 := by
  have hitems : (directoryVolume secretName g).items = g.2.map .ofPath := rfl
  have hfound : ∀ p ∈ g.2,
      (Path.ofString (directoryMount g).path).join (Path.ofString (VolumeItem.ofPath p).path) =
        p := fun p hp => join_of_mem_byParent hg hp
  rw [Volume.pathsUnder, hitems, List.map_map]
  exact (List.map_congr_left hfound).trans (List.map_id _)

theorem pairwise_of_mem_byParent : g.2.Pairwise fun p q => p.toString ≤ q.toString := by
  have hfiles : (files.sorted.map (·.1)).Pairwise fun p q => p.toString ≤ q.toString :=
    List.pairwise_map.2 (Text.pairwise_sortBy (·.1.toString) files)
  rw [Assoc.eq_filter_of_mem_groupBy (files.byParent_perm.mem_iff.1 hg)]
  exact hfiles.filter _

theorem showsDirectory :
    (directoryVolume secretName g).ShowsDirectory secretName (directoryMount g) := by
  have hpaths := pathsUnder_directoryMount secretName hg
  constructor
  · rw [hpaths]
    rfl
  · rw [hpaths]
    intro p hp
    rw [parent_of_mem_byParent hg hp]
    rfl
  · rw [hpaths]
    exact pairwise_of_mem_byParent hg

end Directories

/-- Every file is shown once and at its own path, by the volume under the mount of its directory;
the mounts are those of the directories with files, in the order of their texts. -/
theorem volumes_partition :
    (files.volumes secretName).map (·.name) = files.mounts.map (·.name) ∧
    (files.mounts.map (·.path)).Pairwise (· < ·) ∧
    (∀ text, text ∈ files.mounts.map (·.path) ↔ ∃ e ∈ files, e.1.parent.toString = text) ∧
    (∀ x ∈ (files.volumes secretName).zip files.mounts, x.1.ShowsDirectory secretName x.2) ∧
    (((files.volumes secretName).zip files.mounts).flatMap fun x => x.1.pathsUnder x.2).Perm
      (files.map (·.1)) := by
  refine ⟨files.names_volumes secretName, ?_, ?_, ?_, ?_⟩
  · rw [mounts_eq, List.map_map]
    exact List.pairwise_map.2 files.pairwise_byParent
  · intro text
    have htexts : files.mounts.map (·.path) = (files.byParent.map (·.1)).map Path.toString := by
      rw [mounts_eq, List.map_map, List.map_map]
      rfl
    rw [htexts, List.mem_map]
    simp only [mem_keys_byParent]
    constructor
    · rintro ⟨directory, ⟨e, he, rfl⟩, rfl⟩
      exact ⟨e, he, rfl⟩
    · rintro ⟨e, he, rfl⟩
      exact ⟨e.1.parent, ⟨e, he, rfl⟩, rfl⟩
  · rw [zip_volumes_mounts]
    intro x hx
    obtain ⟨g, hg, rfl⟩ := List.mem_map.1 hx
    exact showsDirectory secretName hg
  · have hpaths : (((files.volumes secretName).zip files.mounts).flatMap fun x =>
        x.1.pathsUnder x.2) = files.byParent.flatMap (·.2) := by
      rw [zip_volumes_mounts, List.flatMap_map]
      exact List.flatMap_congr fun g hg => pathsUnder_directoryMount secretName hg
    rw [hpaths]
    exact files.flatMap_byParent_perm

/-- The empty path is its own directory, in which it has the empty name. -/
example : (ofSpellings [("", "x")]).mounts = [⟨"", "."⟩] ∧
    ((ofSpellings [("", "x")]).volumes "web-secret").map (·.items) = [[⟨"", ""⟩]] := by
  decide +kernel

end Files

end PreviewApps
