import PreviewApps.Proofs.Agreement
import PreviewApps.Proofs.Cluster.ClaimLabels
import PreviewApps.Proofs.Cluster.ClaimServer
import PreviewApps.Proofs.Cluster.Relative
import PreviewApps.Proofs.Manifest.ClaimVolumes

/-!
The claims that a deployment gets for its paths, and what of them its pods see. Every path gets a
claim of its storage type and paths of one type share theirs, so that a path is backed by its own
claim unless a directory with files has the name of the claim's volume.
-/

namespace PreviewApps.Cluster

open Program

structure Assignment (paths : List String) (found : List (String × Json)) : Prop where
  paths : found.map (·.1) = paths
  labelled : ∀ e ∈ found, hasLabel Label.storageType (ClaimManifest.storageTypeOf e.1) e.2
  shared : ∀ e ∈ found, ∀ e' ∈ found,
    ClaimManifest.storageTypeOf e.1 = ClaimManifest.storageTypeOf e'.1 → e.2 = e'.2

def claimOf (e : String × Json) : String × Claim :=
  (e.1, ⟨ClaimManifest.storageTypeOf e.1, claimName e.2⟩)

theorem lookup_map_claimOf (found : List (String × Json)) (path : String) :
    (found.map claimOf).lookup path =
      (found.lookup path).map fun claim => (claimOf (path, claim)).2 := by
  induction found with
  | nil => rfl
  | cons e found ih =>
    rw [List.map_cons, List.lookup_cons, List.lookup_cons, ih]
    by_cases hpath : path = e.1
    · subst hpath
      simp [claimOf]
    · simp [claimOf, beq_false_of_ne hpath]

namespace Assignment

variable {paths : List String} {found : List (String × Json)} (h : Assignment paths found)

include h

theorem readClaims_eq : readClaims found = .ok (found.map claimOf) := by
  apply mapM_eq_ok
  rintro ⟨path, claim⟩ he
  have hown := ofJson?_of_hasLabel (h.labelled _ he)
  dsimp only at hown ⊢
  rw [hown]
  rfl

theorem exists_lookup {path : String} (hpath : path ∈ paths) :
    ∃ claim, found.lookup path = some claim := by
  rw [← h.paths] at hpath
  obtain ⟨e, he, rfl⟩ := List.mem_map.1 hpath
  cases hlookup : found.lookup e.1 with
  | none => exact absurd (List.lookup_eq_none_iff.1 hlookup e he) (by simp)
  | some claim => exact ⟨claim, rfl⟩

theorem backedBy_iff {d : DeployableService} (hpaths : ∀ p ∈ paths, p ∈ d.declaredVolumes)
    {path : String} {claim : Json} (hclaim : found.lookup path = some claim) (app : AppName)
    (container : ContainerConfig) (usePullSecret : Bool) (now : Timestamp) :
    (Deployment.ofService app d container usePullSecret (found.map claimOf) now).toJson.BackedBy
        path (claimName claim) ↔
      ∀ e ∈ d.files, e.1.parent.volumeName ≠ ClaimManifest.storageTypeOf path ++ "-volume" := by
  -- a claim with the same volume name has the same storage type, so it is the same claim
  have hmem := Assoc.mem_of_lookup hclaim
  have hpath : path ∈ d.declaredVolumes := by
    apply hpaths
    rw [← h.paths]
    exact List.mem_map_of_mem hmem
  have hlookup : (found.map claimOf).lookup path = some (claimOf (path, claim)).2 := by
    rw [lookup_map_claimOf, hclaim]
    rfl
  apply Deployment.backedBy_ofService_iff hpath hlookup
  intro e he hname
  obtain ⟨path', -, hentry⟩ := List.mem_filterMap.1 he
  rw [lookup_map_claimOf] at hentry
  obtain ⟨c, hc, rfl⟩ := Option.map_eq_some_iff.1 hentry
  obtain ⟨claim', hclaim', rfl⟩ := Option.map_eq_some_iff.1 hc
  have htype : ClaimManifest.storageTypeOf path' = ClaimManifest.storageTypeOf path :=
    (String.append_left_inj _).1 hname
  have hsame := h.shared _ (Assoc.mem_of_lookup hclaim') _ hmem htype
  exact congrArg claimName hsame

end Assignment

def KeepsStorageType (c : Call) (a : Answer) : Prop :=
  ∀ ns body claim type, c = .create .claims ns body → a = .ok claim →
    hasLabel Label.storageType type body → hasLabel Label.storageType type claim

def keepingStorageTypes : Interface Unit where
  admits _ := True
  steps _ c a _ := KeepsStorageType c a

def Filed (byType : List (String × Json)) : Prop :=
  ∀ type claim, byType.lookup type = some claim → hasLabel Label.storageType type claim

section Stages

variable {app : AppName} {service : String} {byType : List (String × Json)}

theorem Filed.insertNew (h : Filed byType) {type : String} {claim : Json}
    (hclaim : hasLabel Label.storageType type claim) :
    Filed (Assoc.insertNew type claim byType) := by
  intro type' claim' hlookup
  rw [lookup_insertNew] at hlookup
  rcases Option.or_eq_some_iff.1 hlookup with hold | ⟨-, hnew⟩
  · exact h type' claim' hold
  · split at hnew
    · next htype =>
      cases hnew
      exact htype ▸ hclaim
    · cases hnew

theorem filed_claimsByType {listed : List Json} (h : claimsByType listed = .ok byType) :
    Filed byType := by
  intro type claim hlookup
  rw [lookup_claimsByType h] at hlookup
  exact List.find?_some hlookup

theorem yields_claimFor_filed (storage : StorageConfig) (path : String) (h : Filed byType) :
    (claimFor app service storage path byType).Yields keepingStorageTypes () fun claim _ =>
      hasLabel Label.storageType (ClaimManifest.storageTypeOf path) claim ∧
      (byType.lookup (ClaimManifest.storageTypeOf path)).getD claim = claim := by
  unfold claimFor
  cases hfound : byType.lookup (ClaimManifest.storageTypeOf path) with
  | some claim => exact ⟨h _ claim hfound, rfl⟩
  | none =>
    apply Yields.bind
    apply yields_must trivial
    intro claim _ hkept
    apply yields_ofExcept
    intro claim' hclaim'
    rw [eq_of_checkCreated hclaim']
    have hbody : hasLabel Label.storageType (ClaimManifest.storageTypeOf path)
        (ClaimManifest.ofVolume app service storage.size storage.className path).toJson := by
      rw [hasLabel_storageType rfl]
      exact beq_self_eq_true _
    exact ⟨hkept _ _ claim _ rfl rfl hbody, rfl⟩

theorem yields_assignClaims_filed (storage : StorageConfig) (paths : List String)
    (h : Filed byType) :
    (assignClaims app service storage paths byType).Yields keepingStorageTypes () fun found _ =>
      found.map (·.1) = paths ∧ ∃ all, Filed all ∧
        (∀ type claim, byType.lookup type = some claim → all.lookup type = some claim) ∧
        ∀ e ∈ found, all.lookup (ClaimManifest.storageTypeOf e.1) = some e.2 := by
  induction paths generalizing byType with
  | nil => exact ⟨rfl, byType, h, fun _ _ hold => hold, fun e he => absurd he List.not_mem_nil⟩
  | cons path paths ih =>
    rw [assignClaims_cons]
    apply Yields.bind
    apply (yields_claimFor_filed storage path h).mono
    rintro claim _ ⟨hclaim, hfirst⟩
    -- later paths of the type find the claim where this one is filed
    have hlater := ih (h.insertNew hclaim)
    apply Yields.bind
    apply hlater.mono
    rintro rest _ ⟨hpaths, all, hall, hgrown, hrest⟩
    refine ⟨by rw [List.map_cons, hpaths], all, hall, ?_, ?_⟩
    · intro type old hold
      apply hgrown
      rw [lookup_insertNew, hold]
      rfl
    · refine List.forall_mem_cons.2 ⟨?_, hrest⟩
      apply hgrown
      rw [lookup_insertNew, if_pos rfl]
      cases hold : byType.lookup (ClaimManifest.storageTypeOf path) with
      | none => rfl
      | some old =>
        rw [hold] at hfirst
        exact congrArg some hfirst

theorem yields_claimsFor_assignment (settings : Settings) (d : DeployableService) :
    (claimsFor settings app d).Yields keepingStorageTypes () fun found _ =>
      Assignment (claimedPaths settings d) found := by
  have hempty : ∀ paths, paths = [] → Assignment paths [] := by
    rintro _ rfl
    exact ⟨rfl, fun e he => absurd he List.not_mem_nil, fun e he => absurd he List.not_mem_nil⟩
  unfold claimsFor
  cases hstorage : settings.runtime.storage with
  | none => exact hempty _ (by simp [claimedPaths, hstorage])
  | some storage =>
    have hpaths : claimedPaths settings d = d.declaredVolumes := by simp [claimedPaths, hstorage]
    rw [hpaths]
    dsimp only
    split
    · next hnone => exact hempty _ (List.isEmpty_iff.1 hnone)
    · apply Yields.bind
      apply yields_must trivial
      intro listed _ _
      apply Yields.bind
      apply yields_ofExcept
      intro byType hread
      apply (yields_assignClaims_filed storage _ (filed_claimsByType hread)).mono
      rintro found _ ⟨hfound, all, hall, -, hown⟩
      refine ⟨hfound, fun e he => hall _ _ (hown e he), ?_⟩
      intro e he e' he' htype
      have hsame := hown e he
      rw [htype, hown e' he'] at hsame
      exact (Option.some.inj hsame).symm

end Stages

section Runs

variable {σ : Type} {answer : Call → σ → Answer × σ} {settings : Settings} {app : AppName}
  {d : DeployableService} {s s' : σ} {found : List (String × Json)}

theorem assignment_of_run (hkept : ∀ c s, KeepsStorageType c (answer c s).1)
    (hrun : (claimsFor settings app d).run answer s = (.ok found, s')) :
    Assignment (claimedPaths settings d) found := by
  have hstep : ∀ {s c}, True → keepingStorageTypes.admits c →
      keepingStorageTypes.steps () c (answer c s).1 () ∧ True :=
    fun _ _ => ⟨hkept _ _, trivial⟩
  exact (run_of_yields hstep trivial (yields_claimsFor_assignment settings d) hrun).1

/-- The paths of a service get claims of their storage types, one for a type, and pods have a path
backed by its claim exactly where no directory with files has the name of the claim's volume. -/
theorem claimsFor_backed_iff (hkept : ∀ c s, KeepsStorageType c (answer c s).1)
    (hrun : (claimsFor settings app d).run answer s = (.ok found, s')) :
    Assignment (claimedPaths settings d) found ∧ ∃ claims, readClaims found = .ok claims ∧
      ∀ container usePullSecret now path claim, found.lookup path = some claim →
        ((Deployment.ofService app d container usePullSecret claims now).toJson.BackedBy path
            (claimName claim) ↔
          ∀ e ∈ d.files,
            e.1.parent.volumeName ≠ ClaimManifest.storageTypeOf path ++ "-volume") := by
  have hfound := assignment_of_run hkept hrun
  have hpaths : ∀ p ∈ claimedPaths settings d, p ∈ d.declaredVolumes := by
    intro p hp
    unfold claimedPaths at hp
    split at hp
    · exact hp
    · exact absurd hp List.not_mem_nil
  refine ⟨hfound, _, hfound.readClaims_eq, ?_⟩
  intro container usePullSecret now path claim hclaim
  exact hfound.backedBy_iff hpaths hclaim app container usePullSecret now

end Runs

theorem keepsStorageType_answer (c : Call) (s : Server) :
    KeepsStorageType c (Server.answer c s).1 := by
  rintro ns body claim type rfl hclaim hbody
  rw [hasLabel, Server.labels_of_create hclaim]
  exact hbody

def storing (file : String) : DeployableService :=
  { Deployment.servedFrom [(.ofString file, "text")] with
    declaredVolumes := ["/data", "/backup/data/", "/"] }

theorem exists_run_storing (file : String) : ∃ found s',
    (claimsFor webSettings .master (storing file)).run Server.answer .empty = (.ok found, s') := by
  have hsame : claimsFor webSettings .master (storing file) =
      claimsFor webSettings .master (storing "") := rfl
  have hok : ((claimsFor webSettings .master (storing "")).run Server.answer
      .empty).1.toBool = true := by decide +kernel
  rw [hsame]
  generalize (claimsFor webSettings .master (storing "")).run Server.answer .empty = outcome at hok
  obtain ⟨r, s'⟩ := outcome
  cases r with
  | error e => cases hok
  | ok found => exact ⟨found, s', rfl⟩

theorem claimsFor_backed_storing : ∃ found s',
    (claimsFor webSettings .master (storing "/etc/app.conf")).run Server.answer .empty =
      (.ok found, s') ∧
    found.map (·.1) = ["/data", "/backup/data/", "/"] ∧
    ∃ claims, readClaims found = .ok claims ∧ ∀ path claim, found.lookup path = some claim →
      (Deployment.ofService .master (storing "/etc/app.conf") ⟨none⟩ false claims
        noon).toJson.BackedBy path (claimName claim) := by
  obtain ⟨found, s', hrun⟩ := exists_run_storing "/etc/app.conf"
  obtain ⟨hfound, claims, hread, hbacked⟩ :=
    claimsFor_backed_iff (fun c s => keepsStorageType_answer c s) hrun
  refine ⟨found, s', hrun, hfound.paths, claims, hread, ?_⟩
  have hfree : ∀ path ∈ (storing "/etc/app.conf").declaredVolumes,
      (Path.ofString "/etc/app.conf").parent.volumeName ≠
        ClaimManifest.storageTypeOf path ++ "-volume" := by decide +kernel
  intro path claim hclaim
  have hpath : path ∈ found.map (·.1) := List.mem_map_of_mem (Assoc.mem_of_lookup hclaim)
  rw [hfound.paths] at hpath
  apply (hbacked ⟨none⟩ false noon path claim hclaim).2
  intro e he
  obtain rfl : e = (.ofString "/etc/app.conf", "text") := List.mem_singleton.1 he
  exact hfree path hpath

/-- The directory of a file has the name of the volume of the claim for two of the paths. -/
theorem unbacked_of_dataVolume : ∃ found s' claims claim,
    (claimsFor webSettings .master (storing "/data-volume/a")).run Server.answer .empty =
      (.ok found, s') ∧
    readClaims found = .ok claims ∧ found.lookup "/data" = some claim ∧
    ¬(Deployment.ofService .master (storing "/data-volume/a") ⟨none⟩ false claims
      noon).toJson.BackedBy "/data" (claimName claim) := by
  obtain ⟨found, s', hrun⟩ := exists_run_storing "/data-volume/a"
  have hfound := assignment_of_run (fun c s => keepsStorageType_answer c s) hrun
  obtain ⟨claim, hclaim⟩ := hfound.exists_lookup (List.mem_cons_self ..)
  refine ⟨found, s', _, claim, hrun, hfound.readClaims_eq, hclaim, ?_⟩
  rw [hfound.backedBy_iff (fun p hp => hp) hclaim]
  intro hfree
  apply hfree (.ofString "/data-volume/a", "text") (List.mem_singleton_self _)
  decide +kernel

end PreviewApps.Cluster
