import PreviewApps.Cluster.Query
import PreviewApps.Proofs.AppName
import PreviewApps.Proofs.Assoc
import PreviewApps.Proofs.Cluster.ReadBack
import PreviewApps.Proofs.Cluster.Selectors
import PreviewApps.Proofs.Cluster.Writes
import PreviewApps.Proofs.Outline

/-!
Deployments as they are stored for services: written, scaled, selected by their labels and read
back.
-/

namespace PreviewApps

theorem Environment.map_readBack (env : Option Environment) :
    (env.map (·.readBack)).map (fun env => env.map fun v => (v.key, v.value)) =
      env.map fun env => env.map fun v => (v.key, v.value) := by
  cases env with
  | none => rfl
  | some env =>
    simp only [Option.map_some, readBack, List.map_map]
    rfl

namespace Cluster

/-- A deployment of a service that is configured so, whatever else has gone into it. -/
def IsOf (d : Deployment) (app : AppName) (config : ServiceConfig) : Prop :=
  ∃ (s : DeployableService) (container : ContainerConfig) (usePullSecret : Bool)
    (claims : List (String × Claim)) (now : Timestamp), s.config = config ∧
    d = Deployment.ofService app s container usePullSecret claims now

structure Keeps (d : Deployment) (metadata : List (String × Json)) : Prop where
  labels : metadata.lookup "labels" = some (.ofMap d.labels)
  annotations : metadata.lookup "annotations" = some (.ofMap d.annotations)
  started : ∃ t, startOf metadata = .ok t

def Shows (j : Json) (s : Service) : Prop :=
  ∃ d metadata, IsOf d s.app s.config ∧ Keeps d metadata ∧
    j = d.stored metadata (replicasFor s.status)

theorem serviceOf_of_shows {j : Json} {s : Service} (h : Shows j s) (hname : s.name ≠ "") :
    ∃ r, serviceOf j = .ok (some r) ∧ r.outline = s.outline := by
  obtain ⟨d, metadata, ⟨own, container, usePullSecret, claims, now, hconfig, rfl⟩, hkeeps, rfl⟩ := h
  obtain ⟨started, hstarted⟩ := hkeeps.started
  have hread := serviceOf_stored s.app own container usePullSecret claims now
    (replicasFor s.status) hkeeps.labels hkeeps.annotations hstarted
  have hown : own.name ≠ "" := by
    rw [DeployableService.name, hconfig]
    exact hname
  have hstatus : (if replicasFor s.status = 0 then ServiceStatus.paused else .running) =
      s.status := by
    cases s.status <;> rfl
  rw [if_neg hown] at hread
  refine ⟨_, hread, ?_⟩
  simp only [Service.outline, Service.name, hstatus, hconfig, Environment.map_readBack]

theorem serviceOf_of_shows_nameless {j : Json} {s : Service} (h : Shows j s) (hname : s.name = "") :
    serviceOf j = .ok none := by
  -- without a name a deployment is not a service
  obtain ⟨d, metadata, ⟨own, container, usePullSecret, claims, now, hconfig, rfl⟩, hkeeps, rfl⟩ := h
  obtain ⟨started, hstarted⟩ := hkeeps.started
  have hread := serviceOf_stored s.app own container usePullSecret claims now
    (replicasFor s.status) hkeeps.labels hkeeps.annotations hstarted
  have hown : own.name = "" := by
    rw [DeployableService.name, hconfig]
    exact hname
  rwa [if_pos hown] at hread

theorem Shows.exists_serviceOf {j : Json} {s : Service} (h : Shows j s) :
    ∃ r, serviceOf j = .ok r ∧ ∀ t ∈ r, t.outline = s.outline := by
  by_cases hname : s.name = ""
  · exact ⟨none, serviceOf_of_shows_nameless h hname, fun t ht => by cases ht⟩
  · obtain ⟨r, hr, houtline⟩ := serviceOf_of_shows h hname
    refine ⟨some r, hr, ?_⟩
    rintro t ⟨⟩
    exact houtline

theorem startOf_congr {a b : List (String × Json)}
    (h : a.lookup "creationTimestamp" = b.lookup "creationTimestamp") : startOf a = startOf b := by
  unfold startOf member
  rw [h]

theorem startOf_of_lookup_eq_none {metadata : List (String × Json)}
    (h : metadata.lookup "creationTimestamp" = none) : startOf metadata = .ok none := by
  unfold startOf member
  rw [h]
  rfl

theorem exists_startOf_foldl_insert {entries metadata : List (String × Json)}
    (h : ∀ e ∈ entries, ∃ t, startOf [e] = .ok t)
    (hnone : metadata.lookup "creationTimestamp" = none) :
    ∃ t, startOf (entries.foldl (fun m e => Assoc.insert e.1 e.2 m) metadata) = .ok t := by
  have hlookup := Assoc.lookup_foldl_insert "creationTimestamp" entries metadata
  rw [hnone, Option.or_none] at hlookup
  cases hlast : (entries.filter (·.1 == "creationTimestamp")).getLast? with
  | none =>
    rw [hlast] at hlookup
    exact ⟨none, startOf_of_lookup_eq_none hlookup⟩
  | some e =>
    obtain ⟨he, hkey⟩ := List.mem_filter.1 (List.mem_of_getLast? hlast)
    obtain ⟨t, ht⟩ := h e he
    refine ⟨t, ?_⟩
    rw [← ht]
    refine startOf_congr ?_
    rw [hlookup, hlast, ← eq_of_beq hkey, List.lookup_cons, BEq.rfl]
    rfl

theorem ne_of_notMem_writtenKeys {k : String} (h : k ∉ writtenKeys) :
    k ≠ "labels" ∧ k ≠ "annotations" := by
  constructor
  · rintro rfl
    exact h (by decide)
  · rintro rfl
    exact h (by decide)

theorem keeps_foldl_insert (d : Deployment) {entries : List (String × Json)}
    (hforeign : ∀ e ∈ entries, e.1 ≠ "labels" ∧ e.1 ≠ "annotations")
    (hread : ∀ e ∈ entries, ∃ t, startOf [e] = .ok t) :
    Keeps d (entries.foldl (fun m e => Assoc.insert e.1 e.2 m) d.metadata) where
  labels := (Assoc.lookup_foldl_insert_of_ne (fun e he => (hforeign e he).1) d.metadata).trans rfl
  annotations :=
    (Assoc.lookup_foldl_insert_of_ne (fun e he => (hforeign e he).2) d.metadata).trans rfl
  started := exists_startOf_foldl_insert hread rfl

theorem exists_startOf_of_lookup {metadata : List (String × Json)} {t : Option Timestamp}
    (h : startOf metadata = .ok t) {e : String × Json} (he : metadata.lookup e.1 = some e.2) :
    ∃ t, startOf [e] = .ok t := by
  by_cases hkey : e.1 = "creationTimestamp"
  · refine ⟨t, ?_⟩
    rw [← h]
    refine startOf_congr ?_
    rw [← hkey, he, List.lookup_cons, BEq.rfl]
  · refine ⟨none, startOf_of_lookup_eq_none ?_⟩
    rw [List.lookup_cons, beq_false_of_ne (Ne.symm hkey), List.lookup_nil]

theorem withMetadata_toJson (entries : List (String × Json)) (d : Deployment) :
    Server.withMetadata entries d.toJson =
      d.stored (entries.foldl (fun m e => Assoc.insert e.1 e.2 m) d.metadata) 1 := rfl

theorem shows_written {d : Deployment} {s : Service} {old : Option Json} {j : Json}
    (hd : IsOf d s.app s.config) (hstatus : s.status = .running)
    (hold : ∀ o ∈ old, ∃ s, Shows o s) (h : Written d.toJson .replace old j) : Shows j s := by
  unfold Shows
  rw [hstatus]
  cases h with
  | @created _ entries hentries =>
    have hforeign : ∀ e ∈ ("name", Json.str (givenName d.toJson)) :: entries,
        e.1 ≠ "labels" ∧ e.1 ≠ "annotations" :=
      List.forall_mem_cons.2 ⟨⟨by simp, by simp⟩, fun e he =>
        ne_of_notMem_writtenKeys (hentries.foreign e he)⟩
    have hread : ∀ e ∈ ("name", Json.str (givenName d.toJson)) :: entries,
        ∃ t, startOf [e] = .ok t :=
      List.forall_mem_cons.2 ⟨⟨none, rfl⟩, hentries.readable⟩
    exact ⟨d, _, hd, keeps_foldl_insert d hforeign hread, withMetadata_toJson _ d⟩
  | @replaced o entries hentries =>
    obtain ⟨_, d', metadata, -, hkeeps, rfl⟩ := hold o rfl
    obtain ⟨t, ht⟩ := hkeeps.started
    have hforeign : ∀ e ∈ entries, e.1 ≠ "labels" ∧ e.1 ≠ "annotations" :=
      fun e he => ne_of_notMem_writtenKeys (hentries.foreign e he)
    -- entries kept from the old object could be read there
    have hread : ∀ e ∈ entries, ∃ t, startOf [e] = .ok t :=
      fun e he => exists_startOf_of_lookup ht (hentries.old e he)
    exact ⟨d, _, hd, keeps_foldl_insert d hforeign hread, withMetadata_toJson entries d⟩

def scaledMetadata (d : Deployment) (metadata : List (String × Json)) : List (String × Json) :=
  Assoc.insert "labels" (.ofMap d.labels)
    (Assoc.insert "namespace" (.str d.namespaceId) (Assoc.insert "name" (.str d.name) metadata))

theorem lookup_scaledMetadata {d : Deployment} {metadata : List (String × Json)} {key : String}
    (hlabels : key ≠ "labels") (hns : key ≠ "namespace") (hname : key ≠ "name") :
    (scaledMetadata d metadata).lookup key = metadata.lookup key := by
  rw [scaledMetadata, Assoc.lookup_insert_of_ne hlabels, Assoc.lookup_insert_of_ne hns,
    Assoc.lookup_insert_of_ne hname]

theorem Keeps.scaled {d : Deployment} {metadata : List (String × Json)} (h : Keeps d metadata) :
    Keeps d (scaledMetadata d metadata) where
  labels := Assoc.lookup_insert_self ..
  annotations := by
    rw [lookup_scaledMetadata (by decide) (by decide) (by decide)]
    exact h.annotations
  started := by
    obtain ⟨t, ht⟩ := h.started
    refine ⟨t, ?_⟩
    rw [← ht]
    exact startOf_congr (lookup_scaledMetadata (by decide) (by decide) (by decide))

theorem mergePatch_labels (app : AppName) (s : DeployableService) :
    (Json.ofMap (s.labels app)).mergePatch (.ofMap (s.labels app)) = .ofMap (s.labels app) := rfl

theorem mergeMembers_metadata {app : AppName} {s : DeployableService}
    {metadata : List (String × Json)} (name ns : String)
    (h : metadata.lookup "labels" = some (.ofMap (s.labels app))) :
    Json.mergeMembers metadata
        [("name", .str name), ("namespace", .str ns), ("labels", .ofMap (s.labels app))] =
      Assoc.insert "labels" (.ofMap (s.labels app))
        (Assoc.insert "namespace" (.str ns) (Assoc.insert "name" (.str name) metadata)) := by
  have hlookup : (Assoc.insert "namespace" (.str ns)
      (Assoc.insert "name" (.str name) metadata)).lookup "labels" =
        some (.ofMap (s.labels app)) := by
    rw [Assoc.lookup_insert_of_ne (by decide), Assoc.lookup_insert_of_ne (by decide), h]
  change Assoc.insert "labels" (Json.mergePatch ((List.lookup "labels"
    (Assoc.insert "namespace" (.str ns) (Assoc.insert "name" (.str name) metadata))).getD .null)
      (.ofMap (s.labels app))) _ = _
  rw [hlookup, Option.getD_some, mergePatch_labels]
  rfl

theorem mergePatch_stored {d : Deployment} {app : AppName} {config : ServiceConfig}
    {metadata : List (String × Json)} (hd : IsOf d app config)
    (hlabels : metadata.lookup "labels" = some (.ofMap d.labels)) (n k : Int) :
    (d.stored metadata n).mergePatch (Deployment.replicasPatch app config k) =
      d.stored (scaledMetadata d metadata) k := by
  -- a patch of the replica count changes nothing but the count: it repeats the labels
  obtain ⟨s, container, usePullSecret, claims, now, rfl, rfl⟩ := hd
  have hmetadata := mergeMembers_metadata (app.deploymentName s.name) app.namespaceId hlabels
  change Json.obj
    [("apiVersion", .str "apps/v1"), ("kind", .str "Deployment"),
      ("metadata", .obj (Json.mergeMembers metadata
        [("name", .str (app.deploymentName s.name)), ("namespace", .str app.namespaceId),
          ("labels", .ofMap (s.labels app))])),
      ("spec", .obj
        ((Deployment.ofService app s container usePullSecret claims now).storedSpec k))] = _
  rw [hmetadata]
  rfl

theorem replicasPatch_congr {config config' : ServiceConfig} (app : AppName)
    (hname : config.serviceName = config'.serviceName)
    (htype : config.containerType = config'.containerType) (n : Int) :
    Deployment.replicasPatch app config n = Deployment.replicasPatch app config' n := by
  unfold Deployment.replicasPatch
  rw [hname, htype]

theorem Shows.scaled {j : Json} {s : Service} (h : Shows j s) (status : ServiceStatus) :
    Shows (j.mergePatch (Deployment.replicasPatch s.app s.config (replicasFor status)))
      { s with status } := by
  obtain ⟨d, metadata, hd, hkeeps, rfl⟩ := h
  exact ⟨d, _, hd, hkeeps.scaled, mergePatch_stored hd hkeeps.labels _ _⟩

theorem Shows.labels {j : Json} {s : Service} (h : Shows j s) :
    j.path ["metadata", "labels"] =
      .ofMap (Labels.ofService s.app s.name s.config.containerType) := by
  obtain ⟨d, metadata, ⟨own, container, usePullSecret, claims, now, hconfig, rfl⟩, hkeeps, rfl⟩ := h
  have hlabels : own.labels s.app = Labels.ofService s.app s.name s.config.containerType := by
    rw [DeployableService.labels, DeployableService.name, hconfig]
    rfl
  change (metadata.lookup "labels").getD .null = _
  rw [hkeeps.labels, Option.getD_some, ← hlabels]
  rfl

theorem Shows.selects_label {j : Json} {s : Service} (h : Shows j s) :
    Server.selects Label.appName j := by
  have hpieces : Text.pieces ',' Label.appName.toList = [Label.appName.toList] :=
    Text.pieces_of_notMem (by decide)
  have hcut : Text.cutFirst '=' Label.appName.toList = none :=
    Text.cutFirst_eq_none.2 (by decide)
  rw [Server.selects, hpieces, h.labels, List.all_cons, List.all_nil, Bool.and_true,
    Server.meets, hcut]
  rfl

theorem Shows.selects_app_iff {j : Json} {s : Service} (h : Shows j s) (app : AppName) :
    Server.selects (Labels.ofApp app).selector j ↔ s.app = app := by
  rw [selects_ofApp, hasLabel_of_ofMap h.labels, beq_iff_eq]
  change some s.app.value = some app.value ↔ _
  rw [Option.some_inj, AppName.ext_iff]

theorem Shows.selects_app {j : Json} {s : Service} (h : Shows j s) :
    Server.selects (Labels.ofApp s.app).selector j := (h.selects_app_iff s.app).2 rfl

end Cluster

end PreviewApps
