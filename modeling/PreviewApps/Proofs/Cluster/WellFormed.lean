import PreviewApps.Cluster.Logs
import PreviewApps.Proofs.Cluster.ReadBack

/-!
Well-formed answers: deployments, pods and logs of the form that the API gives them. Nothing is
asked of a deployment's texts apart from the time of creation, and from the annotation with the
replicated variables, which may be no JSON but not JSON of another form.
-/

namespace PreviewApps.Cluster

def IsSection (j : Json) : Prop := j = .null ∨ ∃ ms, j = .obj ms

def IsRecords (j : Json) : Prop := j = .null ∨ ∃ vs, j = .arr vs ∧ ∀ v ∈ vs, ∃ ms, v = .obj ms

def IsTable (j : Json) : Prop :=
  ∃ ds, j = .obj ds ∧ ∀ k own, ds.lookup k = some own → ∃ ms, own = .obj ms

structure IsContainer (j : Json) : Prop where
  ports : IsRecords (j.get "ports")
  env : IsRecords (j.get "env")

structure IsDeployment (j : Json) : Prop where
  object : ∃ ms, j = .obj ms
  metadata : IsSection (j.get "metadata")
  labels : IsSection (j.path ["metadata", "labels"])
  annotations : IsSection (j.path ["metadata", "annotations"])
  created : ∀ text, j.path ["metadata", "creationTimestamp"] = .str text →
    (Iso.timestamp (spellZone text)).isSome
  replicated : ∀ text v, j.path ["metadata", "annotations", Label.replicatedEnv] = .str text →
    Json.parse? text = some v → IsTable v
  spec : IsSection (j.get "spec")
  template : IsSection (j.path ["spec", "template"])
  podSpec : IsSection (j.path ["spec", "template", "spec"])
  containers : IsRecords (j.path ["spec", "template", "spec", "containers"])
  container : ∀ c ∈ (j.path ["spec", "template", "spec", "containers"]).items, IsContainer c

structure IsPod (j : Json) : Prop where
  named : ∃ name, j.path ["metadata", "name"] = .str name

/-- A text in which every timestamp that can be read is a time, or nothing. -/
def IsLog (j : Json) : Prop :=
  j = .null ∨ ∃ text, j = .str text ∧ ∀ l ∈ Text.lines text, LogLine.read l ≠ .impossible

variable {j : Json}

theorem membersOf_of_isSection (h : IsSection j) : membersOf j = .ok j.members := by
  obtain rfl | ⟨ms, rfl⟩ := h <;> rfl

theorem exists_firstOf_of_isRecords (h : IsRecords j) :
    ∃ first, firstOf j = .ok first ∧ ∀ ms, first = some ms → .obj ms ∈ j.items := by
  obtain rfl | ⟨vs, rfl, hvs⟩ := h
  · exact ⟨none, rfl, nofun⟩
  · cases vs with
    | nil => exact ⟨none, rfl, nofun⟩
    | cons v vs =>
      obtain ⟨ms, rfl⟩ := hvs v (List.mem_cons_self ..)
      refine ⟨some ms, rfl, ?_⟩
      rintro _ ⟨⟩
      exact List.mem_cons_self ..

theorem exists_portOf {container : List (String × Json)} (h : IsContainer (.obj container)) :
    ∃ port, portOf container = .ok port := by
  obtain ⟨first, hfirst, -⟩ := exists_firstOf_of_isRecords h.ports
  exact exists_bind_eq_ok hfirst ⟨_, rfl⟩

theorem exists_envVarOf {details entry : Json} (hdetails : IsTable details)
    (hentry : ∃ ms, entry = .obj ms) : ∃ v, envVarOf details entry = .ok v := by
  obtain ⟨ds, rfl, hds⟩ := hdetails
  obtain ⟨ms, rfl⟩ := hentry
  have hown : ∃ own, ((member "name" ms).str?.bind fun k => ds.lookup k).getD (.obj []) =
      .obj own := by
    cases hmarks : (member "name" ms).str?.bind fun k => ds.lookup k with
    | none => exact ⟨[], rfl⟩
    | some own =>
      obtain ⟨k, -, hk⟩ := Option.bind_eq_some_iff.1 hmarks
      exact hds k own hk
  obtain ⟨own, hown⟩ := hown
  simp only [envVarOf, bind, Except.bind, hown]
  exact ⟨_, rfl⟩

theorem exists_environmentOf {container annotations : List (String × Json)}
    (h : IsContainer (.obj container)) (hdetails : IsTable (replicaDetails annotations)) :
    ∃ env, environmentOf container annotations = .ok env := by
  have henv : IsRecords (member "env" container) := h.env
  unfold environmentOf
  obtain hnone | ⟨entries, hsome, hentries⟩ := henv
  · rw [hnone]
    exact ⟨none, rfl⟩
  · obtain ⟨vars, hvars⟩ := exists_mapM_eq_ok_iff.2 fun e he =>
      exists_envVarOf hdetails (hentries e he)
    rw [hsome]
    exact exists_bind_eq_ok rfl (exists_bind_eq_ok hvars ⟨some vars, rfl⟩)

namespace IsDeployment

variable (h : IsDeployment j)

include h

theorem isTable_replicaDetails :
    IsTable (replicaDetails (j.path ["metadata", "annotations"]).members) := by
  unfold replicaDetails
  split
  · next text hlookup =>
    have htext : j.path ["metadata", "annotations", Label.replicatedEnv] = .str text :=
      congrArg (Option.getD · Json.null) hlookup
    cases hparse : Json.parse? text with
    | none => exact ⟨[], rfl, nofun⟩
    | some v => exact h.replicated text v htext hparse
  · exact ⟨[], rfl, nofun⟩

theorem exists_containerOf :
    ∃ c, containerOf (j.get "spec").members = .ok c ∧ IsContainer (.obj c) := by
  obtain ⟨first, hfirst, hmem⟩ := exists_firstOf_of_isRecords h.containers
  refine ⟨first.getD [], ?_, ?_⟩
  · exact bind_eq_ok_iff.2 ⟨_, membersOf_of_isSection h.template, bind_eq_ok_iff.2
      ⟨_, membersOf_of_isSection h.podSpec, bind_eq_ok_iff.2 ⟨first, hfirst, rfl⟩⟩⟩
  · cases first with
    | none => exact ⟨.inl rfl, .inl rfl⟩
    | some ms => exact h.container _ (hmem ms rfl)

theorem exists_startOf : ∃ t, startOf (j.get "metadata").members = .ok t := by
  unfold startOf
  split
  · next text htext =>
    obtain ⟨t, ht⟩ := Option.isSome_iff_exists.1 (h.created text htext)
    rw [ht]
    exact ⟨some t, rfl⟩
  · exact ⟨none, rfl⟩

theorem exists_serviceOf : ∃ r, serviceOf j = .ok r := by
  obtain ⟨ms, rfl⟩ := h.object
  obtain ⟨c, hc, hcontainer⟩ := h.exists_containerOf
  obtain ⟨port, hport⟩ := exists_portOf hcontainer
  obtain ⟨env, henv⟩ := exists_environmentOf hcontainer h.isTable_replicaDetails
  obtain ⟨t, ht⟩ := h.exists_startOf
  refine exists_bind_eq_ok (membersOf_of_isSection h.metadata)
    (exists_bind_eq_ok (membersOf_of_isSection h.labels) ?_)
  split
  · exact ⟨none, rfl⟩
  · exact exists_bind_eq_ok (membersOf_of_isSection h.spec) (exists_bind_eq_ok hc
      (exists_bind_eq_ok hport (exists_bind_eq_ok (membersOf_of_isSection h.annotations)
        (exists_bind_eq_ok henv (exists_bind_eq_ok ht ⟨_, rfl⟩)))))

end IsDeployment

section Written

theorem isTable_replicaMembers (env : Environment) : IsTable (.obj env.replicaMembers) := by
  refine ⟨_, rfl, ?_⟩
  intro k own hown
  rw [env.lookup_replicaMembers] at hown
  obtain ⟨v, -, rfl⟩ := Option.map_eq_some_iff.1 hown
  exact ⟨_, rfl⟩

theorem lookup_annotationsOf (config : ServiceConfig) :
    (Deployment.annotationsOf config).lookup Label.replicatedEnv =
      config.env.bind (·.replicaAnnotation?) := by
  unfold Deployment.annotationsOf
  split
  · next h => exact h.symm
  · next h => exact h.symm

theorem isContainer_toJson (c : Container) : IsContainer c.toJson := by
  constructor
  · rw [Json.get, Json.member?, c.lookup_ports]
    refine .inr ⟨_, rfl, ?_⟩
    rw [List.forall_mem_singleton]
    exact ⟨_, rfl⟩
  · rw [Json.get, Json.member?, c.lookup_env]
    cases c.env with
    | none => exact .inl rfl
    | some env =>
      refine .inr ⟨_, rfl, ?_⟩
      rw [List.forall_mem_map]
      exact fun _ _ => ⟨_, rfl⟩

theorem isDeployment_ofService (app : AppName) (s : DeployableService) (container : ContainerConfig)
    (usePullSecret : Bool) (claims : List (String × Claim)) (now : Timestamp) :
    IsDeployment (Deployment.ofService app s container usePullSecret claims now).toJson := by
  let d := Deployment.ofService app s container usePullSecret claims now
  have hcontainers : d.podSpec.get "containers" = .arr [d.container.toJson] := by
    rw [Json.get, Json.member?, d.lookup_containers]
    rfl
  constructor
  case object => exact ⟨_, rfl⟩
  case metadata => exact .inr ⟨_, rfl⟩
  case labels => exact .inr ⟨_, rfl⟩
  case annotations => exact .inr ⟨_, rfl⟩
  case created => exact nofun
  case replicated =>
    intro text v htext hparse
    change (Json.ofMap (Deployment.annotationsOf s.config)).get Label.replicatedEnv = _ at htext
    rw [Json.get, Json.member?, Json.lookup_ofMap, lookup_annotationsOf] at htext
    cases hown : s.config.env.bind (·.replicaAnnotation?) with
    | none =>
      rw [hown] at htext
      cases htext
    | some own =>
      rw [hown] at htext
      cases htext
      obtain ⟨env, -, hannotation⟩ := Option.bind_eq_some_iff.1 hown
      rw [Environment.parse?_replicaAnnotation hannotation] at hparse
      cases hparse
      exact isTable_replicaMembers env
  case spec => exact .inr ⟨_, rfl⟩
  case template => exact .inr ⟨_, rfl⟩
  case podSpec => exact .inr ⟨_, rfl⟩
  case containers =>
    change IsRecords (d.podSpec.get "containers")
    rw [hcontainers]
    refine .inr ⟨_, rfl, ?_⟩
    rw [List.forall_mem_singleton]
    exact ⟨_, rfl⟩
  case container =>
    change ∀ c ∈ (d.podSpec.get "containers").items, IsContainer c
    rw [hcontainers]
    exact List.forall_mem_singleton.2 (isContainer_toJson d.container)

end Written

end PreviewApps.Cluster
