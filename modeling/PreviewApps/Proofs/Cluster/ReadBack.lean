import PreviewApps.Cluster.ReadBack
import PreviewApps.Manifest.Deployment
import PreviewApps.Proofs.Except
import PreviewApps.Proofs.Json.Members
import PreviewApps.Proofs.Json.RoundTrip

/-!
Services read back from the deployments written for them. The environment is joined again from the
container's variables and the annotation for replicas.
-/

namespace PreviewApps

namespace Environment

def replicasOf (env : Environment) (key : String) : List EnvVar :=
  env.filter fun v => v.key == key && v.replicate

/-- A variable as a cluster tells it: the last replicated one of its key decides on its marks. -/
def marked (env : Environment) (v : EnvVar) : EnvVar :=
  { v with
    templated := ((env.replicasOf v.key).getLast?.map (·.templated)).getD false
    replicate := env.any fun w => w.key == v.key && w.replicate }

def readBack (env : Environment) : Environment := env.map env.marked

theorem lookup_replicaMembers (env : Environment) (key : String) :
    env.replicaMembers.lookup key = (env.replicasOf key).getLast?.map replicaEntry := by
  rw [replicaMembers, Assoc.lookup_ofList, List.filter_map, List.getLast?_map, Option.map_map,
    replicated, List.filter_filter]
  rfl

theorem isTextual_replicaMembers (env : Environment) : (Json.obj env.replicaMembers).IsTextual := by
  refine ⟨Assoc.nodup_keys_ofList _, Json.membersTextual_iff.2 (Assoc.forall_mem_ofList ?_)⟩
  intro e he
  obtain ⟨v, -, rfl⟩ := List.mem_map.1 he
  have hkeys : ["value", "templated", "replicate"].Nodup := by decide
  exact ⟨hkeys, trivial, trivial, trivial, trivial⟩

theorem parse?_replicaAnnotation {env : Environment} {text : String}
    (h : env.replicaAnnotation? = some text) :
    Json.parse? text = some (.obj env.replicaMembers) := by
  unfold replicaAnnotation? at h
  split at h
  · cases h
  · cases h
    exact Json.parse?_render Json.Layout.readable_compact env.isTextual_replicaMembers

theorem replicaMembers_of_annotation_none {env : Environment} (h : env.replicaAnnotation? = none) :
    env.replicaMembers = [] := by
  unfold replicaAnnotation? at h
  split at h
  · next he => rw [replicaMembers, List.isEmpty_iff.1 he]; rfl
  · cases h

theorem any_eq_isSome (env : Environment) (key : String) :
    (env.any fun w => w.key == key && w.replicate) = (env.replicasOf key).getLast?.isSome := by
  rw [Bool.eq_iff_iff, List.getLast?_isSome, replicasOf, Ne, List.filter_eq_nil_iff]
  simp

end Environment

namespace Container

theorem lookup_env (c : Container) :
    c.toJson.members.lookup "env" = c.env.map Container.envJson := by
  rw [toJson, Json.lookup_record (by simp)]
  rfl

theorem lookup_ports (c : Container) :
    c.toJson.members.lookup "ports" = some (.arr [.obj [("containerPort", .int c.port)]]) := by
  rw [toJson, Json.lookup_record (by simp)]
  rfl

end Container

namespace Deployment

def metadata (d : Deployment) : List (String × Json) :=
  [("name", .str d.name), ("namespace", .str d.namespaceId), ("labels", .ofMap d.labels),
    ("annotations", .ofMap d.annotations)]

def storedSpec (d : Deployment) (replicas : Int) : List (String × Json) :=
  [("replicas", .int replicas), ("selector", .obj [("matchLabels", .ofMap d.labels)]),
    ("template", .obj
      [("metadata", .obj [("labels", .ofMap d.labels), ("annotations", .ofMap d.podAnnotations)]),
        ("spec", d.podSpec)])]

/-- A deployment as a cluster keeps it: under metadata of its own and with any replica count. -/
def stored (d : Deployment) (metadata : List (String × Json)) (replicas : Int) : Json := .obj
  [("apiVersion", .str "apps/v1"), ("kind", .str "Deployment"), ("metadata", .obj metadata),
    ("spec", .obj (d.storedSpec replicas))]

theorem toJson_eq_stored (d : Deployment) : d.toJson = d.stored d.metadata 1 := rfl

theorem lookup_containers (d : Deployment) :
    d.podSpec.members.lookup "containers" = some (.arr [d.container.toJson]) := by
  rw [podSpec, Json.lookup_record (by simp)]
  rfl

end Deployment

namespace Cluster

theorem replicaDetails_annotationsOf (config : ServiceConfig) :
    replicaDetails (Json.ofMap (Deployment.annotationsOf config)).members =
      .obj ((config.env.map (·.replicaMembers)).getD []) := by
  unfold Deployment.annotationsOf replicaDetails
  rw [Json.lookup_ofMap]
  cases henv : config.env with
  | none => rfl
  | some env =>
    rw [Option.bind_some, Option.map_some, Option.getD_some]
    cases h : env.replicaAnnotation? with
    | none =>
      rw [Environment.replicaMembers_of_annotation_none h]
      rfl
    | some text =>
      change (Json.parse? text).getD (.obj []) = _
      rw [Environment.parse?_replicaAnnotation h, Option.getD_some]

theorem envVarOf_eq_ok {ds ms own : List (String × Json)} {key : String}
    (hkey : (member "name" ms).str? = some key)
    (hown : (ds.lookup key).getD (.obj []) = .obj own) :
    envVarOf (.obj ds) (.obj ms) =
      .ok
        { key
          value := (member "value" ms).str?.getD ""
          templated := (member "templated" own).truthy
          replicate := (member "replicate" own).truthy } := by
  simp only [envVarOf, hkey, Option.bind_some, bind, Except.bind, hown, Option.getD_some]

theorem envVarOf_envJson (env : Environment) (v : EnvVar) :
    envVarOf (.obj env.replicaMembers) (.obj [("name", .str v.key), ("value", .str v.value)]) =
      .ok (env.marked v) := by
  have hlook := env.lookup_replicaMembers v.key
  have hkey : (member "name" [("name", .str v.key), ("value", .str v.value)]).str? =
      some v.key := rfl
  rw [Environment.marked, Environment.any_eq_isSome]
  cases hlast : (env.replicasOf v.key).getLast? with
  | none =>
    rw [hlast] at hlook
    exact envVarOf_eq_ok hkey (by rw [hlook]; rfl)
  | some w =>
    have hw : w.replicate = true := by
      have hmem := List.mem_of_getLast? hlast
      simp only [Environment.replicasOf, List.mem_filter, Bool.and_eq_true] at hmem
      exact hmem.2.2
    rw [hlast] at hlook
    refine (envVarOf_eq_ok hkey (by rw [hlook]; rfl)).trans (congrArg _ ?_)
    change EnvVar.mk v.key v.value w.templated w.replicate = ⟨v.key, v.value, w.templated, true⟩
    rw [hw]

theorem environmentOf_container (c : Container) (config : ServiceConfig)
    (hc : c.env = config.env.map fun env => env.map fun v => (v.key, v.value)) :
    environmentOf c.toJson.members (Json.ofMap (Deployment.annotationsOf config)).members =
      .ok (config.env.map (·.readBack)) := by
  have hdetails := replicaDetails_annotationsOf config
  unfold environmentOf member
  rw [Container.lookup_env, hc, hdetails]
  cases config.env with
  | none => rfl
  | some env =>
    let entry (v : EnvVar) := Json.obj [("name", .str v.key), ("value", .str v.value)]
    have hvars : (env.map entry).mapM (envVarOf (.obj env.replicaMembers)) = .ok env.readBack := by
      rw [List.mapM_map]
      exact mapM_eq_ok fun v _ => envVarOf_envJson env v
    have hentries : Container.envJson (env.map fun v => (v.key, v.value)) =
        .arr (env.map entry) := by
      rw [Container.envJson, List.map_map]
      rfl
    simp only [Option.map_some, Option.getD_some, hentries, listOf, bind, Except.bind, hvars]
    rfl

theorem portOf_container (c : Container) : portOf c.toJson.members = .ok c.port := by
  unfold portOf member
  rw [Container.lookup_ports]
  rfl

theorem containerOf_podSpec (d : Deployment) {metadata : Json} {spec : List (String × Json)}
    (h : member "template" spec = .obj [("metadata", metadata), ("spec", d.podSpec)]) :
    containerOf spec = .ok d.container.toJson.members := by
  have hpod : membersOf (member "spec" [("metadata", metadata), ("spec", d.podSpec)]) =
      .ok d.podSpec.members := rfl
  have hfirst : firstOf (member "containers" d.podSpec.members) =
      .ok (some d.container.toJson.members) := by
    rw [member, Deployment.lookup_containers]
    rfl
  simp only [containerOf, h, membersOf, bind, Except.bind] at hpod ⊢
  rw [hpod]
  simp only [hfirst]
  rfl

theorem ownerOf?_labels (app : AppName) (s : DeployableService) :
    ownerOf? (Json.ofMap (s.labels app)).members =
      if s.name = "" then none else some (app, s.name, s.config.containerType) := by
  have happ : AppName.ofString? app.value = some app := dif_pos app.valid
  have htype : containerTypeOf? (Json.ofMap (s.labels app)).members =
      some s.config.containerType := s.config.containerType.ofLabel?_label
  have hname : (member Label.serviceName (Json.ofMap (s.labels app)).members).str? = some s.name :=
    rfl
  have hvalue : ((member Label.appName (Json.ofMap (s.labels app)).members).str?.getD "") =
      app.value := rfl
  simp only [ownerOf?, bind, hvalue, happ, hname, htype, Option.bind_some,
    String.isEmpty_iff]
  split
  · rfl
  · rfl

theorem serviceOf_stored_members (d : Deployment) (replicas : Int)
    {metadata labels annotations : List (String × Json)}
    (hlabels : membersOf (member "labels" metadata) = .ok labels)
    (hannotations : membersOf (member "annotations" metadata) = .ok annotations) :
    serviceOf (d.stored metadata replicas) = (match ownerOf? labels with
      | none => .ok none
      | some (app, serviceName, containerType) => do
        let env ← environmentOf d.container.toJson.members annotations
        let startedAt ← startOf metadata
        pure (some
          { id := identityOf metadata
            app
            config :=
              { serviceName
                image := imageOf annotations d.container.toJson.members
                env
                files := none
                port := d.container.port
                containerType }
            status := if replicas = 0 then .paused else .running
            startedAt })) := by
  have hcontainer : containerOf (d.storedSpec replicas) = .ok d.container.toJson.members :=
    containerOf_podSpec d rfl
  have hstatus : (member "replicas" (d.storedSpec replicas)).isZero = decide (replicas = 0) := rfl
  have hmetadata : membersOf (member "metadata" (d.stored metadata replicas).members) =
      .ok metadata := rfl
  have hspec : membersOf (member "spec" (d.stored metadata replicas).members) =
      .ok (d.storedSpec replicas) := rfl
  change serviceOf (.obj (d.stored metadata replicas).members) = _
  simp only [serviceOf, bind, Except.bind, hmetadata, hlabels]
  cases ownerOf? labels with
  | none => rfl
  | some owner =>
    simp only [hspec, hcontainer, portOf_container, hannotations, hstatus, decide_eq_true_eq]

theorem serviceOf_stored_eq (app : AppName) (s : DeployableService) (container : ContainerConfig)
    (usePullSecret : Bool) (claims : List (String × Claim)) (now : Timestamp) (replicas : Int)
    {metadata : List (String × Json)}
    (hlabels : metadata.lookup "labels" = some (.ofMap (s.labels app)))
    (hann : metadata.lookup "annotations" = some (.ofMap (Deployment.annotationsOf s.config))) :
    serviceOf
        ((Deployment.ofService app s container usePullSecret claims now).stored metadata replicas) =
      if s.name = "" then .ok none
      else (startOf metadata).map fun started => some
        { id := identityOf metadata
          app
          config := { s.config with env := s.config.env.map (·.readBack), files := none }
          status := if replicas = 0 then .paused else .running
          startedAt := started } := by
  let d := Deployment.ofService app s container usePullSecret claims now
  have hlabels' : membersOf (member "labels" metadata) =
      .ok (Json.ofMap (s.labels app)).members := by
    rw [member, hlabels]
    rfl
  have hann' : membersOf (member "annotations" metadata) =
      .ok (Json.ofMap (Deployment.annotationsOf s.config)).members := by
    rw [member, hann]
    rfl
  have henv := environmentOf_container d.container s.config rfl
  have himage : imageOf (Json.ofMap (Deployment.annotationsOf s.config)).members
      d.container.toJson.members = s.config.image := by
    unfold imageOf Deployment.annotationsOf
    cases s.config.env.bind (·.replicaAnnotation?) <;> rfl
  rw [serviceOf_stored_members d replicas hlabels' hann', ownerOf?_labels]
  by_cases hname : s.name = ""
  · rw [if_pos hname, if_pos hname]
  · rw [if_neg hname, if_neg hname]
    simp only [henv, himage, bind, Except.bind]
    cases startOf metadata <;> rfl

theorem serviceOf_stored (app : AppName) (s : DeployableService) (container : ContainerConfig)
    (usePullSecret : Bool) (claims : List (String × Claim)) (now : Timestamp) (replicas : Int)
    {metadata : List (String × Json)} {started : Option Timestamp}
    (hlabels : metadata.lookup "labels" = some (.ofMap (s.labels app)))
    (hann : metadata.lookup "annotations" = some (.ofMap (Deployment.annotationsOf s.config)))
    (hstart : startOf metadata = .ok started) :
    serviceOf
        ((Deployment.ofService app s container usePullSecret claims now).stored metadata replicas) =
      .ok (if s.name = "" then none
        else some
          { id := identityOf metadata
            app
            config := { s.config with env := s.config.env.map (·.readBack), files := none }
            status := if replicas = 0 then .paused else .running
            startedAt := started }) := by
  rw [serviceOf_stored_eq app s container usePullSecret claims now replicas hlabels hann, hstart]
  split
  · rfl
  · rfl

theorem serviceOf_ofService (app : AppName) (s : DeployableService) (container : ContainerConfig)
    (usePullSecret : Bool) (claims : List (String × Claim)) (now : Timestamp) :
    serviceOf (Deployment.ofService app s container usePullSecret claims now).toJson =
      .ok (if s.name = "" then none
        else some
          { id := app.deploymentName s.name
            app
            config :=
              { serviceName := s.name
                image := s.config.image
                env := s.config.env.map (·.readBack)
                files := none
                port := s.config.port
                containerType := s.config.containerType }
            status := .running
            startedAt := none }) := by
  rw [Deployment.toJson_eq_stored]
  exact serviceOf_stored app s container usePullSecret claims now 1 rfl rfl rfl

end Cluster

end PreviewApps
