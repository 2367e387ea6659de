import PreviewApps.Cluster.Query
import PreviewApps.Proofs.AppName
import PreviewApps.Proofs.Cluster.ReadBack
import PreviewApps.Proofs.Outline

/-!
Services of deployments that were written by this system and relabelled since. Labels decide whether
a deployment is one of a service, and of which; annotations may say anything, but JSON for the
replicated environment must have an object wherever the variables are looked up in it.
-/

namespace PreviewApps.Cluster

/-- A deployment as it is seen in a cluster, under labels and annotations of any texts. -/
structure Sighting where
  deployment : Deployment
  labels : Option Labels
  annotations : Option (List (String × String))
  /-- The other entries of the metadata. -/
  rest : List (String × Json)
  replicas : Int
  started : Option Timestamp
  unlabelled : rest.lookup "labels" = none
  unannotated : rest.lookup "annotations" = none
  startOf_rest : startOf rest = .ok started

namespace Sighting

variable (x : Sighting)

def metadata : List (String × Json) :=
  (x.labels.map fun ls => ("labels", Json.ofMap ls)).toList ++
    (x.annotations.map fun texts => ("annotations", Json.ofMap texts)).toList ++ x.rest

def toJson : Json := x.deployment.stored x.metadata x.replicas

def label? (key : String) : Option String := (x.labels.getD []).lookup key

def annotation? (key : String) : Option String := (x.annotations.getD []).lookup key

/-- What the annotation says of replicated variables, which is nothing if it is no JSON. -/
def replicated : Json := ((x.annotation? Label.replicatedEnv).bind Json.parse?).getD (.obj [])

def marks? (key : String) : Option (List (String × Json)) :=
  x.replicated.obj?.bind fun ds => ((ds.lookup key).getD (.obj [])).obj?

def Legible : Prop := ∀ e ∈ x.deployment.container.env.getD [], (x.marks? e.1).isSome

instance : Decidable x.Legible := inferInstanceAs (Decidable (∀ e ∈ _, _))

def isOf (app : AppName) : Bool :=
  x.label? Label.appName == some app.value && (x.label? Label.serviceName).any (· != "") &&
    (x.label? Label.containerType).all fun l => (ContainerType.ofLabel? l).isSome

def variableOf (e : String × String) : EnvVar :=
  let own := (x.marks? e.1).getD []
  { key := e.1
    value := e.2
    templated := (member "templated" own).truthy
    replicate := (member "replicate" own).truthy }

structure Tells (s : Service) : Prop where
  app : x.label? Label.appName = some s.app.value
  service : x.label? Label.serviceName = some s.name
  named : s.name ≠ ""
  type : (x.label? Label.containerType).elim (some .standalone) ContainerType.ofLabel? =
    some s.config.containerType
  id : s.id = identityOf x.metadata
  image : s.config.image = (x.annotation? Label.image).getD x.deployment.container.image
  port : s.config.port = x.deployment.container.port
  env : s.config.env = x.deployment.container.env.map (·.map x.variableOf)
  files : s.config.files = none
  status : s.status = if x.replicas = 0 then .paused else .running
  started : s.startedAt = x.started

section Metadata

theorem lookup_labels : x.metadata.lookup "labels" = x.labels.map Json.ofMap := by
  have hrest := x.unlabelled
  unfold metadata
  cases x.labels <;> cases x.annotations <;> simp [List.lookup_cons, hrest]

theorem lookup_annotations : x.metadata.lookup "annotations" = x.annotations.map Json.ofMap := by
  have hrest := x.unannotated
  unfold metadata
  cases x.labels <;> cases x.annotations <;> simp [List.lookup_cons, hrest]

theorem startOf_metadata : startOf x.metadata = .ok x.started := by
  have hsame : member "creationTimestamp" x.metadata = member "creationTimestamp" x.rest := by
    unfold member metadata
    cases x.labels <;> cases x.annotations <;> simp [List.lookup_cons]
  rw [← x.startOf_rest, startOf, startOf, hsame]

theorem membersOf_ofMap (m : Option (List (String × String))) :
    membersOf ((m.map Json.ofMap).getD .null) = .ok (Json.ofMap (m.getD [])).members := by
  cases m <;> rfl

theorem lookup_label (key : String) :
    (Json.ofMap (x.labels.getD [])).members.lookup key = (x.label? key).map .str :=
  Json.lookup_ofMap _ _

theorem lookup_annotated (key : String) :
    (Json.ofMap (x.annotations.getD [])).members.lookup key = (x.annotation? key).map .str :=
  Json.lookup_ofMap _ _

end Metadata

section Environment

theorem replicaDetails_annotations :
    replicaDetails (Json.ofMap (x.annotations.getD [])).members = x.replicated := by
  unfold replicaDetails replicated
  rw [lookup_annotated]
  cases x.annotation? Label.replicatedEnv <;> rfl

theorem envVarOf_entry (e : String × String) :
    envVarOf x.replicated (.obj [("name", .str e.1), ("value", .str e.2)]) =
      if (x.marks? e.1).isSome then .ok (x.variableOf e) else .error .malformed := by
  have hkey : (member "name" [("name", .str e.1), ("value", .str e.2)]).str? = some e.1 := rfl
  unfold variableOf marks?
  -- a variable is read where the text is an object with an object, or nothing, under its name
  cases x.replicated with
  | obj ds =>
    cases hown : (ds.lookup e.1).getD (.obj []) with
    | obj own =>
      rw [envVarOf_eq_ok hkey hown]
      simp [Json.obj?, hown, member, List.lookup_cons, Json.str?]
    | _ => simp [envVarOf, hkey, hown, Json.obj?, bind, Except.bind]
  | _ => rfl

theorem environmentOf_container :
    environmentOf x.deployment.container.toJson.members
        (Json.ofMap (x.annotations.getD [])).members =
      if x.Legible then .ok (x.deployment.container.env.map (·.map x.variableOf))
      else .error .malformed := by
  unfold environmentOf
  rw [member, Container.lookup_env, replicaDetails_annotations]
  cases henv : x.deployment.container.env with
  | none =>
    have hlegible : x.Legible := by simp [Legible, henv]
    rw [if_pos hlegible]
    rfl
  | some env =>
    have hlegible : (∀ e ∈ env, (x.marks? e.1).isSome) ↔ x.Legible := by
      rw [Legible, henv]
      rfl
    have hvars : (env.map fun e => Json.obj [("name", .str e.1), ("value", .str e.2)]).mapM
        (envVarOf x.replicated) =
          if x.Legible then .ok (env.map x.variableOf) else .error .malformed := by
      rw [List.mapM_map, ← if_congr hlegible rfl rfl]
      exact mapM_ite fun e _ => x.envVarOf_entry e
    simp only [Option.map_some, Option.getD_some, Container.envJson, listOf, bind, Except.bind,
      hvars]
    by_cases hx : x.Legible
    · rw [if_pos hx, if_pos hx]
      rfl
    · rw [if_neg hx, if_neg hx]

end Environment

section Owner

theorem str?_label (key : String) :
    (member key (Json.ofMap (x.labels.getD [])).members).str? = x.label? key := by
  rw [member, lookup_label]
  cases x.label? key <;> rfl

theorem containerTypeOf?_labels : containerTypeOf? (Json.ofMap (x.labels.getD [])).members =
    (x.label? Label.containerType).elim (some .standalone) ContainerType.ofLabel? := by
  unfold containerTypeOf?
  rw [lookup_label]
  cases x.label? Label.containerType <;> rfl

theorem ownerOf?_eq_some_iff {app : AppName} {service : String} {type : ContainerType} :
    ownerOf? (Json.ofMap (x.labels.getD [])).members = some (app, service, type) ↔
      x.label? Label.appName = some app.value ∧ x.label? Label.serviceName = some service ∧
      service ≠ "" ∧
      (x.label? Label.containerType).elim (some .standalone) ContainerType.ofLabel? =
        some type := by
  unfold ownerOf?
  rw [str?_label, str?_label, containerTypeOf?_labels]
  simp only [bind, Option.bind_eq_some_iff,
    AppName.ofString?_getD_eq_some_iff]
  constructor
  · rintro ⟨app', happ, service', hservice, h⟩
    split at h
    · cases h
    · next hnamed =>
      obtain ⟨type', htype, heq⟩ := Option.bind_eq_some_iff.1 h
      cases heq
      exact ⟨happ, hservice, fun hempty => hnamed (String.isEmpty_iff.2 hempty), htype⟩
  · rintro ⟨happ, hservice, hnamed, htype⟩
    refine ⟨app, happ, service, hservice, ?_⟩
    rw [if_neg fun hempty => hnamed (String.isEmpty_iff.1 hempty), htype]
    rfl

theorem all_isSome_ofLabel?_iff (label : Option String) :
    label.all (fun l => (ContainerType.ofLabel? l).isSome) = true ↔
      ∃ type, label.elim (some .standalone) ContainerType.ofLabel? = some type := by
  cases label with
  | none => exact iff_of_true rfl ⟨_, rfl⟩
  | some l => exact Option.isSome_iff_exists

theorem isOf_iff {app : AppName} : x.isOf app ↔
    ∃ service type, ownerOf? (Json.ofMap (x.labels.getD [])).members =
      some (app, service, type) := by
  simp only [isOf, Bool.and_eq_true, beq_iff_eq, Option.any_eq_true, bne_iff_ne,
    all_isSome_ofLabel?_iff, ownerOf?_eq_some_iff]
  constructor
  · rintro ⟨⟨happ, service, hservice, hnamed⟩, type, htype⟩
    exact ⟨service, type, happ, hservice, hnamed, htype⟩
  · rintro ⟨service, type, happ, hservice, hnamed, htype⟩
    exact ⟨⟨happ, service, hservice, hnamed⟩, type, htype⟩

end Owner

section Service

def report? : Option Service :=
  (ownerOf? (Json.ofMap (x.labels.getD [])).members).map fun (app, service, type) =>
    { id := identityOf x.metadata
      app
      config :=
        { serviceName := service
          image := (x.annotation? Label.image).getD x.deployment.container.image
          env := x.deployment.container.env.map (·.map x.variableOf)
          files := none
          port := x.deployment.container.port
          containerType := type }
      status := if x.replicas = 0 then .paused else .running
      startedAt := x.started }

theorem imageOf_container :
    imageOf (Json.ofMap (x.annotations.getD [])).members x.deployment.container.toJson.members =
      (x.annotation? Label.image).getD x.deployment.container.image := by
  have himage : (member "image" x.deployment.container.toJson.members).str? =
      some x.deployment.container.image := by
    rw [member, Container.toJson, Json.lookup_record (by simp)]
    rfl
  unfold imageOf
  rw [lookup_annotated, himage]
  cases x.annotation? Label.image <;> rfl

theorem serviceOf_toJson : serviceOf x.toJson =
    if x.report?.isSome → x.Legible then .ok x.report? else .error .malformed := by
  -- a deployment of no service is passed over, whatever its annotations say
  have hlabels : membersOf (member "labels" x.metadata) =
      .ok (Json.ofMap (x.labels.getD [])).members := by
    rw [member, lookup_labels, membersOf_ofMap]
  have hannotations : membersOf (member "annotations" x.metadata) =
      .ok (Json.ofMap (x.annotations.getD [])).members := by
    rw [member, lookup_annotations, membersOf_ofMap]
  rw [toJson, serviceOf_stored_members x.deployment x.replicas hlabels hannotations, report?]
  cases ownerOf? (Json.ofMap (x.labels.getD [])).members with
  | none => exact (if_pos fun h => absurd h Bool.false_ne_true).symm
  | some owner =>
    simp only [environmentOf_container, startOf_metadata, imageOf_container, bind, Except.bind,
      Option.map_some, Option.isSome_some, forall_const]
    by_cases hx : x.Legible
    · rw [if_pos hx, if_pos hx]
      rfl
    · rw [if_neg hx, if_neg hx]

theorem tells_of_report? {s : Service} (h : x.report? = some s) : x.Tells s := by
  obtain ⟨⟨app, service, type⟩, howner, rfl⟩ := Option.map_eq_some_iff.1 h
  obtain ⟨happ, hservice, hnamed, htype⟩ := x.ownerOf?_eq_some_iff.1 howner
  exact ⟨happ, hservice, hnamed, htype, rfl, rfl, rfl, rfl, rfl, rfl, rfl⟩

theorem isOf_iff_report? {app : AppName} :
    x.isOf app ↔ ∃ s, x.report? = some s ∧ s.app = app := by
  rw [isOf_iff, report?]
  constructor
  · rintro ⟨service, type, howner⟩
    exact ⟨_, congrArg (Option.map _) howner, rfl⟩
  · rintro ⟨s, hs, rfl⟩
    obtain ⟨⟨app, service, type⟩, howner, rfl⟩ := Option.map_eq_some_iff.1 hs
    exact ⟨service, type, howner⟩

theorem isSome_report?_iff : x.report?.isSome ↔ ∃ app, x.isOf app := by
  simp only [isOf_iff_report?, Option.isSome_iff_exists]
  constructor
  · rintro ⟨s, hs⟩
    exact ⟨s.app, s, hs, rfl⟩
  · rintro ⟨_, s, hs, -⟩
    exact ⟨s, hs⟩

end Service

end Sighting

section Runs

theorem readServices_sightings (xs : List Sighting) : readServices (xs.map (·.toJson)) =
    if ∀ x ∈ xs, x.report?.isSome → x.Legible then .ok (xs.filterMap (·.report?))
    else .error .malformed := by
  rw [readServices, List.mapM_map, mapM_ite fun x _ => x.serviceOf_toJson]
  split
  · show Except.ok ((xs.map (·.report?)).filterMap id) = _
    rw [List.filterMap_map]
    rfl
  · rfl

theorem forall₂_tells (xs : List Sighting) (app : AppName) :
    List.Forall₂ Sighting.Tells (xs.filter (·.isOf app))
      ((xs.filterMap (·.report?)).filter (·.app == app)) := by
  induction xs with
  | nil => exact .nil
  | cons x xs ih =>
    cases h : x.report? with
    | none =>
      have hother : x.isOf app = false := by
        rw [Bool.eq_false_iff, Ne, x.isOf_iff_report?, h]
        rintro ⟨s, hs, -⟩
        cases hs
      rw [List.filter_cons, hother, List.filterMap_cons_none h]
      exact ih
    | some s =>
      have hsame : x.isOf app ↔ s.app == app := by
        rw [x.isOf_iff_report?, h, beq_iff_eq]
        simp
      rw [List.filterMap_cons_some h, List.filter_cons, List.filter_cons, Bool.eq_iff_iff.2 hsame]
      split
      · exact .cons (x.tells_of_report? h) ih
      · exact ih

theorem services_eq : services = .call (.listEverywhere .deployments Label.appName) fun
    | .ok found => .ofExcept ((readServices found.items).map (Assoc.groupBy (·.app)))
    | .error e => .throw (.api .listAllDeployments e) := by
  refine congrArg (Program.call _) (funext fun a => ?_)
  cases a with
  | ok found =>
    show (Program.ofExcept (readServices found.items) >>= _) =
      Program.ofExcept ((readServices found.items).map _)
    cases readServices found.items <;> rfl
  | error e => rfl

variable {σ : Type} {answer : Call → σ → Answer × σ} {s : σ} {xs : List Sighting}

theorem run_services (hlisted : (answer (.listEverywhere .deployments Label.appName) s).1 =
      .ok (.arr (xs.map (·.toJson)))) :
    (services.run answer s).1 = if ∀ x ∈ xs, x.report?.isSome → x.Legible
      then .ok (Assoc.groupBy (·.app) (xs.filterMap (·.report?))) else .error .malformed := by
  rw [services_eq, Program.run]
  dsimp only
  rw [hlisted]
  show (readServices (xs.map (·.toJson))).map _ = _
  rw [readServices_sightings]
  split
  · rfl
  · rfl

/-- The services of a cluster are reported exactly where every deployment of a service is legible,
and then those of an application are told by its deployments, one by each and in their order. -/
theorem services_reported_iff
    (hlisted : (answer (.listEverywhere .deployments Label.appName) s).1 =
      .ok (.arr (xs.map (·.toJson)))) :
    ((∃ groups, (services.run answer s).1 = .ok groups) ↔
      ∀ x ∈ xs, ∀ app, x.isOf app → x.Legible) ∧
    ∀ groups, (services.run answer s).1 = .ok groups → Grouped groups ∧
      ∀ app, List.Forall₂ Sighting.Tells (xs.filter (·.isOf app))
        ((groups.lookup app).getD []) := by
  have hall : (∀ x ∈ xs, x.report?.isSome → x.Legible) ↔
      ∀ x ∈ xs, ∀ app, x.isOf app → x.Legible := by
    simp only [Sighting.isSome_report?_iff, forall_exists_index]
  rw [run_services hlisted, ← hall]
  split
  · next hlegible =>
    refine ⟨iff_of_true ⟨_, rfl⟩ hlegible, ?_⟩
    intro groups hgroups
    cases hgroups
    refine ⟨(grouped_groupBy _).1, ?_⟩
    intro app
    rw [Assoc.lookup_groupBy]
    exact forall₂_tells xs app
  · next hillegible =>
    constructor
    · refine iff_of_false ?_ hillegible
      rintro ⟨groups, hgroups⟩
      cases hgroups
    · intro groups hgroups
      cases hgroups

end Runs

def listing (xs : List Sighting) (_ : Call) (s : Unit) : Answer × Unit :=
  (.ok (.arr (xs.map (·.toJson))), s)

def database (labels : Labels) (text : String) : Sighting where
  deployment :=
    { name := "shop-db-deployment"
      namespaceId := "shop"
      labels
      annotations := []
      podAnnotations := []
      container := ⟨"db", "mariadb", 3306, some [("USER", "admin")], [], none⟩
      volumes := []
      pullSecret := none }
  labels := some labels
  annotations := some [(Label.replicatedEnv, text)]
  rest := [("name", .str "shop-db-deployment")]
  replicas := 1
  started := none
  unlabelled := rfl
  unannotated := rfl
  startOf_rest := rfl

def damaged : List Sighting :=
  [database [(Label.appName, "shop"), (Label.serviceName, "db")] "\x7bnot json",
    database [(Label.appName, "s/hop"), (Label.serviceName, "db")] "[1]",
    database [(Label.appName, "shop"), (Label.serviceName, "")] "[1]",
    database [(Label.appName, "shop"), (Label.serviceName, "db"),
      (Label.containerType, "sidecar")] "[1]",
    { database [] "[1]" with labels := none },
    database [(Label.appName, "Shop"), (Label.serviceName, "db")] "\x7b\"USER\": \x7b\x7d\x7d"]

theorem services_reported_damaged :
    (∃ groups, (services.run (listing damaged) ()).1 = .ok groups) ∧
    (AppName.ofString? "shop").map (fun app => (damaged.filter (·.isOf app)).length) = some 1 ∧
    ∀ groups, (services.run (listing damaged) ()).1 = .ok groups → Grouped groups ∧
      ∀ app, List.Forall₂ Sighting.Tells (damaged.filter (·.isOf app))
        ((groups.lookup app).getD []) := by
  have hlisted : (listing damaged (.listEverywhere .deployments Label.appName) ()).1 =
      .ok (.arr (damaged.map (·.toJson))) := rfl
  obtain ⟨hreported, htold⟩ := services_reported_iff hlisted
  have hlegible : ∀ x ∈ damaged, x.report?.isSome → x.Legible := by decide +kernel
  refine ⟨hreported.2 ?_, by decide +kernel, htold⟩
  intro x hx app hown
  exact hlegible x hx (x.isSome_report?_iff.2 ⟨app, hown⟩)

/-- A list instead of an object in one annotation, and no service is reported. -/
theorem services_fail_of_list :
    (services.run (listing [database [(Label.appName, "shop"), (Label.serviceName, "db")] "\x7b\x7d",
      database [(Label.appName, "other"), (Label.serviceName, "db")] "[1]"]) ()).1 =
        .error .malformed := by
  rw [run_services rfl, if_neg]
  decide +kernel

end PreviewApps.Cluster
