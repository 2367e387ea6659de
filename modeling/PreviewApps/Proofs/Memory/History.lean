import Mathlib.Data.List.DropRight
import PreviewApps.Proofs.Agreement

/-!
The backend in memory as a record of its calls. What it holds of a namespace is told by the calls
since the namespace was last stopped: which services, in which configuration and with which status.
-/

namespace PreviewApps.Memory

structure Event where
  step : Step
  reply : Reply

namespace Event

variable (ns name : String)

def stops (e : Event) : Bool :=
  match e.step with
  | .stop app => app.namespaceId == ns
  | _ => false

def spelling? (e : Event) : Option AppName :=
  match e.step with
  | .deploy u _ _ _ => if u.app.namespaceId = ns then some u.app else none
  | _ => none

def deployed (e : Event) : List ServiceConfig :=
  match e.step with
  | .deploy u _ _ _ => if u.app.namespaceId = ns then u.services.map (·.config) else []
  | _ => []

def deploys (e : Event) : Bool := (e.deployed ns).any (·.serviceName == name)

/-- The status that is given to a service; only a reply with a service counts. -/
def given? (e : Event) : Option ServiceStatus :=
  match e.step, e.reply with
  | .setStatus app service status, .changed (some _) =>
    if app.namespaceId = ns ∧ service = name then some status else none
  | _, _ => none

structure Quiet (e : Event) : Prop where
  stops : e.stops ns = false
  spelling : e.spelling? ns = none
  deployed : e.deployed ns = []
  given : ∀ name, e.given? ns name = none

variable {ns name}

theorem quiet_of_ne {e : Event} (h : e.step.app.namespaceId ≠ ns) : e.Quiet ns := by
  obtain ⟨st, reply⟩ := e
  cases st with
  | deploy u container now now' =>
    have hne : u.app.namespaceId ≠ ns := h
    constructor <;> simp [stops, spelling?, deployed, given?, hne]
  | setStatus app service status =>
    have hne : app.namespaceId ≠ ns := h
    constructor <;> try rfl
    intro name
    unfold given?
    split
    · next happ _ =>
      cases happ
      exact if_neg fun hand => hne hand.1
    · rfl
  | stop app =>
    have hne : app.namespaceId ≠ ns := h
    constructor <;> simp [stops, spelling?, deployed, given?, hne]

end Event

def historyFrom : Backend → List Step → List Event
  | _, [] => []
  | b, st :: sts => ⟨st, (st.inMemory b).1⟩ :: historyFrom (st.inMemory b).2 sts

def afterwardsFrom (b : Backend) (steps : List Step) : Backend :=
  steps.foldl (fun b st => (st.inMemory b).2) b

def history : List Step → List Event := historyFrom .empty

def afterwards : List Step → Backend := afterwardsFrom .empty

theorem afterwards_concat (steps : List Step) (st : Step) :
    afterwards (steps ++ [st]) = (st.inMemory (afterwards steps)).2 := by
  simp [afterwards, afterwardsFrom]

theorem historyFrom_concat (b : Backend) (steps : List Step) (st : Step) :
    historyFrom b (steps ++ [st]) =
      historyFrom b steps ++ [⟨st, (st.inMemory (afterwardsFrom b steps)).1⟩] := by
  induction steps generalizing b with
  | nil => rfl
  | cons st' steps ih =>
    rw [List.cons_append, historyFrom, ih]
    rfl

theorem history_concat (steps : List Step) (st : Step) :
    history (steps ++ [st]) = history steps ++ [⟨st, (st.inMemory (afterwards steps)).1⟩] :=
  historyFrom_concat .empty steps st

section Since

variable (ns name : String) (es : List Event) (e : Event)

def sinceStop : List Event := es.rtakeWhile (!·.stops ns)

def deployedSince : List ServiceConfig := (sinceStop ns es).flatMap (·.deployed ns)

def deployedNames : List String := ((deployedSince ns es).map (·.serviceName)).eraseDups

def lastConfig : Option ServiceConfig :=
  ((deployedSince ns es).filter (·.serviceName == name)).getLast?

def lastSpelling : Option AppName := ((sinceStop ns es).filterMap (·.spelling? ns)).getLast?

/-- A service runs until a status is given to it after its last deployment. -/
def lastStatus : ServiceStatus :=
  ((es.rtakeWhile (!·.deploys ns name)).filterMap (·.given? ns name)).getLast?.getD .running

theorem sinceStop_concat :
    sinceStop ns (es ++ [e]) = if e.stops ns then [] else sinceStop ns es ++ [e] := by
  unfold sinceStop
  rw [List.rtakeWhile_concat]
  cases e.stops ns <;> rfl

theorem lastStatus_concat :
    lastStatus ns name (es ++ [e]) =
      if e.deploys ns name then .running else (e.given? ns name).getD (lastStatus ns name es) := by
  unfold lastStatus
  rw [List.rtakeWhile_concat]
  cases e.deploys ns name with
  | true => rfl
  | false =>
    cases hgiven : e.given? ns name <;> simp [hgiven]

variable {ns name es e}

theorem deployedSince_concat (h : e.stops ns = false) :
    deployedSince ns (es ++ [e]) = deployedSince ns es ++ e.deployed ns := by
  simp [deployedSince, sinceStop_concat, h]

theorem lastConfig_concat (h : e.stops ns = false) :
    lastConfig ns name (es ++ [e]) =
      ((e.deployed ns).filter (·.serviceName == name)).getLast?.or (lastConfig ns name es) := by
  unfold lastConfig
  rw [deployedSince_concat h, List.filter_append, List.getLast?_append]

theorem lastSpelling_concat (h : e.stops ns = false) :
    lastSpelling ns (es ++ [e]) = (e.spelling? ns).or (lastSpelling ns es) := by
  unfold lastSpelling
  rw [sinceStop_concat, h]
  cases hspelling : e.spelling? ns <;> simp [hspelling]

theorem serviceName_of_lastConfig {c : ServiceConfig} (h : lastConfig ns name es = some c) :
    c.serviceName = name := by
  have hmem := List.mem_of_getLast? h
  simpa using (List.mem_filter.1 hmem).2

end Since

section Deployments

variable (app : AppName) (now : Timestamp) (n : Nat) (ds : List DeployableService)

theorem map_config_start : (Backend.start app now n ds).map (·.config) = ds.map (·.config) := by
  induction ds generalizing n with
  | nil => rfl
  | cons d ds ih => exact congrArg (d.config :: ·) (ih (n + 1))

theorem status_of_mem_start {s : Service} (h : s ∈ Backend.start app now n ds) :
    s.status = .running := by
  induction ds generalizing n with
  | nil => exact absurd h List.not_mem_nil
  | cons d ds ih =>
    rcases List.mem_cons.1 h with rfl | h
    · rfl
    · exact ih (n + 1) h

def insertAll (ss : List Service) (services : List (String × Service)) : List (String × Service) :=
  ss.foldl (fun m s => Assoc.insert s.name s m) services

variable (ss : List Service) (services : List (String × Service))

theorem insertAll_eq :
    insertAll ss services =
      (ss.map fun s => (s.name, s)).foldl (fun m e => Assoc.insert e.1 e.2 m) services := by
  rw [List.foldl_map]
  rfl

theorem lookup_insertAll (name : String) :
    (insertAll ss services).lookup name =
      (ss.filter (·.name == name)).getLast?.or (services.lookup name) := by
  rw [insertAll_eq, Assoc.lookup_foldl_insert, List.filter_map, List.getLast?_map,
    Option.map_map]
  simp [Function.comp_def]

end Deployments

structure Recorded (ns : String) (es : List Event) (services : List (String × Service)) : Prop where
  names : services.map (·.1) = deployedNames ns es
  nodup : (services.map (·.1)).Nodup
  config : ∀ name, (services.lookup name).map (·.config) = lastConfig ns name es
  status : ∀ name, ∀ s ∈ services.lookup name, s.status = lastStatus ns name es

namespace Recorded

variable {ns : String} {es : List Event} {services : List (String × Service)}

theorem of_quiet {e : Event} (h : Recorded ns es services) (he : e.Quiet ns) :
    Recorded ns (es ++ [e]) services := by
  refine ⟨?_, h.nodup, ?_, ?_⟩
  · rw [h.names, deployedNames, deployedNames, deployedSince_concat he.stops, he.deployed,
      List.append_nil]
  · intro name
    rw [h.config, lastConfig_concat he.stops, he.deployed]
    rfl
  · intro name s hs
    have hdeploys : e.deploys ns name = false := by simp [Event.deploys, he.deployed]
    simp [h.status name s hs, lastStatus_concat, hdeploys, he.given]

theorem of_stop {e : Event} (he : e.stops ns) : Recorded ns (es ++ [e]) [] := by
  have hsince : deployedSince ns (es ++ [e]) = [] := by
    rw [deployedSince, sinceStop_concat, if_pos he, List.flatMap_nil]
  refine ⟨?_, List.nodup_nil, ?_, ?_⟩
  · rw [deployedNames, hsince]
    rfl
  · intro name
    rw [lastConfig, hsince]
    rfl
  · intro name s hs
    cases hs

theorem of_deploy {u : DeploymentUnit} (h : Recorded u.app.namespaceId es services)
    (container : ContainerConfig) (now now' : Timestamp) (reply : Reply) (n : Nat) :
    Recorded u.app.namespaceId (es ++ [⟨.deploy u container now now', reply⟩])
      (insertAll (Backend.start u.app now' n u.services) services) := by
  let e : Event := ⟨.deploy u container now now', reply⟩
  have hdeployed : e.deployed u.app.namespaceId =
      (Backend.start u.app now' n u.services).map (·.config) := by
    rw [map_config_start]
    exact if_pos rfl
  refine ⟨?_, ?_, ?_, ?_⟩
  · rw [insertAll_eq, Assoc.keys_foldl_insert h.names, deployedNames, deployedSince_concat rfl,
      hdeployed]
    simp [Function.comp_def, Service.name]
  · rw [insertAll_eq]
    exact Assoc.nodup_keys_foldl_insert h.nodup
  · intro name
    rw [lookup_insertAll, Option.map_or, h.config, lastConfig_concat rfl, hdeployed,
      List.filter_map, List.getLast?_map]
    rfl
  · intro name s hs
    rw [lookup_insertAll] at hs
    rw [lastStatus_concat, Event.deploys, hdeployed]
    cases hlast : ((Backend.start u.app now' n u.services).filter (·.name == name)).getLast? with
    | some s' =>
      rw [hlast] at hs
      cases hs
      obtain ⟨hmem, hname⟩ := List.mem_filter.1 (List.mem_of_getLast? hlast)
      rw [if_pos, status_of_mem_start _ _ _ _ hmem]
      simp only [List.any_map, List.any_eq_true]
      exact ⟨s, hmem, hname⟩
    | none =>
      rw [hlast] at hs
      rw [List.getLast?_eq_none_iff, List.filter_eq_nil_iff] at hlast
      rw [if_neg, h.status name s hs]
      · rfl
      · simp only [List.any_map, List.any_eq_true]
        rintro ⟨s', hmem, hname⟩
        exact hlast s' hmem hname

theorem of_setStatus {app : AppName} {service : String} {s : Service}
    (h : Recorded app.namespaceId es services) (hs : services.lookup service = some s)
    (status : ServiceStatus) (shown : Service) :
    Recorded app.namespaceId
      (es ++ [⟨.setStatus app service status, .changed (some shown)⟩])
      (Assoc.insert service { s with status } services) := by
  let e : Event := ⟨.setStatus app service status, .changed (some shown)⟩
  have hkey : service ∈ services.map (·.1) := List.mem_map_of_mem (Assoc.mem_of_lookup hs)
  have hnames := Assoc.keys_insert_of_mem hkey { s with status }
  refine ⟨?_, ?_, ?_, ?_⟩
  · rw [hnames, h.names, deployedNames, deployedNames, deployedSince_concat rfl]
    simp [Event.deployed]
  · rw [hnames]
    exact h.nodup
  · intro name
    rw [lastConfig_concat rfl, ← h.config]
    by_cases hname : name = service
    · rw [hname, Assoc.lookup_insert_self, hs]
      rfl
    · rw [Assoc.lookup_insert_of_ne hname]
      rfl
  · intro name s' hs'
    have hdeploys : e.deploys app.namespaceId name = false := rfl
    have hgiven : e.given? app.namespaceId name =
        if app.namespaceId = app.namespaceId ∧ service = name then some status else none := rfl
    rw [lastStatus_concat, hdeploys, hgiven]
    by_cases hname : name = service
    · rw [hname, Assoc.lookup_insert_self] at hs'
      cases hs'
      simp [hname]
    · rw [Assoc.lookup_insert_of_ne hname] at hs'
      simp [h.status name s' hs', Ne.symm hname]

end Recorded

namespace Backend

variable {b : Backend} {es : List Event}

def servicesIn (ns : String) (b : Backend) : List (String × Service) :=
  ((b.apps.lookup ns).map (·.services)).getD []

def report (ns : String) (b : Backend) : Groups := b.services.filter (·.1.namespaceId == ns)

structure Tracks (es : List Event) (b : Backend) : Prop where
  nodup : (b.apps.map (·.1)).Nodup
  key : ∀ e ∈ b.apps, e.1 = e.2.spelling.namespaceId
  spelling : ∀ ns, (b.apps.lookup ns).map (·.spelling) = lastSpelling ns es
  recorded : ∀ ns, Recorded ns es (b.servicesIn ns)

theorem tracks_empty : Tracks [] empty :=
  ⟨List.nodup_nil, fun _ he => absurd he List.not_mem_nil, fun _ => rfl, fun _ =>
    ⟨rfl, List.nodup_nil, fun _ => rfl, fun _ _ hs => by cases hs⟩⟩

theorem servicesIn_of_lookup {ns : String} {a : App} (h : b.apps.lookup ns = some a) :
    b.servicesIn ns = a.services := by
  simp [servicesIn, h]

theorem view_eq_lookup_servicesIn (b : Backend) (ns name : String) :
    b.view ns name = (b.servicesIn ns).lookup name := by
  unfold view servicesIn
  cases b.apps.lookup ns <;> rfl

theorem deploy_eq_insertAll (u : DeploymentUnit) (now : Timestamp) (b : Backend) :
    (b.deploy u now).2.apps = Assoc.insert u.app.namespaceId
      ⟨u.app, insertAll (start u.app now b.issued u.services) (b.servicesIn u.app.namespaceId)⟩
      b.apps := rfl

theorem apps_inMemory (st : Step) (b : Backend) :
    (st.inMemory b).2.apps = b.apps ∨
      (∃ a, (st.inMemory b).2.apps = Assoc.insert st.app.namespaceId a b.apps ∧
        (a.spelling = st.app ∨
          ∃ a', b.apps.lookup st.app.namespaceId = some a' ∧ a.spelling = a'.spelling)) ∨
      (st.inMemory b).2.apps = Assoc.erase st.app.namespaceId b.apps := by
  cases st with
  | deploy u container now now' => exact .inr (.inl ⟨_, deploy_eq_insertAll u now' b, .inl rfl⟩)
  | setStatus app service status =>
    change (b.setStatus app service status).2.apps = _ ∨ _
    cases hs : b.view app.namespaceId service with
    | none => exact .inl (by rw [setStatus_of_view_eq_none hs])
    | some s =>
      obtain ⟨a, happ, -, hset⟩ := setStatus_of_view_eq_some hs status
      let a' : App := ⟨a.spelling, Assoc.insert service { s with status } a.services⟩
      exact .inr (.inl ⟨a', congrArg (·.2.apps) hset, .inr ⟨a, happ, rfl⟩⟩)
  | stop app =>
    cases happ : b.apps.lookup app.namespaceId with
    | none => exact .inl (congrArg (·.2.apps) (stop_of_lookup_eq_none happ))
    | some a => exact .inr (.inr (congrArg (·.2.apps) (stop_of_lookup_eq_some happ)))

theorem lookup_inMemory_of_ne {ns : String} {st : Step} (h : ns ≠ st.app.namespaceId)
    (b : Backend) : (st.inMemory b).2.apps.lookup ns = b.apps.lookup ns := by
  rcases apps_inMemory st b with heq | ⟨a, heq, -⟩ | heq
  · rw [heq]
  · rw [heq, Assoc.lookup_insert_of_ne h]
  · rw [heq, Assoc.lookup_erase_of_ne h]

namespace Tracks

theorem nodup_inMemory (h : Tracks es b) (st : Step) :
    ((st.inMemory b).2.apps.map (·.1)).Nodup := by
  rcases apps_inMemory st b with heq | ⟨a, heq, -⟩ | heq
  · rw [heq]
    exact h.nodup
  · rw [heq]
    exact Assoc.nodup_keys_insert h.nodup _ a
  · rw [heq]
    exact h.nodup.sublist ((Assoc.erase_sublist _ b.apps).map _)

theorem key_inMemory (h : Tracks es b) (st : Step) :
    ∀ e ∈ (st.inMemory b).2.apps, e.1 = e.2.spelling.namespaceId := by
  intro e he
  rcases apps_inMemory st b with heq | ⟨a, heq, hspelling⟩ | heq
  · rw [heq] at he
    exact h.key e he
  · rw [heq] at he
    rcases Assoc.mem_insert he with rfl | he
    · rcases hspelling with hown | ⟨a', happ, hold⟩
      · rw [hown]
      · rw [hold]
        exact h.key _ (Assoc.mem_of_lookup happ)
    · exact h.key e he
  · rw [heq] at he
    exact h.key e ((Assoc.erase_sublist _ b.apps).subset he)

theorem of_own (h : Tracks es b) {st : Step} {reply : Reply}
    (hspelling : ((st.inMemory b).2.apps.lookup st.app.namespaceId).map (·.spelling) =
      lastSpelling st.app.namespaceId (es ++ [⟨st, reply⟩]))
    (hrecorded : Recorded st.app.namespaceId (es ++ [⟨st, reply⟩])
      ((st.inMemory b).2.servicesIn st.app.namespaceId)) :
    Tracks (es ++ [⟨st, reply⟩]) (st.inMemory b).2 := by
  refine ⟨h.nodup_inMemory st, h.key_inMemory st, ?_, ?_⟩
  · intro ns
    by_cases hns : ns = st.app.namespaceId
    · rw [hns, hspelling]
    · have hquiet : Event.Quiet ns ⟨st, reply⟩ := Event.quiet_of_ne (Ne.symm hns)
      rw [lookup_inMemory_of_ne hns, h.spelling, lastSpelling_concat hquiet.stops, hquiet.spelling]
      rfl
  · intro ns
    by_cases hns : ns = st.app.namespaceId
    · rw [hns]
      exact hrecorded
    · have hrest := (h.recorded ns).of_quiet (Event.quiet_of_ne (e := ⟨st, reply⟩) (Ne.symm hns))
      unfold servicesIn at hrest ⊢
      rwa [lookup_inMemory_of_ne hns]

theorem deploy (h : Tracks es b) (u : DeploymentUnit) (container : ContainerConfig)
    (now now' : Timestamp) (reply : Reply) :
    Tracks (es ++ [⟨.deploy u container now now', reply⟩])
      (Step.inMemory b (.deploy u container now now')).2 := by
  have hlookup : (b.deploy u now').2.apps.lookup u.app.namespaceId = some ⟨u.app,
      insertAll (start u.app now' b.issued u.services) (b.servicesIn u.app.namespaceId)⟩ := by
    rw [deploy_eq_insertAll, Assoc.lookup_insert_self]
  apply h.of_own
  · change ((b.deploy u now').2.apps.lookup u.app.namespaceId).map _ = lastSpelling _ _
    rw [hlookup, lastSpelling_concat rfl]
    simp [Event.spelling?, Step.app]
  · change Recorded _ _ ((b.deploy u now').2.servicesIn u.app.namespaceId)
    rw [servicesIn_of_lookup hlookup]
    exact (h.recorded _).of_deploy container now now' reply b.issued

theorem setStatus (h : Tracks es b) (app : AppName) (service : String) (status : ServiceStatus) :
    Tracks (es ++ [⟨.setStatus app service status, .changed (b.setStatus app service status).1⟩])
      (Step.inMemory b (.setStatus app service status)).2 := by
  cases hs : b.view app.namespaceId service with
  | none =>
    have hset := setStatus_of_view_eq_none hs status
    have hquiet : Event.Quiet app.namespaceId
        ⟨.setStatus app service status, .changed none⟩ := ⟨rfl, rfl, rfl, fun _ => rfl⟩
    apply h.of_own
    · change ((b.setStatus app service status).2.apps.lookup app.namespaceId).map _ = _
      rw [hset, h.spelling, lastSpelling_concat rfl]
      rfl
    · change Recorded app.namespaceId _
        ((b.setStatus app service status).2.servicesIn app.namespaceId)
      rw [hset]
      exact (h.recorded _).of_quiet hquiet
  | some s =>
    obtain ⟨a, happ, hservice, hset⟩ := setStatus_of_view_eq_some hs status
    have hlookup : (b.setStatus app service status).2.apps.lookup app.namespaceId =
        some ⟨a.spelling, Assoc.insert service { s with status } a.services⟩ := by
      rw [hset, Assoc.lookup_insert_self]
    apply h.of_own
    · change ((b.setStatus app service status).2.apps.lookup app.namespaceId).map _ = _
      rw [hlookup, lastSpelling_concat rfl]
      exact (congrArg (Option.map (·.spelling)) happ).symm.trans (h.spelling _)
    · change Recorded app.namespaceId _
        ((b.setStatus app service status).2.servicesIn app.namespaceId)
      rw [servicesIn_of_lookup hlookup, hset]
      have hold := h.recorded app.namespaceId
      rw [servicesIn_of_lookup happ] at hold
      exact hold.of_setStatus hservice status { s with status }

theorem lookup_stop (h : Tracks es b) (app : AppName) :
    (b.stop app).2.apps.lookup app.namespaceId = none := by
  cases happ : b.apps.lookup app.namespaceId with
  | none => rw [stop_of_lookup_eq_none happ, happ]
  | some a =>
    rw [stop_of_lookup_eq_some happ]
    exact Assoc.lookup_erase_self h.nodup

theorem stop (h : Tracks es b) (app : AppName) (reply : Reply) :
    Tracks (es ++ [⟨.stop app, reply⟩]) (Step.inMemory b (.stop app)).2 := by
  have hstops : Event.stops app.namespaceId ⟨.stop app, reply⟩ := beq_self_eq_true _
  have hlookup := h.lookup_stop app
  apply h.of_own
  · change ((b.stop app).2.apps.lookup app.namespaceId).map _ = lastSpelling _ _
    rw [hlookup, lastSpelling, sinceStop_concat]
    change none = ((if Event.stops app.namespaceId _ then [] else _).filterMap _).getLast?
    rw [if_pos hstops]
    rfl
  · change Recorded app.namespaceId _ ((b.stop app).2.servicesIn app.namespaceId)
    rw [servicesIn, hlookup]
    exact Recorded.of_stop hstops

theorem inMemory (h : Tracks es b) (st : Step) :
    Tracks (es ++ [⟨st, (st.inMemory b).1⟩]) (st.inMemory b).2 := by
  cases st with
  | deploy u container now now' => exact h.deploy u container now now' _
  | setStatus app service status => exact h.setStatus app service status
  | stop app => exact h.stop app _

end Tracks

theorem tracks_afterwards (steps : List Step) : Tracks (history steps) (afterwards steps) := by
  induction steps using List.reverseRecOn with
  | nil => exact tracks_empty
  | append_singleton steps st ih =>
    rw [history_concat, afterwards_concat]
    exact ih.inMemory st

theorem report_eq (h : Tracks es b) (ns : String) :
    b.report ns = ((b.apps.lookup ns).filter (!·.services.isEmpty)).toList.map fun a =>
      (a.spelling, a.services.map (·.2)) := by
  have hkey : ((b.apps.filter (!·.2.services.isEmpty)).filter
      fun e => e.2.spelling.namespaceId == ns) =
      (b.apps.filter (·.1 == ns)).filter (!·.2.services.isEmpty) := by
    rw [List.filter_filter, List.filter_filter]
    apply List.filter_congr
    intro e he
    rw [h.key e he, Bool.and_comm]
  unfold report services
  rw [List.filter_map]
  change List.map _ ((b.apps.filter (!·.2.services.isEmpty)).filter
    fun e => e.2.spelling.namespaceId == ns) = _
  rw [hkey, Assoc.filter_key_of_nodup h.nodup]
  cases b.apps.lookup ns with
  | none => rfl
  | some a => cases hempty : a.services.isEmpty <;> simp [hempty, Option.filter]

theorem report_stop (h : Tracks es b) (app : AppName) :
    (b.stop app).2.report app.namespaceId = [] := by
  have htracks : Tracks (es ++ [⟨.stop app, .stopped []⟩]) (b.stop app).2 := h.stop app _
  rw [report_eq htracks, h.lookup_stop app]
  rfl

theorem report_inMemory_of_ne (h : Tracks es b) {ns : String} {st : Step}
    (hns : st.app.namespaceId ≠ ns) : (st.inMemory b).2.report ns = b.report ns := by
  rw [report_eq h, report_eq (h.inMemory st), lookup_inMemory_of_ne (Ne.symm hns)]

theorem fst_stop (app : AppName) (b : Backend) :
    (b.stop app).1 = (b.servicesIn app.namespaceId).map (·.2) := by
  unfold servicesIn
  cases happ : b.apps.lookup app.namespaceId with
  | none => rw [stop_of_lookup_eq_none happ]; rfl
  | some a => rw [stop_of_lookup_eq_some happ]; rfl

theorem fst_setStatus_eq_none_iff (app : AppName) (service : String) (status : ServiceStatus)
    (b : Backend) : (b.setStatus app service status).1 = none ↔
      service ∉ (b.servicesIn app.namespaceId).map (·.1) := by
  cases hs : b.view app.namespaceId service with
  | none =>
    rw [setStatus_of_view_eq_none hs]
    rw [view_eq_lookup_servicesIn, List.lookup_eq_none_iff] at hs
    simpa using fun s hmem => by simpa using hs _ hmem
  | some s =>
    obtain ⟨a, -, -, hset⟩ := setStatus_of_view_eq_some hs status
    rw [view_eq_lookup_servicesIn] at hs
    have hmem := List.mem_map_of_mem (f := (·.1)) (Assoc.mem_of_lookup hs)
    simp only [hset, reduceCtorEq, false_iff, not_not]
    exact hmem

end Backend

structure Lists (ns : String) (es : List Event) (ss : List Service) : Prop where
  names : ss.map (·.name) = deployedNames ns es
  config : ∀ s ∈ ss, lastConfig ns s.name es = some s.config
  status : ∀ s ∈ ss, s.status = lastStatus ns s.name es

def Shows (spelling : Option AppName) (ss : List Service) (gs : Groups) : Prop :=
  (ss = [] ∧ gs = []) ∨ (ss ≠ [] ∧ ∃ app, spelling = some app ∧ gs = [(app, ss)])

theorem Recorded.lists {ns : String} {es : List Event} {services : List (String × Service)}
    (h : Recorded ns es services) : Lists ns es (services.map (·.2)) := by
  have hconfig : ∀ p ∈ services, lastConfig ns p.1 es = some p.2.config := by
    intro p hp
    rw [← h.config, Assoc.lookup_of_mem h.nodup hp]
    rfl
  have hname : ∀ p ∈ services, p.2.name = p.1 := by
    intro p hp
    exact serviceName_of_lastConfig (hconfig p hp)
  refine ⟨?_, ?_, ?_⟩
  · rw [← h.names, List.map_map]
    exact List.map_congr_left hname
  · intro s hs
    obtain ⟨p, hp, rfl⟩ := List.mem_map.1 hs
    rw [hname p hp, hconfig p hp]
  · intro s hs
    obtain ⟨p, hp, rfl⟩ := List.mem_map.1 hs
    rw [hname p hp]
    exact h.status p.1 p.2 (Assoc.lookup_of_mem h.nodup hp)

theorem Backend.Tracks.shows {es : List Event} {b : Backend} (h : b.Tracks es) (ns : String) :
    Shows (lastSpelling ns es) ((b.servicesIn ns).map (·.2)) (b.report ns) := by
  rw [report_eq h, ← h.spelling]
  unfold servicesIn
  cases b.apps.lookup ns with
  | none => exact .inl ⟨rfl, rfl⟩
  | some a =>
    cases hservices : a.services with
    | nil => exact .inl (by simp [Option.filter, hservices])
    | cons p ps => exact .inr (by simp [Option.filter, hservices])

/-- At every moment, and for every namespace: what is shown of it is what was deployed since it was
last stopped, a stop gives back all of it, a status is given to nothing else, and calls for other
namespaces do not change it. -/
theorem afterwards_realizes_history (steps : List Step) (ns : String) :
    ∃ ss, Lists ns (history steps) ss ∧
      Shows (lastSpelling ns (history steps)) ss ((afterwards steps).report ns) ∧
      (∀ app, app.namespaceId = ns → ((afterwards steps).stop app).1 = ss ∧
        ((afterwards steps).stop app).2.report ns = []) ∧
      (∀ app service status, app.namespaceId = ns →
        (((afterwards steps).setStatus app service status).1 = none ↔
          service ∉ deployedNames ns (history steps))) ∧
      ∀ st : Step, st.app.namespaceId ≠ ns →
        (st.inMemory (afterwards steps)).2.report ns = (afterwards steps).report ns := by
  have htracks := Backend.tracks_afterwards steps
  have hrecorded := htracks.recorded ns
  refine ⟨_, hrecorded.lists, htracks.shows ns, ?_, ?_, ?_⟩
  · rintro app rfl
    exact ⟨Backend.fst_stop app _, Backend.report_stop htracks app⟩
  · rintro app service status rfl
    rw [Backend.fst_setStatus_eq_none_iff, hrecorded.names]
  · intro st hst
    exact Backend.report_inMemory_of_ne htracks hst

end PreviewApps.Memory
